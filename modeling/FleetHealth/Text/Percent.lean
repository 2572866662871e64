import FleetHealth.Tree.Json.Reader
/-!
Percent-encoded text: bytes, and the text they encode in UTF-8. Bytes that are no such encoding
either have no text or show as the replacement character.
-/
namespace FleetHealth.Text

def encodeChar (c : Char) : List UInt8 := String.utf8EncodeChar c

/-- The bytes of a text in which a percent sign and two hexadecimal digits stand for one byte. -/
def percentDecode : List Char → List UInt8
  | '%' :: a :: b :: rest =>
    match Tree.Json.hexValue? a, Tree.Json.hexValue? b with
    | some high, some low => (16 * high + low).toUInt8 :: percentDecode rest
    | _, _ => 0x25 :: percentDecode (a :: b :: rest)
  | c :: rest => encodeChar c ++ percentDecode rest
  | [] => []

def isContinuation (b : UInt8) : Bool := 0x80 ≤ b && b ≤ 0xBF

/-- A first byte that may start an encoding, the bytes that may follow it, and how many more
continuations there are after that. -/
def lead? (b : UInt8) : Option ((UInt8 → Bool) × Nat) :=
  if 0xC2 ≤ b && b ≤ 0xDF then some (isContinuation, 0)
  else if b = 0xE0 then some (fun n => 0xA0 ≤ n && n ≤ 0xBF, 1)
  else if b = 0xED then some (fun n => 0x80 ≤ n && n ≤ 0x9F, 1)
  else if 0xE1 ≤ b && b ≤ 0xEF then some (isContinuation, 1)
  else if b = 0xF0 then some (fun n => 0x90 ≤ n && n ≤ 0xBF, 2)
  else if 0xF1 ≤ b && b ≤ 0xF3 then some (isContinuation, 2)
  else if b = 0xF4 then some (fun n => 0x80 ≤ n && n ≤ 0x8F, 2)
  else none

/- The payload of a first byte by the number of bytes after it. -/
def leadBits (b : UInt8) (more : Nat) : Nat :=
  if more = 1 then b.toNat % 32 else if more = 2 then b.toNat % 16 else b.toNat % 8

/-- The continuations at the start, at most so many. -/
def continuations : Nat → List UInt8 → List UInt8
  | 0, _ => []
  | n + 1, b :: rest => if isContinuation b then b :: continuations n rest else []
  | _ + 1, [] => []

/-- One step of decoding: the character, unless the bytes are wrong, and how many bytes it takes;
wrong bytes are taken as far as they could have begun a character. -/
def decodeStep (b : UInt8) (rest : List UInt8) : Option Char × Nat :=
  if b < 0x80 then (some (Char.ofNat b.toNat), 1)
  else
    match lead? b with
    | none => (none, 1)
    | some (second, more) =>
      match rest with
      | [] => (none, 1)
      | n :: rest =>
        if second n then
          let tail := continuations more rest
          if tail.length = more then
            let bits := (n :: tail).foldl (fun v c => v * 64 + c.toNat % 64) (leadBits b (more + 1))
            (some (Char.ofNat bits), more + 2)
          else (none, tail.length + 2)
        else (none, 1)

def decodeAll (fuel : Nat) (bytes : List UInt8) : List (Option Char) :=
  match fuel with
  | 0 => []
  | fuel + 1 =>
    match bytes with
    | [] => []
    | b :: rest =>
      let (c, taken) := decodeStep b rest
      c :: decodeAll fuel (rest.drop (taken - 1))

def utf8? (bytes : List UInt8) : Option String :=
  ((decodeAll bytes.length bytes).mapM id).map String.ofList

/-- The text that the bytes encode, with replacement characters for what encodes none. -/
def utf8Lossy (bytes : List UInt8) : String :=
  String.ofList ((decodeAll bytes.length bytes).map (fun c => c.getD '\ufffd'))

def split (separator : Char) : List Char → List (List Char)
  | [] => [[]]
  | c :: rest =>
    if c = separator then [] :: split separator rest
    else
      match split separator rest with
      | piece :: pieces => (c :: piece) :: pieces
      | [] => [[c]]

/- A plus sign stands for a space. -/
def formDecode (cs : List Char) : String :=
  utf8Lossy (percentDecode (cs.map (fun c => if c = '+' then ' ' else c)))

/-- The names and values of a query; a name without an equals sign has the empty value. -/
def formPairs (query : List Char) : List (String × String) :=
  ((split '&' query).filter (fun piece => !piece.isEmpty)).map (fun piece =>
    let name := piece.takeWhile (· ≠ '=')
    (formDecode name, formDecode (piece.drop (name.length + 1))))

end FleetHealth.Text
