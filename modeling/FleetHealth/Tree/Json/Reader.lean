import FleetHealth.Decimal.Numeral
import FleetHealth.Tree
/-!
Reading JSON. The whole text must be one value. A number too large for a double, a string with
half of a surrogate pair, an object with such a key and whatever nests too deeply are well formed
but unreadable.
-/
namespace FleetHealth.Tree.Json

def isSpace (c : Char) : Bool := c = ' ' || c = '\n' || c = '\t' || c = '\r'

def skipSpace (cs : List Char) : List Char := cs.dropWhile isSpace

def hexValue? (c : Char) : Option Nat :=
  if '0' ≤ c ∧ c ≤ '9' then some (c.toNat - '0'.toNat)
  else if 'a' ≤ c ∧ c ≤ 'f' then some (c.toNat - 'a'.toNat + 10)
  else if 'A' ≤ c ∧ c ≤ 'F' then some (c.toNat - 'A'.toNat + 10)
  else none

def hexQuad? : List Char → Option (Nat × List Char)
  | a :: b :: c :: d :: rest => do
    let a ← hexValue? a
    let b ← hexValue? b
    let c ← hexValue? c
    let d ← hexValue? d
    return (((a * 16 + b) * 16 + c) * 16 + d, rest)
  | _ => none

def simpleEscape? : Char → Option Char
  | '"' => some '"'
  | '\\' => some '\\'
  | '/' => some '/'
  | 'b' => some '\x08'
  | 'f' => some '\x0c'
  | 'n' => some '\n'
  | 'r' => some '\r'
  | 't' => some '\t'
  | _ => none

/-- A unit of sixteen bits: a character of its own, or half of a pair. -/
inductive Half where
  | whole (c : Char)
  | leading (n : Nat)
  | trailing (n : Nat)

def half (n : Nat) : Half :=
  if 0xD800 ≤ n ∧ n ≤ 0xDBFF then .leading (n - 0xD800)
  else if 0xDC00 ≤ n ∧ n ≤ 0xDFFF then .trailing (n - 0xDC00)
  else .whole (Char.ofNat n)

/- The rest of a string, in reverse; the flag falls at the first half of a pair without the other
   half. -/
def stringTail (fuel : Nat) (done : List Char) (sound : Bool) (cs : List Char) :
    Option (Option String × List Char) :=
  match fuel with
  | 0 => none
  | fuel + 1 =>
    match cs with
    | '"' :: rest => some (if sound then some (String.ofList done.reverse) else none, rest)
    | '\\' :: 'u' :: rest =>
      match hexQuad? rest with
      | none => none
      | some (n, rest) =>
        match half n with
        | .whole c => stringTail fuel (c :: done) sound rest
        | .trailing _ => stringTail fuel done false rest
        | .leading high =>
          match rest with
          | '\\' :: 'u' :: rest' =>
            match hexQuad? rest' with
            | none => none
            | some (n', rest') =>
              match half n' with
              | .trailing low =>
                stringTail fuel (Char.ofNat (0x10000 + high * 0x400 + low) :: done) sound rest'
              | _ => stringTail fuel done false rest
          | _ => stringTail fuel done false rest
    | '\\' :: c :: rest =>
      match simpleEscape? c with
      | some c => stringTail fuel (c :: done) sound rest
      | none => none
    | c :: rest => if c.toNat < 0x20 then none else stringTail fuel (c :: done) sound rest
    | [] => none

/-- The string after its opening mark; none in the pair if it is unreadable. -/
def string? (cs : List Char) : Option (Option String × List Char) :=
  stringTail (cs.length + 1) [] true cs

def digitRun (cs : List Char) : List Char × List Char :=
  (cs.takeWhile Char.isDigit, cs.dropWhile Char.isDigit)

/- Digits without a zero in front, then a fraction and an exponent, each of them optional. -/
def fraction? (cs : List Char) : Option (List Char × List Char) :=
  match cs with
  | '.' :: rest =>
    let (ds, rest) := digitRun rest
    if ds.isEmpty then none else some (ds, rest)
  | cs => some ([], cs)

/-- Whether the sign in front, if there is one, is a minus, and what follows the sign. -/
def sign (cs : List Char) : Bool × List Char :=
  match cs with
  | '-' :: rest => (true, rest)
  | '+' :: rest => (false, rest)
  | rest => (false, rest)

def exponent? (cs : List Char) : Option (Option Int × List Char) :=
  match cs with
  | c :: rest =>
    if c = 'e' || c = 'E' then
      let (negative, rest) := sign rest
      let (ds, rest) := digitRun rest
      if ds.isEmpty then none
      else
        let n : Int := Decimal.value ds
        some (some (if negative then -n else n), rest)
    else some (none, cs)
  | [] => some (none, cs)

/- Whole numbers of 64 bits, signed if negative, stay whole; negative zero is not among them. -/
def wholeOrReal (negative : Bool) (n : Nat) : Tree :=
  if !negative && n < UInt64.size then .int n
  else if negative && 0 < n && Int64.minValue.toInt ≤ -(n : Int) then .int (-(n : Int))
  else
    let x := (Decimal.Numeral.mk negative n 0).toFloat
    if x.isFinite then .real x else .unreadable

/-- The number whose digits, and exponent if it has one, are these. -/
def numberOf (negative : Bool) (whole fraction : List Char) (exponent : Option Int) : Tree :=
  if fraction.isEmpty && exponent.isNone then wholeOrReal negative (Decimal.value whole)
  else
    let n : Decimal.Numeral :=
      ⟨negative, Decimal.value (whole ++ fraction), exponent.getD 0 - fraction.length⟩
    let x := n.toFloat
    if x.isFinite then .real x else .unreadable

def number? (negative : Bool) (cs : List Char) : Option (Tree × List Char) := do
  let (whole, rest) := digitRun cs
  if whole.isEmpty || (1 < whole.length && whole.head? = some '0') then none
  else
    let (fraction, rest) ← fraction? rest
    let (exponent, rest) ← exponent? rest
    return (numberOf negative whole fraction exponent, rest)

def word? (word : List Char) (t : Tree) (cs : List Char) : Option (Tree × List Char) :=
  if word.isPrefixOf cs then some (t, cs.drop word.length) else none

/- Containers inside fewer than this many others can be used. -/
def maxDepth : Nat := 127

mutual

def value? (fuel depth : Nat) (cs : List Char) : Option (Tree × List Char) :=
  match fuel with
  | 0 => none
  | fuel + 1 =>
    match skipSpace cs with
    | 'n' :: rest => word? ['u', 'l', 'l'] .null rest
    | 't' :: rest => word? ['r', 'u', 'e'] (.bool true) rest
    | 'f' :: rest => word? ['a', 'l', 's', 'e'] (.bool false) rest
    | '"' :: rest =>
      (string? rest).map (fun p => ((p.1.map Tree.text).getD .unreadable, p.2))
    | '-' :: rest => number? true rest
    | '[' :: rest =>
      match skipSpace rest with
      | ']' :: rest => some (if depth < maxDepth then .list [] else .unreadable, rest)
      | rest =>
        (items? fuel (depth + 1) rest).map (fun p =>
          (if depth < maxDepth then .list p.1 else .unreadable, p.2))
    | '\x7b' :: rest =>
      match skipSpace rest with
      | '\x7d' :: rest => some (if depth < maxDepth then .record [] else .unreadable, rest)
      | rest =>
        (members? fuel (depth + 1) rest).map (fun p =>
          (if depth < maxDepth then (p.1.map Tree.record).getD .unreadable else .unreadable, p.2))
    | cs => number? false cs

/-- The items of a list up to its closing bracket; there is at least one. -/
def items? (fuel depth : Nat) (cs : List Char) : Option (List Tree × List Char) :=
  match fuel with
  | 0 => none
  | fuel + 1 => do
    let (t, rest) ← value? fuel depth cs
    match skipSpace rest with
    | ',' :: rest => (items? fuel depth rest).map (fun p => (t :: p.1, p.2))
    | ']' :: rest => some ([t], rest)
    | _ => none

/-- The members of a record up to its closing brace; there is at least one. -/
def members? (fuel depth : Nat) (cs : List Char) :
    Option (Option (List (String × Tree)) × List Char) :=
  match fuel with
  | 0 => none
  | fuel + 1 =>
    match skipSpace cs with
    | '"' :: rest => do
      let (name, rest) ← string? rest
      match skipSpace rest with
      | ':' :: rest => do
        let (t, rest) ← value? fuel depth rest
        let entry := name.map (fun name => (name, t))
        match skipSpace rest with
        | ',' :: rest => do
          let (more, rest) ← members? fuel depth rest
          return (entry.bind (fun e => more.map (e :: ·)), rest)
        | '\x7d' :: rest => return (entry.map (fun e => [e]), rest)
        | _ => none
      | _ => none
    | _ => none

end

def read? (cs : List Char) : Option Tree := do
  let (t, rest) ← value? (2 * cs.length + 2) 0 cs
  if (skipSpace rest).isEmpty then some t else none

end FleetHealth.Tree.Json
