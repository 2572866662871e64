import FleetHealth.Calendar.Date
import FleetHealth.Decimal.Numeral
import FleetHealth.Tree.Json.Reader
/-!
Blanks, keys, strings, numbers and times of TOML 1.1.
-/
namespace FleetHealth.Tree.Toml

open Json (hexValue?)

def isSpace (c : Char) : Bool := c = ' ' || c = '\t'

def skipSpace (cs : List Char) : List Char := cs.dropWhile isSpace

/- Controls other than the tab stand in no comment and in no string. -/
def isControl (c : Char) : Bool := (c.toNat < 0x20 && c ≠ '\t') || c.toNat = 0x7F

def newline? : List Char → Option (List Char)
  | '\n' :: rest => some rest
  | '\r' :: '\n' :: rest => some rest
  | _ => none

/-- What follows a comment, if one stands here; none if it holds a control. -/
def skipComment? (cs : List Char) : Option (List Char) :=
  match cs with
  | '#' :: rest =>
    let rest := rest.dropWhile (fun c => !isControl c)
    if rest.isEmpty || (newline? rest).isSome then some rest else none
  | cs => some cs

/-- What follows any number of blanks, comments and line ends. -/
def skipLines? (fuel : Nat) (cs : List Char) : Option (List Char) :=
  match fuel with
  | 0 => none
  | fuel + 1 => do
    let rest ← skipComment? (skipSpace cs)
    match newline? rest with
    | some rest => skipLines? fuel rest
    | none => some rest

def isBare (c : Char) : Bool := c.isAlphanum || c = '_' || c = '-'

/- A number of exactly so many hexadecimal digits. -/
def hexDigits? (count : Nat) (cs : List Char) : Option (Nat × List Char) :=
  let ds := cs.take count
  if ds.length = count then
    (ds.mapM hexValue?).map (fun vs => (vs.foldl (fun n v => 16 * n + v) 0, cs.drop count))
  else none

def scalar? (n : Nat) : Option Char :=
  if n.isValidChar then some (Char.ofNat n) else none

def escape? : List Char → Option (Char × List Char)
  | 'b' :: rest => some ('\x08', rest)
  | 't' :: rest => some ('\t', rest)
  | 'n' :: rest => some ('\n', rest)
  | 'f' :: rest => some ('\x0c', rest)
  | 'r' :: rest => some ('\r', rest)
  | 'e' :: rest => some ('\x1b', rest)
  | '"' :: rest => some ('"', rest)
  | '\\' :: rest => some ('\\', rest)
  | 'x' :: rest => (hexDigits? 2 rest).bind (fun p => (scalar? p.1).map (fun c => (c, p.2)))
  | 'u' :: rest => (hexDigits? 4 rest).bind (fun p => (scalar? p.1).map (fun c => (c, p.2)))
  | 'U' :: rest => (hexDigits? 8 rest).bind (fun p => (scalar? p.1).map (fun c => (c, p.2)))
  | _ => none

/- The rest of a string of one line, read so far in reverse. -/
def basicTail? (fuel : Nat) (done : List Char) (cs : List Char) : Option (String × List Char) :=
  match fuel with
  | 0 => none
  | fuel + 1 =>
    match cs with
    | '"' :: rest => some (String.ofList done.reverse, rest)
    | '\\' :: rest => (escape? rest).bind (fun p => basicTail? fuel (p.1 :: done) p.2)
    | c :: rest => if isControl c then none else basicTail? fuel (c :: done) rest
    | [] => none

def literalTail? (done : List Char) : List Char → Option (String × List Char)
  | '\'' :: rest => some (String.ofList done.reverse, rest)
  | c :: rest => if isControl c then none else literalTail? (c :: done) rest
  | [] => none

/-- The marks at the end of a string of several lines: three close it, and up to two before them
belong to it. -/
def closing? (mark : Char) (cs : List Char) : Option (List Char × List Char) :=
  let run := cs.takeWhile (· = mark)
  if 3 ≤ run.length ∧ run.length ≤ 5 then
    some (run.drop 3, cs.drop run.length)
  else none

/- A backslash at the end of a line takes away the line end and the blanks and line ends after
   it. -/
def continuation? (fuel : Nat) (cs : List Char) : Option (List Char) :=
  (newline? (skipSpace cs)).map (skipAll fuel)
where
  skipAll (fuel : Nat) (cs : List Char) : List Char :=
    match fuel with
    | 0 => cs
    | fuel + 1 =>
      match newline? (skipSpace cs) with
      | some rest => skipAll fuel rest
      | none => skipSpace cs

def multilineTail? (mark : Char) (fuel : Nat) (done : List Char) (cs : List Char) :
    Option (String × List Char) :=
  match fuel with
  | 0 => none
  | fuel + 1 =>
    match cs with
    | [] => none
    | c :: rest =>
      if c = mark then
        match closing? mark cs with
        | some (inside, rest) => some (String.ofList (inside ++ done).reverse, rest)
        | none =>
          if 5 < (cs.takeWhile (· = mark)).length then none
          else multilineTail? mark fuel (c :: done) rest
      else if c = '\\' && mark = '"' then
        match continuation? fuel rest with
        | some rest => multilineTail? mark fuel done rest
        | none => (escape? rest).bind (fun p => multilineTail? mark fuel (p.1 :: done) p.2)
      else
        match newline? cs with
        | some rest => multilineTail? mark fuel ('\n' :: done) rest
        | none => if isControl c then none else multilineTail? mark fuel (c :: done) rest

/-- A string with whichever marks; the first line end of several lines is not part of it. -/
def string? (cs : List Char) : Option (String × List Char) :=
  match cs with
  | '"' :: '"' :: '"' :: rest => multilineTail? '"' (rest.length + 1) [] ((newline? rest).getD rest)
  | '\'' :: '\'' :: '\'' :: rest =>
    multilineTail? '\'' (rest.length + 1) [] ((newline? rest).getD rest)
  | '"' :: rest => basicTail? (rest.length + 1) [] rest
  | '\'' :: rest => literalTail? [] rest
  | _ => none

def simpleKey? (cs : List Char) : Option (String × List Char) :=
  match cs with
  | '"' :: rest => basicTail? (rest.length + 1) [] rest
  | '\'' :: rest => literalTail? [] rest
  | cs =>
    let name := cs.takeWhile isBare
    if name.isEmpty then none else some (String.ofList name, cs.drop name.length)

/-- A key of one or more parts: those before the last, and the last. -/
def key? (fuel : Nat) (cs : List Char) : Option ((List String × String) × List Char) :=
  match fuel with
  | 0 => none
  | fuel + 1 => do
    let (name, rest) ← simpleKey? cs
    match skipSpace rest with
    | '.' :: rest =>
      (key? fuel (skipSpace rest)).map (fun p => ((name :: p.1.1, p.1.2), p.2))
    | rest => return (([], name), rest)

/-- The digits of a run in which single underscores may stand between digits. -/
def separated? (isDigit : Char → Bool) : List Char → Option (List Char)
  | [] => none
  | [c] => if isDigit c then some [c] else none
  | c :: '_' :: rest => if isDigit c then (separated? isDigit rest).map (c :: ·) else none
  | c :: rest => if isDigit c then (separated? isDigit rest).map (c :: ·) else none

def isDigitOf (base : Nat) (c : Char) : Bool :=
  match hexValue? c with
  | some v => v < base
  | none => false

def valueIn (base : Nat) (ds : List Char) : Nat :=
  ds.foldl (fun n c => base * n + (hexValue? c).getD 0) 0

/- Beyond 64 bits an integer can only be skipped over, and beyond 128 not even that. -/
def integerTree? (n : Int) : Option Tree :=
  if Int64.minValue.toInt ≤ n ∧ n < UInt64.size then some (.int n)
  else if -(Nat.pow 2 127 : Int) ≤ n ∧ n < (Nat.pow 2 128 : Int) then some .unreadable
  else none

def unsigned (cs : List Char) : Bool × List Char :=
  match cs with
  | '+' :: rest => (false, rest)
  | '-' :: rest => (true, rest)
  | cs => (false, cs)

/-- Digits without a zero in front of others. -/
def wholeDigits? (cs : List Char) : Option (List Char) :=
  match separated? Char.isDigit cs with
  | some ('0' :: _ :: _) => none
  | ds? => ds?

def decimalInteger? (cs : List Char) : Option Tree := do
  let (negative, cs) := unsigned cs
  let ds ← wholeDigits? cs
  let n : Int := Decimal.value ds
  integerTree? (if negative then -n else n)

def based? (cs : List Char) : Option Tree :=
  let read (base : Nat) (cs : List Char) : Option Tree :=
    (separated? (isDigitOf base) cs).bind (fun ds => integerTree? (valueIn base ds))
  match cs with
  | '0' :: 'x' :: rest => read 16 rest
  | '0' :: 'o' :: rest => read 8 rest
  | '0' :: 'b' :: rest => read 2 rest
  | _ => none

def special? (cs : List Char) : Option Tree :=
  let (negative, cs) := unsigned cs
  let x : Float := 1.0 / 0.0
  if cs = ['i', 'n', 'f'] then some (.real (if negative then -x else x))
  else if cs = ['n', 'a', 'n'] then some (.real (0.0 / 0.0))
  else none

def isExponentMark (c : Char) : Bool := c = 'e' || c = 'E'

/- A fraction, an exponent or both; what exceeds every double is refused. -/
def float? (cs : List Char) : Option Tree := do
  let (negative, cs) := unsigned cs
  let mantissa := cs.takeWhile (fun c => !isExponentMark c)
  let whole := mantissa.takeWhile (· ≠ '.')
  let wholeDs ← wholeDigits? whole
  let fractionDs ←
    match mantissa.drop whole.length with
    | [] => some []
    | _ :: ds => separated? Char.isDigit ds
  let exponent ←
    match cs.drop mantissa.length with
    | [] => some none
    | _ :: rest =>
      let (down, ds) := unsigned rest
      (separated? Char.isDigit ds).map (fun ds =>
        let n : Int := Decimal.value ds
        some (if down then -n else n))
  if fractionDs.isEmpty && exponent.isNone then none
  else
    let n : Decimal.Numeral :=
      ⟨negative, Decimal.value (wholeDs ++ fractionDs), exponent.getD 0 - fractionDs.length⟩
    let x := n.toFloat
    if x.isFinite then some (.real x) else none

def fixed? (count : Nat) (cs : List Char) : Option (Nat × List Char) :=
  let ds := cs.take count
  if ds.length = count ∧ ds.all Char.isDigit then some (Decimal.value ds, cs.drop count) else none

def civilDate? (cs : List Char) : Option (List Char) := do
  let (year, rest) ← fixed? 4 cs
  let ('-' :: rest) := rest | none
  let (month, rest) ← fixed? 2 rest
  let ('-' :: rest) := rest | none
  let (day, rest) ← fixed? 2 rest
  if Civil.Valid ⟨year, month, day⟩ then some rest else none

def seconds? (cs : List Char) : Option (List Char) :=
  match cs with
  | ':' :: rest => do
    let (second, rest) ← fixed? 2 rest
    if 60 < second then none
    else
      match rest with
      | '.' :: rest =>
        let ds := rest.takeWhile Char.isDigit
        if ds.isEmpty then none else some (rest.drop ds.length)
      | rest => some rest
  | cs => some cs

def clockTime? (cs : List Char) : Option (List Char) := do
  let (hour, rest) ← fixed? 2 cs
  let (':' :: rest) := rest | none
  let (minute, rest) ← fixed? 2 rest
  if 23 < hour ∨ 59 < minute then none else seconds? rest

def zone? (cs : List Char) : Option (List Char) :=
  match cs with
  | c :: rest =>
    if c = 'Z' || c = 'z' then some rest
    else if c = '+' || c = '-' then do
      let (hour, rest) ← fixed? 2 rest
      let (':' :: rest) := rest | none
      let (minute, rest) ← fixed? 2 rest
      if 23 < hour ∨ 59 < minute then none else some rest
    else some cs
  | [] => some []

/-- What follows a date, a time or both; an offset from UTC goes only with both. -/
def moment? (cs : List Char) : Option (List Char) :=
  match civilDate? cs with
  | some rest =>
    match rest with
    | c :: time =>
      if c = 'T' || c = 't' then (clockTime? time).bind zone?
      else if c = ' ' && (time.head?.map Char.isDigit).getD false then
        (clockTime? time).bind zone?
      else some rest
    | [] => some rest
  | none => clockTime? cs

/- A time is kept as a record that resembles no other value. -/
def momentTree (cs rest : List Char) : Tree :=
  .record [("datetime", .text (String.ofList (cs.take (cs.length - rest.length))))]

def isAtom (c : Char) : Bool := isBare c || c = '+' || c = '.' || c = ':'

def atom? (cs : List Char) : Option (Tree × List Char) :=
  match moment? cs with
  | some rest =>
    if (rest.head?.map isAtom).getD false then none else some (momentTree cs rest, rest)
  | none =>
    let word := cs.takeWhile isAtom
    let t :=
      if word = ['t', 'r', 'u', 'e'] then some (.bool true)
      else if word = ['f', 'a', 'l', 's', 'e'] then some (.bool false)
      else
        (decimalInteger? word).or ((based? word).or ((special? word).or (float? word)))
    t.map (fun t => (t, cs.drop word.length))

end FleetHealth.Tree.Toml
