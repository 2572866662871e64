import FleetHealth.Tree.Toml.Scalar
import FleetHealth.Tree.Toml.Section
/-!
Reading TOML documents. Lists and inline tables may spread over lines and end in a comma; they
nest at most eighty deep.
-/
namespace FleetHealth.Tree.Toml

def maxDepth : Nat := 80

mutual

def value? (fuel depth : Nat) (cs : List Char) : Option (Tree × List Char) :=
  match fuel with
  | 0 => none
  | fuel + 1 =>
    match cs with
    | '"' :: _ => (string? cs).map (fun p => (.text p.1, p.2))
    | '\'' :: _ => (string? cs).map (fun p => (.text p.1, p.2))
    | '[' :: rest =>
      if depth < maxDepth then
        (items? fuel (depth + 1) rest).map (fun p => (.list p.1, p.2))
      else none
    | '\x7b' :: rest =>
      if depth < maxDepth then
        (members? fuel (depth + 1) Section.opened rest).map (fun p => (p.1.toTree, p.2))
      else none
    | cs => atom? cs

/-- The items of a list up to its closing bracket. -/
def items? (fuel depth : Nat) (cs : List Char) : Option (List Tree × List Char) :=
  match fuel with
  | 0 => none
  | fuel + 1 => do
    match ← skipLines? (cs.length + 1) cs with
    | ']' :: rest => some ([], rest)
    | cs => do
      let (t, rest) ← value? fuel depth cs
      match ← skipLines? (rest.length + 1) rest with
      | ',' :: rest => (items? fuel depth rest).map (fun p => (t :: p.1, p.2))
      | ']' :: rest => some ([t], rest)
      | _ => none

/-- The members of an inline table up to its closing brace, added to those read so far. -/
def members? (fuel depth : Nat) (done : Section) (cs : List Char) :
    Option (Section × List Char) :=
  match fuel with
  | 0 => none
  | fuel + 1 => do
    match ← skipLines? (cs.length + 1) cs with
    | '\x7d' :: rest => some (done, rest)
    | cs => do
      let (key, rest) ← key? (cs.length + 1) cs
      let ('=' :: rest) := skipSpace rest | none
      let (t, rest) ← value? fuel depth (skipSpace rest)
      let done ← done.addValue t key.2 key.1
      match ← skipLines? (rest.length + 1) rest with
      | ',' :: rest => members? fuel depth done rest
      | '\x7d' :: rest => some (done, rest)
      | _ => none

end

/-- What stands after an expression: a comment at most, then the end of the line or text. -/
def lineEnd? (cs : List Char) : Option (List Char) := do
  let rest ← skipComment? (skipSpace cs)
  if rest.isEmpty then some [] else newline? rest

/-- The document read so far and the path of the table that is open. -/
structure Progress where
  root : Section
  path : List String

def header? (p : Progress) (cs : List Char) : Option (Progress × List Char) :=
  match cs with
  | '[' :: rest => do
    let (key, rest) ← key? (rest.length + 1) (skipSpace rest)
    let (']' :: ']' :: rest) := skipSpace rest | none
    let root ← p.root.appendTable key.1 key.2
    return (⟨root, key.1 ++ [key.2]⟩, rest)
  | cs => do
    let (key, rest) ← key? (cs.length + 1) (skipSpace cs)
    let (']' :: rest) := skipSpace rest | none
    let root ← p.root.openTable key.1 key.2
    return (⟨root, key.1 ++ [key.2]⟩, rest)

def assignment? (p : Progress) (cs : List Char) : Option (Progress × List Char) := do
  let (key, rest) ← key? (cs.length + 1) cs
  let ('=' :: rest) := skipSpace rest | none
  let (t, rest) ← value? (2 * rest.length + 2) 0 (skipSpace rest)
  let root ← p.root.alterAt (Section.addValue t key.2 key.1) p.path
  return ({ p with root }, rest)

def expressions? (fuel : Nat) (p : Progress) (cs : List Char) : Option Section :=
  match fuel with
  | 0 => none
  | fuel + 1 => do
    match ← skipLines? (cs.length + 1) cs with
    | [] => some p.root
    | '[' :: rest => do
      let (p, rest) ← header? p rest
      expressions? fuel p (← lineEnd? rest)
    | cs => do
      let (p, rest) ← assignment? p cs
      expressions? fuel p (← lineEnd? rest)

/- A byte order mark may stand in front. -/
def read? (cs : List Char) : Option Tree :=
  let cs := if cs.head? = some '\ufeff' then cs.tail else cs
  (expressions? (cs.length + 1) ⟨Section.opened, []⟩ cs).map Section.toTree

end FleetHealth.Tree.Toml
