import FleetHealth.Thresholds
import FleetHealth.Tree
/-!
Reading typed values out of trees. A structure is a record in which no field is repeated, or the
list of its fields in order; other members of a record are skipped over.
-/
namespace FleetHealth.Tree

def bool? : Tree → Option Bool
  | bool b => some b
  | _ => none

def text? : Tree → Option String
  | text s => some s
  | _ => none

def intWithin? (low high : Int) : Tree → Option Int
  | int n => if low ≤ n ∧ n ≤ high then some n else none
  | _ => none

def int64? (t : Tree) : Option Int64 :=
  (t.intWithin? Int64.minValue.toInt Int64.maxValue.toInt).map Int64.ofInt

def int32? (t : Tree) : Option Int32 :=
  (t.intWithin? Int32.minValue.toInt Int32.maxValue.toInt).map Int32.ofInt

/-- A count that fits into that many bits. -/
def count? (bits : Nat) (t : Tree) : Option Nat :=
  (t.intWithin? 0 ((Nat.pow 2 bits : Int) - 1)).map Int.toNat

def uint32? (t : Tree) : Option UInt32 := (t.count? 32).map Nat.toUInt32

def float? : Tree → Option Float
  | int n => some (Float.ofInt n)
  | real x => some x
  | _ => none

def list? {α : Type} (item? : Tree → Option α) : Tree → Option (List α)
  | list items => items.mapM item?
  | _ => none

/-- A table with keys read from member names; of several values of one key the last counts. -/
def table? {κ α : Type} [DecidableEq κ] (key? : String → Option κ) (value? : Tree → Option α) :
    Tree → Option (Table κ α)
  | record members =>
    (members.mapM (fun (e : String × Tree) => do return (← key? e.1, ← value? e.2))).map
      Table.ofList
  | _ => none

/-- The name of a case without content: a text, or a record of that one name. -/
def caseName? : Tree → Option String
  | text s => some s
  | record [(s, null)] => some s
  | _ => none

/- Where a tree is kept aside before it is read, an empty record serves as no content too. -/
def keptCaseName? : Tree → Option String
  | record [(s, record [])] => some s
  | t => t.caseName?

def membersNamed (name : String) (members : List (String × Tree)) : List Tree :=
  (members.filter (fun e => e.1 = name)).map (·.2)

/-- A member that may be missing but not repeated. -/
def single? (name : String) (members : List (String × Tree)) : Option (Option Tree) :=
  match membersNamed name members with
  | [] => some none
  | [t] => some (some t)
  | _ => none

def recordFields? (names : List String) (members : List (String × Tree)) :
    Option (Table String Tree) :=
  if names.all (fun name => (single? name members).isSome) then
    some (fun name => if name ∈ names then (single? name members).join else none)
  else none

def listFields? (names : List String) (items : List Tree) : Option (Table String Tree) :=
  if items.length ≤ names.length then some (fun name => (names.zip items).lookup name) else none

def fields? (names : List String) : Tree → Option (Table String Tree)
  | record members => recordFields? names members
  | list items => listFields? names items
  | _ => none

def required? {α : Type} (fields : Table String Tree) (name : String) (read? : Tree → Option α) :
    Option α :=
  (fields name).bind read?

/-- A field that may be missing, for which the given value then stands. -/
def defaulted? {α : Type} (fields : Table String Tree) (name : String) (read? : Tree → Option α)
    (value : α) : Option α :=
  match fields name with
  | none => some value
  | some t => read? t

/-- A field that may be missing or null. -/
def optional? {α : Type} (fields : Table String Tree) (name : String) (read? : Tree → Option α) :
    Option (Option α) :=
  match fields name with
  | none => some none
  | some null => some none
  | some t => (read? t).map some

end FleetHealth.Tree
