import FleetHealth.Tree
/-!
Tables of a TOML document while it is read. A table may be opened by its own header once; tables
that headers only pass through, and those that dotted keys make, can still grow, but each in its
own way: a header may later open the former and dotted keys pass through them, too; dotted keys may
add to the latter.
-/
namespace FleetHealth.Tree.Toml

inductive Origin where
  /- Opened by a header, or an inline table. -/
  | opened
  /- Passed through by a header. -/
  | passed
  /- Made by dotted keys. -/
  | dotted
  deriving DecidableEq, Repr

mutual

inductive Entry where
  | value (t : Tree)
  | table (t : Section)
  /- An array of tables, the latest first. -/
  | tables (latest : Section) (earlier : List Section)

inductive Section where
  | mk (origin : Origin) (entries : List (String × Entry))

end

namespace Section

def origin : Section → Origin
  | mk o _ => o

def entries : Section → List (String × Entry)
  | mk _ es => es

def opened : Section := mk .opened []

def find? (s : Section) (key : String) : Option Entry := s.entries.lookup key

/-- Puts an entry in place of the one under its key, or at the end. -/
def put (s : Section) (key : String) (e : Entry) : Section :=
  if s.entries.any (fun p => p.1 = key) then
    mk s.origin (s.entries.map (fun p => if p.1 = key then (key, e) else p))
  else mk s.origin (s.entries ++ [(key, e)])

/-- Changes the table at the end of a header's path; an array of tables leads into its latest. -/
def alterAt (change : Section → Option Section) : List String → Section → Option Section
  | [], s => change s
  | key :: path, s =>
    match s.find? key with
    | none => (alterAt change path (mk .passed [])).map (fun t => s.put key (.table t))
    | some (.table t) => (alterAt change path t).map (fun t => s.put key (.table t))
    | some (.tables latest earlier) =>
      (alterAt change path latest).map (fun t => s.put key (.tables t earlier))
    | some (.value _) => none

def insertNew (key : String) (t : Tree) (s : Section) : Option Section :=
  if (s.find? key).isSome then none else some (s.put key (.value t))

def addValue (t : Tree) (last : String) : List String → Section → Option Section
  | [], s => insertNew last t s
  | key :: path, s =>
    match s.find? key with
    | none =>
      (addValue t last path (mk .dotted [])).map (fun inner => s.put key (.table inner))
    | some (.table (mk origin es)) =>
      if origin = .dotted ∨ (origin = .passed ∧ path ≠ []) then
        (addValue t last path (mk origin es)).map (fun inner => s.put key (.table inner))
      else none
    | some _ => none

def openTable (path : List String) (last : String) (root : Section) : Option Section :=
  root.alterAt (fun parent =>
    match parent.find? last with
    | none => some (parent.put last (.table opened))
    | some (.table (mk .passed es)) => some (parent.put last (.table (mk .opened es)))
    | some _ => none) path

def appendTable (path : List String) (last : String) (root : Section) : Option Section :=
  root.alterAt (fun parent =>
    match parent.find? last with
    | none => some (parent.put last (.tables opened []))
    | some (.tables latest earlier) => some (parent.put last (.tables opened (latest :: earlier)))
    | some _ => none) path

mutual

def toTree : Section → Tree
  | mk _ es => .record (entriesToTree es)

def entriesToTree : List (String × Entry) → List (String × Tree)
  | [] => []
  | (key, e) :: rest => (key, entryToTree e) :: entriesToTree rest

def entryToTree : Entry → Tree
  | .value t => t
  | .table s => toTree s
  | .tables latest earlier => .list (sectionsToTree earlier [toTree latest])

def sectionsToTree : List Section → List Tree → List Tree
  | [], done => done
  | s :: rest, done => sectionsToTree rest (toTree s :: done)

end

end Section
end FleetHealth.Tree.Toml
