/-!
Documents as trees. A leaf may be unreadable: it is well formed, so it can be skipped over, but
holds nothing that can be used.
-/
namespace FleetHealth

inductive Tree where
  | null
  | bool (value : Bool)
  | int (value : Int)
  | real (value : Float)
  | text (value : String)
  | list (items : List Tree)
  | record (members : List (String × Tree))
  | unreadable
  deriving Inhabited

namespace Tree

mutual

/-- No part of the tree is unreadable. -/
def isReadable : Tree → Bool
  | unreadable => false
  | list items => allReadable items
  | record members => membersReadable members
  | _ => true

def allReadable : List Tree → Bool
  | [] => true
  | t :: rest => t.isReadable && allReadable rest

def membersReadable : List (String × Tree) → Bool
  | [] => true
  | (_, t) :: rest => t.isReadable && membersReadable rest

end

/-- A number, where the format has no spelling for what is not finite. -/
def ofFloat (x : Float) : Tree := if x.isFinite then real x else null

def ofNat (n : Nat) : Tree := int n

def ofOption (t : Option Tree) : Tree := t.getD null

/-- A member that is left out when there is nothing to show. -/
def optionalMember (name : String) (t : Option Tree) : List (String × Tree) :=
  t.toList.map (fun t => (name, t))

def member? (t : Tree) (name : String) : Option Tree :=
  match t with
  | record members => members.lookup name
  | _ => none

end Tree
end FleetHealth
