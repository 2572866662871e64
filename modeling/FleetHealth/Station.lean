import FleetHealth.Text.Blank
/-!
Base stations as the directory lists them.
-/
namespace FleetHealth

inductive Lifecycle where
  | active
  | maintenance
  | offline
  deriving DecidableEq, Repr, Inhabited

namespace Lifecycle

def name : Lifecycle → String
  | active => "active"
  | maintenance => "maintenance"
  | offline => "offline"

/-- Reads a name exactly as written; any other text is offline. -/
def ofName (s : String) : Lifecycle :=
  if s = "active" then active else if s = "maintenance" then maintenance else offline

/- Neither word can come from a letter outside ASCII, so folding ASCII case is enough. -/
def ofText (s : String) : Lifecycle := ofName (Text.fold s)

def isActive : Lifecycle → Bool
  | active => true
  | _ => false

theorem ofName_name (l : Lifecycle) : ofName l.name = l := by cases l <;> decide

theorem ofText_name (l : Lifecycle) : ofText l.name = l := by cases l <;> decide +kernel

end Lifecycle

structure Station where
  id : String
  name : String
  location : String
  lifecycle : Lifecycle
  deriving DecidableEq, Repr

end FleetHealth
