/-!
Three-tier health and its composition. A group is as healthy as its worst member; an empty group
is healthy.
-/
namespace FleetHealth

inductive Health where
  | healthy
  | warning
  | critical
  deriving DecidableEq, Repr, Inhabited

namespace Health

def all : List Health := [healthy, warning, critical]

def rank : Health → Nat
  | healthy => 0
  | warning => 1
  | critical => 2

instance : LE Health := ⟨fun a b => a.rank ≤ b.rank⟩

instance (a b : Health) : Decidable (a ≤ b) := inferInstanceAs (Decidable (a.rank ≤ b.rank))

def worse (a b : Health) : Health := if a ≤ b then b else a

def worst (tiers : List Health) : Health := tiers.foldr worse healthy

/-- Healthy members of a population, counted in 32 bits. -/
def countHealthy (tiers : List Health) : UInt32 := (tiers.count healthy).toUInt32

def name : Health → String
  | healthy => "healthy"
  | warning => "warning"
  | critical => "critical"

def ofName? (s : String) : Option Health := all.find? (fun h => h.name = s)

theorem ofName?_name (h : Health) : ofName? h.name = some h := by cases h <;> rfl

end Health
end FleetHealth
