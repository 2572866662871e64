import FleetHealth.Metric
import FleetHealth.Rule
/-!
The classification table: one rule per metric and one per population. A metric is catalogued when
it has a rule; without one every value of it is critical.
-/
namespace FleetHealth

/-- Radio band. NR carries signal metrics; LTE reports throughput only. -/
inductive Band where
  | nr
  | lte
  deriving DecidableEq, Repr

namespace Band

def all : List Band := [nr, lte]

def name : Band → String
  | nr => "nr"
  | lte => "lte"

def ofName? (s : String) : Option Band := all.find? (fun b => b.name = s)

end Band

/-- Populations whose share of healthy members is classified. -/
inductive Population where
  | fleet
  | nrCells
  | lteCells
  deriving DecidableEq, Repr

namespace Population

def all : List Population := [fleet, nrCells, lteCells]

def name : Population → String
  | fleet => "fleet"
  | nrCells => "nr_cells"
  | lteCells => "lte_cells"

def ofName? (s : String) : Option Population := all.find? (fun p => p.name = s)

def ofBand : Band → Population
  | .nr => nrCells
  | .lte => lteCells

def builtinRule : Population → Rule
  | fleet => .populationRatio 0.9 0.7
  | nrCells => .populationRatio 0.8 0.5
  | lteCells => .populationRatio 0.8 0.5

end Population

abbrev Table (κ α : Type) := κ → Option α

namespace Table

variable {κ α : Type} [DecidableEq κ]

def empty : Table κ α := fun _ => none

def set (t : Table κ α) (k : κ) (a : α) : Table κ α := fun j => if j = k then some a else t j

/-- The entries of the second table, and those of the first where it has none. -/
def override (t overrides : Table κ α) : Table κ α := fun k => (overrides k).or (t k)

def ofList (entries : List (κ × α)) : Table κ α := entries.foldl (fun t e => t.set e.1 e.2) empty

/-- The entries under the given keys, in their order. -/
def entries (keys : List κ) (t : Table κ α) : List (κ × α) :=
  keys.filterMap (fun k => (t k).map (fun a => (k, a)))

theorem set_self (t : Table κ α) (k : κ) (a : α) : t.set k a k = some a := by simp [set]

theorem set_of_ne (t : Table κ α) {j k : κ} (a : α) (h : j ≠ k) : t.set k a j = t j := by
  simp [set, h]

end Table

structure Thresholds where
  metrics : Table Metric Rule
  populations : Table Population Rule

namespace Thresholds

/- Percent, degrees Celsius, watts, megabits per second, decibels and milliseconds. -/
def builtinRule : Metric → Option Rule
  | .cpuLoad => some (.banded .lowerIsBetter 70.0 90.0)
  | .memoryLoad => some (.banded .lowerIsBetter 75.0 90.0)
  | .temperature => some (.banded .lowerIsBetter 65.0 80.0)
  | .powerDraw => some (.banded .lowerIsBetter 3500.0 5000.0)
  | .uptime => some (.banded .higherIsBetter 99.9 99.0)
  | .nrDownlink => some (.capacityRatio 1000.0 0.5 0.2)
  | .nrUplink => some (.capacityRatio 200.0 0.5 0.2)
  | .nrPower => some (.banded .higherIsBetter (-90.0) (-105.0))
  | .nrQuality => some (.banded .higherIsBetter 13.0 0.0)
  | .lteDownlink => some (.capacityRatio 150.0 0.5 0.2)
  | .lteUplink => some (.capacityRatio 50.0 0.5 0.2)
  | .latency => some (.banded .lowerIsBetter 20.0 50.0)
  | .txImbalance => some (.banded .lowerIsBetter 2.0 4.0)
  | .unknown => none

def builtin : Thresholds := ⟨builtinRule, fun p => some p.builtinRule⟩

/-- A table of just these metric rules; populations keep theirs. -/
def ofRules (metrics : Table Metric Rule) : Thresholds := { builtin with metrics }

def override (t : Thresholds) (metrics : Table Metric Rule) (populations : Table Population Rule) :
    Thresholds :=
  ⟨t.metrics.override metrics, t.populations.override populations⟩

def isCatalogued (t : Thresholds) (m : Metric) : Bool := (t.metrics m).isSome

def classify (t : Thresholds) (m : Metric) (value : Float) (share : Option Share) : Health :=
  match t.metrics m with
  | some rule => rule.classify value share
  | none => .critical

/- A rule of another shape than the population ratio sees the value 0 here. -/
def classifyPopulation (t : Thresholds) (p : Population) (share : Share) : Health :=
  ((t.populations p).getD p.builtinRule).classify 0.0 (some share)

end Thresholds
end FleetHealth
