import FleetHealth.Text.Quoted
/-!
The metrics base stations report and the two ways their names are read: exactly as written, or
folded (blanks and ASCII case disregarded). Any other name is the metric unknown.
-/
namespace FleetHealth

inductive Metric where
  | cpuLoad
  | memoryLoad
  | temperature
  | powerDraw
  | uptime
  | nrDownlink
  | nrUplink
  | nrPower
  | nrQuality
  | lteDownlink
  | lteUplink
  | latency
  | txImbalance
  | unknown
  deriving DecidableEq, Repr, Inhabited

namespace Metric

/-- The metrics with a name of their own, in their order. -/
def known : List Metric :=
  [cpuLoad, memoryLoad, temperature, powerDraw, uptime, nrDownlink, nrUplink, nrPower, nrQuality,
    lteDownlink, lteUplink, latency, txImbalance]

def all : List Metric := known ++ [unknown]

def rank : Metric → Nat
  | cpuLoad => 0
  | memoryLoad => 1
  | temperature => 2
  | powerDraw => 3
  | uptime => 4
  | nrDownlink => 5
  | nrUplink => 6
  | nrPower => 7
  | nrQuality => 8
  | lteDownlink => 9
  | lteUplink => 10
  | latency => 11
  | txImbalance => 12
  | unknown => 13

instance : Ord Metric := ⟨fun a b => compare a.rank b.rank⟩

def name : Metric → String
  | cpuLoad => "cpu_load"
  | memoryLoad => "memory_load"
  | temperature => "temperature"
  | powerDraw => "power_draw"
  | uptime => "uptime"
  | nrDownlink => "nr_dl_throughput"
  | nrUplink => "nr_ul_throughput"
  | nrPower => "nr_rsrp"
  | nrQuality => "nr_sinr"
  | lteDownlink => "lte_dl_throughput"
  | lteUplink => "lte_ul_throughput"
  | latency => "latency"
  | txImbalance => "tx_imbalance"
  | unknown => "unknown"

theorem mem_all (m : Metric) : m ∈ all := by cases m <;> decide

theorem mem_known_iff (m : Metric) : m ∈ known ↔ m ≠ unknown := by cases m <;> decide

theorem rank_injective {a b : Metric} (h : a.rank = b.rank) : a = b := by
  cases a <;> cases b <;> first | rfl | simp [rank] at h

theorem name_injective {a b : Metric} (h : a.name = b.name) : a = b := by
  cases a <;> cases b <;> first | rfl | exact absurd h (by decide)

instance : Std.TransOrd Metric where
  eq_swap := Std.OrientedOrd.eq_swap (α := Nat)
  isLE_trans := Std.TransOrd.isLE_trans (α := Nat)

instance : Std.LawfulEqOrd Metric where
  compare_self := Std.ReflOrd.compare_self (α := Nat)
  eq_of_compare h := rank_injective (Std.LawfulEqOrd.eq_of_compare (α := Nat) h)

end Metric

structure UnknownMetric where
  text : String
  deriving DecidableEq, Repr

def UnknownMetric.message (e : UnknownMetric) : String :=
  "unknown metric type: " ++ Text.quoted e.text

namespace Metric

/-- Reads a folded name; only known metrics have one. -/
def parse (s : String) : Except UnknownMetric Metric :=
  match known.find? (fun m => m.name = Text.fold s) with
  | some m => .ok m
  | none => .error ⟨s⟩

/-- Reads a folded name, for which unknown stands in. -/
def ofText (s : String) : Metric :=
  match parse s with
  | .ok m => m
  | .error _ => unknown

/-- Reads a name exactly as written. -/
def ofName (s : String) : Metric := (known.find? (fun m => m.name = s)).getD unknown

theorem ofText_name (m : Metric) : ofText m.name = m := by cases m <;> decide +kernel

theorem ofName_name (m : Metric) : ofName m.name = m := by cases m <;> decide

end Metric
end FleetHealth
