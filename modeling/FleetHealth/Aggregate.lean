import Std.Data.TreeMap
import FleetHealth.Catalog
import FleetHealth.Sample
/-!
Statistics of a metric over one batch of samples, per station or fleet-wide, in a single pass.
-/
namespace FleetHealth

/-- What an aggregate is about: one metric of one station, or of the fleet. -/
structure AggregateKey where
  stationId : Option String
  metric : Metric
  deriving DecidableEq, Repr

namespace AggregateKey

/-- The fleet before the stations, stations by id, metrics in their order. -/
instance : Ord AggregateKey := ⟨compareLex (compareOn stationId) (compareOn metric)⟩

instance : Std.TransOrd AggregateKey :=
  inferInstanceAs (Std.TransCmp (compareLex (compareOn stationId) (compareOn metric)))

instance : Std.LawfulEqOrd AggregateKey where
  compare_self {a} := by
    show compareLex (compareOn stationId) (compareOn metric) a a = .eq
    simp [compareLex, compareOn]
  eq_of_compare {a b} h := by
    have h : compareLex (compareOn stationId) (compareOn metric) a b = .eq := h
    rw [compareLex_eq_eq] at h
    obtain ⟨h, h'⟩ := h
    cases a; cases b
    simp only [mk.injEq]
    exact ⟨Std.LawfulEqOrd.eq_of_compare h, Std.LawfulEqOrd.eq_of_compare h'⟩

end AggregateKey

inductive Grouping where
  | station
  | fleet
  deriving DecidableEq, Repr

def Grouping.key (g : Grouping) (s : Sample) : AggregateKey :=
  match g with
  | station => ⟨some s.stationId, s.metric⟩
  | fleet => ⟨none, s.metric⟩

/-- Running statistics of at least one sample. -/
structure Tally where
  sum : Float
  count : Nat
  least : Float
  greatest : Float
  current : Float
  currentTimestamp : Option Instant
  deriving DecidableEq, Repr

/-- A timestamp later than the one at hand; having one at all is later than having none. -/
def isNewer : Option Instant → Option Instant → Bool
  | some t, some best => best < t
  | some _, none => true
  | none, _ => false

namespace Tally

def first (s : Sample) : Tally := ⟨s.value, 1, s.value, s.value, s.value, s.timestamp⟩

/- The current value stays with the first of several samples of the same time. -/
def add (t : Tally) (s : Sample) : Tally where
  sum := t.sum + s.value
  count := t.count + 1
  least := if s.value < t.least then s.value else t.least
  greatest := if s.value > t.greatest then s.value else t.greatest
  current := if isNewer s.timestamp t.currentTimestamp then s.value else t.current
  currentTimestamp :=
    if isNewer s.timestamp t.currentTimestamp then s.timestamp else t.currentTimestamp

def extend (t : Option Tally) (s : Sample) : Option Tally :=
  match t with
  | none => some (first s)
  | some t => some (t.add s)

end Tally

structure Aggregate where
  stationId : Option String
  metric : Metric
  sum : Float
  count : Nat
  least : Float
  greatest : Float
  average : Float
  current : Float
  currentTimestamp : Option Instant
  deriving DecidableEq, Repr

def Aggregate.key (a : Aggregate) : AggregateKey := ⟨a.stationId, a.metric⟩

def Tally.finish (key : AggregateKey) (t : Tally) : Aggregate where
  stationId := key.stationId
  metric := key.metric
  sum := t.sum
  count := t.count
  least := t.least
  greatest := t.greatest
  average := t.sum / t.count.toFloat
  current := t.current
  currentTimestamp := t.currentTimestamp

abbrev Tallies := Std.TreeMap AggregateKey Tally

abbrev Aggregates := Std.TreeMap AggregateKey Aggregate

/- Samples of metrics without a rule are left out. -/
def Tallies.add (thresholds : Thresholds) (grouping : Grouping) (ts : Tallies) (s : Sample) :
    Tallies :=
  if thresholds.isCatalogued s.metric then ts.alter (grouping.key s) (fun t => Tally.extend t s)
  else ts

def aggregate (thresholds : Thresholds) (grouping : Grouping) (samples : List Sample) :
    Aggregates :=
  (samples.foldl (Tallies.add thresholds grouping) ∅).map Tally.finish

end FleetHealth
