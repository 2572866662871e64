import Std.Data.TreeMap
import FleetHealth.Catalog
import FleetHealth.Sample
/-!
Daily trends: one average per calendar day and metric, ascending by day and then by metric. They
come from bucketing samples or from averages a source has computed.
-/
namespace FleetHealth

/-- The average of one metric over one day, after conversion. -/
structure TrendPoint where
  date : Date
  metric : Metric
  average : Float
  deriving DecidableEq, Repr

/-- One day's averages before conversion. -/
structure DayAverages where
  date : Date
  averages : Table Metric Float

inductive TrendSource where
  | bucketed
  | preAggregated
  deriving DecidableEq, Repr

namespace TrendSource

def all : List TrendSource := [bucketed, preAggregated]

def name : TrendSource → String
  | bucketed => "bucketed"
  | preAggregated => "pre_aggregated"

def ofName? (s : String) : Option TrendSource := all.find? (fun t => t.name = s)

end TrendSource

structure Trends where
  generatedAt : Instant
  source : TrendSource
  points : List TrendPoint
  deriving DecidableEq, Repr

namespace Trends

def empty (generatedAt : Instant) : Trends := ⟨generatedAt, .bucketed, []⟩

def series (t : Trends) (m : Metric) : List TrendPoint := t.points.filter (fun p => p.metric = m)

end Trends

/-- A day and a metric, ordered by day first. -/
structure BucketKey where
  date : Date
  metric : Metric
  deriving DecidableEq, Repr

namespace BucketKey

instance : Ord BucketKey := ⟨compareLex (compareOn date) (compareOn metric)⟩

instance : Std.TransOrd BucketKey :=
  inferInstanceAs (Std.TransCmp (compareLex (compareOn date) (compareOn metric)))

instance : Std.LawfulEqOrd BucketKey where
  compare_self {a} := by
    show compareLex (compareOn date) (compareOn metric) a a = .eq
    simp [compareLex, compareOn]
  eq_of_compare {a b} h := by
    have h : compareLex (compareOn date) (compareOn metric) a b = .eq := h
    rw [compareLex_eq_eq] at h
    obtain ⟨h, h'⟩ := h
    cases a; cases b
    simp only [mk.injEq]
    exact ⟨Std.LawfulEqOrd.eq_of_compare h, Std.LawfulEqOrd.eq_of_compare h'⟩

end BucketKey

def TrendPoint.key (p : TrendPoint) : BucketKey := ⟨p.date, p.metric⟩

structure Bucket where
  sum : Float
  count : Nat
  deriving DecidableEq, Repr

namespace Bucket

def empty : Bucket := ⟨0.0, 0⟩

def add (b : Bucket) (value : Float) : Bucket := ⟨b.sum + value, b.count + 1⟩

def average (b : Bucket) : Float := b.sum / b.count.toFloat

end Bucket

abbrev Buckets := Std.TreeMap BucketKey Bucket

/- Samples without a timestamp or of an unknown metric are left out; a day that cannot be
   represented ends the whole bucketing. -/
def Buckets.add? (offset : Offset) (buckets : Buckets) (s : Sample) : Option Buckets :=
  match s.timestamp with
  | none => some buckets
  | some t =>
    if s.metric = .unknown then some buckets
    else
      (t.localDate? offset).map (fun date =>
        buckets.alter ⟨date, s.metric⟩ (fun b => some ((b.getD .empty).add s.value)))

/-- Averages per day at the offset and metric; none if some day cannot be represented. -/
def bucketByDay? (conversions : Conversions) (offset : Offset) (samples : List Sample) :
    Option (List TrendPoint) :=
  (samples.foldlM (Buckets.add? offset) ∅).map (fun buckets =>
    buckets.toList.map (fun e =>
      ⟨e.1.date, e.1.metric, conversions.apply e.1.metric e.2.average⟩))

def DayAverages.points (conversions : Conversions) (day : DayAverages) : List TrendPoint :=
  (day.averages.entries Metric.known).map (fun e => ⟨day.date, e.1, conversions.apply e.1 e.2⟩)

/- Days may come in any order; points of equal keys keep theirs. -/
def flattenDays (conversions : Conversions) (days : List DayAverages) : List TrendPoint :=
  (days.flatMap (DayAverages.points conversions)).mergeSort
    (fun a b => (compare a.key b.key).isLE)

/-- The points grouped by metric, metrics in order, each group in the points' order. -/
def seriesByMetric (points : List TrendPoint) : List (Metric × List TrendPoint) :=
  (points.foldl (fun (groups : Std.TreeMap Metric (List TrendPoint)) p =>
      groups.alter p.metric (fun g => some (g.getD [] ++ [p]))) ∅).toList

end FleetHealth
