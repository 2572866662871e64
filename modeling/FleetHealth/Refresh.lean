import FleetHealth.Dashboard
import FleetHealth.Store
/-!
The batches a refresh keeps. A historical refresh re-reads the directory and the long window, a
live refresh the short one; a failed read of samples leaves an empty batch, a failed read of the
directory leaves the one before.
-/
namespace FleetHealth

/-- Timing and sizes of refreshes; times in milliseconds. -/
structure RefreshPlan where
  historicalInterval : Nat
  historicalWindow : Nat
  historicalLimit : UInt32
  liveInterval : Nat
  liveWindow : Nat
  liveLimit : UInt32
  useDailyAverages : Bool
  statsInterval : Nat
  deriving DecidableEq, Repr

/-- The answers a source gives to reads; none is a failed read. -/
structure Source where
  stations : Option (List Station)
  samples : Window → UInt32 → SortOrder → Option (List Sample)
  days : Window → Offset → Option (List DayAverages)

def Store.source (store : Store) : Source where
  stations := some store.listStations
  samples w limit order := (store.readSamples w limit order).toOption
  days w offset := (store.dailyAverages w offset).toOption

structure Batches where
  stations : List Station
  historical : List Sample
  live : List Sample
  deriving DecidableEq, Repr

namespace Batches

def empty : Batches := ⟨[], [], []⟩

/- None where a window leaves the representable moments. -/
def refreshHistorical? (b : Batches) (source : Source) (plan : RefreshPlan) (now : Instant) :
    Option Batches :=
  (Window.endingAt? now plan.historicalWindow).map (fun w =>
    { b with
      stations := source.stations.getD b.stations
      historical := (source.samples w plan.historicalLimit .ascending).getD [] })

/- Newest first, so that the limit keeps the latest samples. -/
def refreshLive? (b : Batches) (source : Source) (plan : RefreshPlan) (now : Instant) :
    Option Batches :=
  (Window.endingAt? now plan.liveWindow).map (fun w =>
    { b with live := (source.samples w plan.liveLimit .descending).getD [] })

def merged (b : Batches) : List Sample := Sample.merge b.historical b.live

def dashboard (b : Batches) (c : Catalog) (now : Instant) : Dashboard :=
  c.evaluate now b.stations b.merged

def bucketed? (b : Batches) (c : Catalog) (now : Instant) : Option Trends :=
  (bucketByDay? c.conversions c.offset b.merged).map (fun points => ⟨now, .bucketed, points⟩)

/-- Trends from the source's daily averages where the plan asks for them and the read succeeds,
otherwise from the merged batches; none where a window or a day cannot be represented. -/
def trends? (b : Batches) (source : Source) (c : Catalog) (plan : RefreshPlan) (now : Instant) :
    Option Trends :=
  if plan.useDailyAverages then
    (Window.endingAt? now plan.historicalWindow).bind (fun w =>
      match source.days w c.offset with
      | some days => some ⟨now, .preAggregated, flattenDays c.conversions days⟩
      | none => b.bucketed? c now)
  else b.bucketed? c now

end Batches
end FleetHealth
