import FleetHealth.Schedule
/-!
The refresh worker. A historical tick re-reads the directory, the long window and, if the plan says
so, the daily averages, and publishes trends and dashboard; a live tick re-reads the short window
and publishes the dashboard. A window or day that cannot be represented ends the worker.
-/
namespace FleetHealth

/-- What the worker holds and what it published last. -/
structure Worker where
  batches : Batches
  dashboard : Dashboard
  trends : Trends
  deriving DecidableEq, Repr

namespace Worker

def start (now : Instant) : Worker := ⟨.empty, .empty now, .empty now⟩

def historicalTick? (c : Catalog) (plan : RefreshPlan) (w : Worker) (source : Source)
    (now : Instant) : Option Worker := do
  let batches ← w.batches.refreshHistorical? source plan now
  let trends ← batches.trends? source c plan now
  return ⟨batches, batches.dashboard c now, trends⟩

def liveTick? (c : Catalog) (plan : RefreshPlan) (w : Worker) (source : Source) (now : Instant) :
    Option Worker := do
  let batches ← w.batches.refreshLive? source plan now
  return { w with batches, dashboard := batches.dashboard c now }

/-- A tick with its moment and the source as it answers then. -/
structure Tick where
  kind : TickKind
  now : Instant
  source : Source

def tick? (c : Catalog) (plan : RefreshPlan) (w : Worker) (t : Tick) : Option Worker :=
  match t.kind with
  | .historical => w.historicalTick? c plan t.source t.now
  | .live => w.liveTick? c plan t.source t.now
  | .stats => some w

def run? (c : Catalog) (plan : RefreshPlan) (w : Worker) (ticks : List Tick) : Option Worker :=
  ticks.foldlM (tick? c plan) w

end Worker

structure Reads where
  stations : Nat
  historical : Nat
  live : Nat
  days : Nat
  deriving DecidableEq, Repr

namespace Reads

def none : Reads := ⟨0, 0, 0, 0⟩

/- A window that cannot be represented is noticed before its read. -/
def after (plan : RefreshPlan) (now : Instant) (r : Reads) : TickKind → Reads
  | .historical =>
    if (Window.endingAt? now plan.historicalWindow).isSome then
      ⟨r.stations + 1, r.historical + 1, r.live,
        if plan.useDailyAverages then r.days + 1 else r.days⟩
    else { r with stations := r.stations + 1 }
  | .live =>
    if (Window.endingAt? now plan.liveWindow).isSome then { r with live := r.live + 1 } else r
  | .stats => r

end Reads

/-- Prepared answers to the successive reads of each kind; the last one repeats, and without any
the answer is an empty list. -/
structure Script where
  stations : List (Option (List Station))
  historical : List (Option (List Sample))
  live : List (Option (List Sample))
  days : List (Option (List DayAverages))

namespace Script

def answer {α : Type} (answers : List (Option (List α))) (n : Nat) : Option (List α) :=
  (answers[min n (answers.length - 1)]?).getD (some [])

def source (s : Script) (r : Reads) : Source where
  stations := answer s.stations r.stations
  samples _ _ order :=
    match order with
    | .ascending => answer s.historical r.historical
    | .descending => answer s.live r.live
  days _ _ := answer s.days r.days

end Script

/-- A worker on a prepared source. Once it has ended, what it published stays. -/
structure Rehearsal where
  worker : Worker
  reads : Reads
  ended : Bool

namespace Rehearsal

def start (now : Instant) : Rehearsal := ⟨.start now, .none, false⟩

def tick (c : Catalog) (plan : RefreshPlan) (s : Script) (now : Instant) (r : Rehearsal)
    (kind : TickKind) : Rehearsal :=
  if r.ended then r
  else
    let reads := r.reads.after plan now kind
    match r.worker.tick? c plan ⟨kind, now, s.source r.reads⟩ with
    | some worker => ⟨worker, reads, false⟩
    | none => { r with reads, ended := true }

/-- Runs the ticks due after one moment and up to another, historical ticks first. -/
def runThrough (c : Catalog) (plan : RefreshPlan) (positive : plan.Positive) (s : Script)
    (now : Instant) (r : Rehearsal) (after : Option Nat) (horizon : Nat) : Rehearsal :=
  let ticks := ticksThrough plan positive (fun _ => 0) horizon 0 .start
  let ticks := ticks.filter (fun d => match after with | some n => n < d.time | none => true)
  ticks.foldl (fun r d => r.tick c plan s now d.kind) r

end Rehearsal
end FleetHealth
