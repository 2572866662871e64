import FleetHealth.Refresh
/-!
When the ticks of a worker fall due. Every timer fires at once and then once per period. Reads
take no time, so a tick runs at the moment it is due; of several ticks due at the same moment any
may run first.
-/
namespace FleetHealth

inductive TickKind where
  | historical
  | live
  | stats
  deriving DecidableEq, Repr

namespace TickKind

def all : List TickKind := [historical, live, stats]

def period (plan : RefreshPlan) : TickKind → Nat
  | historical => plan.historicalInterval
  | live => plan.liveInterval
  | stats => plan.statsInterval

end TickKind

namespace RefreshPlan

def Positive (plan : RefreshPlan) : Prop :=
  0 < plan.historicalInterval ∧ 0 < plan.liveInterval ∧ 0 < plan.statsInterval

instance (plan : RefreshPlan) : Decidable plan.Positive := by unfold Positive; infer_instance

end RefreshPlan

structure Timers where
  historical : Nat
  live : Nat
  stats : Nat
  deriving DecidableEq, Repr

namespace Timers

def start : Timers := ⟨0, 0, 0⟩

def due (t : Timers) : TickKind → Nat
  | .historical => t.historical
  | .live => t.live
  | .stats => t.stats

def advance (plan : RefreshPlan) (t : Timers) : TickKind → Timers
  | .historical => { t with historical := t.historical + plan.historicalInterval }
  | .live => { t with live := t.live + plan.liveInterval }
  | .stats => { t with stats := t.stats + plan.statsInterval }

def next (t : Timers) : Nat := min t.historical (min t.live t.stats)

def ready (t : Timers) : List TickKind := TickKind.all.filter (fun k => t.due k = t.next)

/-- One of the ready ticks, by its place among them counted around. -/
def pick (t : Timers) (place : Nat) : TickKind :=
  (t.ready[place % t.ready.length]?).getD .historical

theorem ready_ne_nil (t : Timers) : t.ready ≠ [] := by
  have h : t.historical = t.next ∨ t.live = t.next ∨ t.stats = t.next := by
    simp only [next]; omega
  intro none
  rcases h with h | h | h
  · have : TickKind.historical ∈ t.ready := by simp [ready, TickKind.all, due, h]
    simp [none] at this
  · have : TickKind.live ∈ t.ready := by simp [ready, TickKind.all, due, h]
    simp [none] at this
  · have : TickKind.stats ∈ t.ready := by simp [ready, TickKind.all, due, h]
    simp [none] at this

theorem pick_mem_ready (t : Timers) (place : Nat) : t.pick place ∈ t.ready := by
  have positive : 0 < t.ready.length := List.length_pos_iff.mpr t.ready_ne_nil
  have bound : place % t.ready.length < t.ready.length := Nat.mod_lt _ positive
  simp [pick, List.getElem?_eq_getElem bound]

theorem due_pick (t : Timers) (place : Nat) : t.due (t.pick place) = t.next := by
  have h := t.pick_mem_ready place
  simpa [ready] using (List.mem_filter.mp h).2

/- How far the timers are from having passed the moment. -/
def remaining (t : Timers) (horizon : Nat) : Nat :=
  (horizon + 1 - t.historical) + (horizon + 1 - t.live) + (horizon + 1 - t.stats)

theorem remaining_advance_lt (plan : RefreshPlan) (positive : plan.Positive) (t : Timers)
    (place horizon : Nat) (early : t.next ≤ horizon) :
    (t.advance plan (t.pick place)).remaining horizon < t.remaining horizon := by
  have h := t.due_pick place
  obtain ⟨ph, pl, ps⟩ := positive
  cases k : t.pick place <;> simp only [k, due] at h <;> simp only [advance, remaining] <;> omega

end Timers

structure Due where
  time : Nat
  kind : TickKind
  deriving DecidableEq, Repr

/-- The ticks up to and including a moment, in the order a scheduler runs them; the scheduler is
given by the places of its choices, of which so many have been made. -/
def ticksThrough (plan : RefreshPlan) (positive : plan.Positive) (choices : Nat → Nat)
    (horizon made : Nat) (t : Timers) : List Due :=
  if early : t.next ≤ horizon then
    ⟨t.next, t.pick (choices made)⟩ ::
      ticksThrough plan positive choices horizon (made + 1) (t.advance plan (t.pick (choices made)))
  else []
termination_by t.remaining horizon
decreasing_by exact Timers.remaining_advance_lt plan positive t _ _ early

end FleetHealth
