import Mathlib.Tactic.Ring
import FleetHealth.Proofs.LastAnswers
/-!
How many ticks have run. Whatever order the ready ticks run in, the ticks of a kind through a moment
are those at the multiples of its period, each once; so the dashboard is made of the batches whose
numbers are the moment divided by their periods.
-/
namespace FleetHealth

namespace Timers

variable {plan : RefreshPlan} {t : Timers} {k : TickKind}

/-- Whichever tick is ready can be the one that runs. -/
theorem exists_place (ready : k ∈ t.ready) : ∃ place, t.pick place = k := by
  obtain ⟨place, bound, found⟩ := List.mem_iff_getElem.mp ready
  refine ⟨place, ?_⟩
  rw [pick, Nat.mod_eq_of_lt bound, List.getElem?_eq_getElem bound, Option.getD_some, found]

theorem due_advance_self (plan : RefreshPlan) (t : Timers) (k : TickKind) :
    (t.advance plan k).due k = t.due k + k.period plan := by
  cases k <;> rfl

theorem due_advance_of_ne (plan : RefreshPlan) (t : Timers) {j : TickKind} (different : j ≠ k) :
    (t.advance plan j).due k = t.due k := by
  cases j <;> cases k <;> first | rfl | exact absurd rfl different

theorem next_le_due (t : Timers) (k : TickKind) : t.next ≤ t.due k := by
  cases k <;> simp only [next, due] <;> omega

theorem next_le_next_advance (plan : RefreshPlan) (t : Timers) (k : TickKind) :
    t.next ≤ (t.advance plan k).next := by
  cases k <;> simp only [next, advance] <;> omega

end Timers

namespace TickKind

theorem period_pos {plan : RefreshPlan} (positive : plan.Positive) (k : TickKind) :
    0 < k.period plan := by
  obtain ⟨historical, live, stats⟩ := positive
  cases k with
  | historical => exact historical
  | live => exact live
  | stats => exact stats

end TickKind

section Ticks

variable {plan : RefreshPlan} {positive : plan.Positive} {choices : Nat → Nat} {horizon : Nat}

/-- The ticks of a kind come at its timer's next moment and then once per period. -/
theorem times_of_kind (made : Nat) (t : Timers) (k : TickKind) :
    ((ticksThrough plan positive choices horizon made t).filter (fun d => d.kind = k)).map Due.time =
      (List.range ((horizon + k.period plan - t.due k) / k.period plan)).map
        (fun i => t.due k + i * k.period plan) := by
  have period := TickKind.period_pos positive k
  induction made, t using ticksThrough.induct plan positive choices horizon with
  | case1 made t early ih =>
    rw [ticksThrough, dif_pos early, List.filter_cons]
    by_cases picked : t.pick (choices made) = k
    · have due : t.due k = t.next := picked ▸ t.due_pick (choices made)
      have one_more : (horizon + k.period plan - t.due k) / k.period plan =
          (horizon + k.period plan - (t.due k + k.period plan)) / k.period plan + 1 := by
        rw [← Nat.add_div_right _ period]
        congr 1
        omega
      rw [if_pos (decide_eq_true picked), List.map_cons, ih, picked, Timers.due_advance_self,
        one_more, List.range_succ_eq_map, List.map_cons, List.map_map, due, Nat.zero_mul, Nat.add_zero]
      congr 1
      apply List.map_congr_left
      intro i _
      simp only [Function.comp_apply, Nat.succ_eq_add_one]
      ring
    · rw [if_neg (by simpa using picked), ih, Timers.due_advance_of_ne plan t picked]
  | case2 made t late =>
    have due := t.next_le_due k
    have none_left : (horizon + k.period plan - t.due k) / k.period plan = 0 := by
      apply Nat.div_eq_of_lt
      omega
    rw [ticksThrough, dif_neg late, none_left]
    rfl

theorem next_le_time (made : Nat) (t : Timers) :
    ∀ d ∈ ticksThrough plan positive choices horizon made t, t.next ≤ d.time ∧ d.time ≤ horizon := by
  induction made, t using ticksThrough.induct plan positive choices horizon with
  | case1 made t early ih =>
    rw [ticksThrough, dif_pos early, List.forall_mem_cons]
    refine ⟨⟨Nat.le_refl _, early⟩, ?_⟩
    intro d member
    obtain ⟨after, through⟩ := ih d member
    exact ⟨Nat.le_trans (Timers.next_le_next_advance plan t _) after, through⟩
  | case2 made t late =>
    rw [ticksThrough, dif_neg late]
    intro d member
    cases member

theorem ticks_in_time (made : Nat) (t : Timers) :
    (ticksThrough plan positive choices horizon made t).Pairwise (fun d e => d.time ≤ e.time) := by
  induction made, t using ticksThrough.induct plan positive choices horizon with
  | case1 made t early ih =>
    rw [ticksThrough, dif_pos early, List.pairwise_cons]
    refine ⟨?_, ih⟩
    intro d member
    exact Nat.le_trans (Timers.next_le_next_advance plan t _) (next_le_time _ _ d member).1
  | case2 made t late =>
    rw [ticksThrough, dif_neg late]
    exact .nil

theorem times_from_start (k : TickKind) :
    ((ticksThrough plan positive choices horizon 0 .start).filter (fun d => d.kind = k)).map
        Due.time =
      (List.range (horizon / k.period plan + 1)).map (fun i => i * k.period plan) := by
  have start : Timers.start.due k = 0 := by cases k <;> rfl
  rw [times_of_kind, start, Nat.sub_zero, Nat.add_div_right _ (TickKind.period_pos positive k)]
  simp only [Nat.zero_add]

end Ticks

namespace Worker

section Numbered

variable {α : Type} {answer? : Tick → Option (List α)} {ticks : List Tick} {k : TickKind} {n : Nat}
  {t : Tick}

/-- Where the ticks of one kind are those that answer, the last of them gives the last answer. -/
theorem lastAnswer_numbered (answers : ∀ t, (answer? t).isSome = true ↔ t.kind = k)
    (count : (ticks.filter (fun t => t.kind = k)).length = n + 1)
    (numbered : (ticks.filter (fun t => t.kind = k))[n]? = some t) :
    answer? t = some (lastAnswer answer? ticks) := by
  have own : lastAnswer answer? ticks =
      lastAnswer answer? (ticks.filter (fun t => t.kind = k)) := by
    unfold lastAnswer
    rw [List.filterMap_filter]
    congr 3
    funext t
    by_cases kind : t.kind = k
    · rw [if_pos (decide_eq_true kind)]
    · rw [if_neg (by simpa using kind)]
      exact Option.not_isSome_iff_eq_none.mp (fun answered => kind ((answers t).mp answered))
  have last : (ticks.filter (fun t => t.kind = k)).getLast? = some t := by
    rw [List.getLast?_eq_getElem?, count, Nat.add_sub_cancel, numbered]
  obtain ⟨before, cut⟩ := List.getLast?_eq_some_iff.mp last
  have kind : t.kind = k :=
    of_decide_eq_true (List.mem_filter.mp (List.mem_of_getLast? last)).2
  obtain ⟨xs, answered⟩ := Option.isSome_iff_exists.mp ((answers t).mpr kind)
  rw [own, cut, lastAnswer_of_some answered, answered]

theorem isSome_historical?_iff (plan : RefreshPlan) (t : Tick) :
    (t.historical? plan).isSome = true ↔ t.kind = .historical := by
  unfold Tick.historical?
  cases t.kind <;> simp

theorem isSome_live?_iff (plan : RefreshPlan) (t : Tick) :
    (t.live? plan).isSome = true ↔ t.kind = .live := by
  unfold Tick.live?
  cases t.kind <;> simp

end Numbered

section Accounts

variable {plan : RefreshPlan} {positive : plan.Positive} {choices : Nat → Nat} {horizon : Nat}
  {ticks : List Tick}

theorem length_filter_kind (scheduled : ticks.map Tick.kind =
      (ticksThrough plan positive choices horizon 0 .start).map Due.kind) (k : TickKind) :
    (ticks.filter (fun t => t.kind = k)).length = horizon / k.period plan + 1 := by
  have times := congrArg List.length (@times_from_start plan positive choices horizon k)
  rw [List.length_map, List.length_map, List.length_range, ← List.countP_eq_length_filter] at times
  have same : (ticks.map Tick.kind).countP (fun j => j = k) =
      ((ticksThrough plan positive choices horizon 0 .start).map Due.kind).countP
        (fun j => j = k) := congrArg _ scheduled
  rw [List.countP_map, List.countP_map] at same
  rw [← List.countP_eq_length_filter, ← times]
  exact same

theorem exists_numbered (scheduled : ticks.map Tick.kind =
      (ticksThrough plan positive choices horizon 0 .start).map Due.kind) (k : TickKind) :
    ∃ t ∈ ticks, t.kind = k ∧
      (ticks.filter (fun t => t.kind = k))[horizon / k.period plan]? = some t := by
  have count := length_filter_kind scheduled k
  have numbered := List.getElem?_eq_getElem
    (l := ticks.filter (fun t => t.kind = k)) (i := horizon / k.period plan) (by omega)
  obtain ⟨member, kind⟩ := List.mem_filter.mp (List.mem_of_getElem? numbered)
  exact ⟨_, member, of_decide_eq_true kind, numbered⟩

/-- The ticks through a moment and the dashboard after them. The choices are those among ready
ticks; the ticks run with whatever their source answers and at whatever time their clock shows. -/
theorem ticks_accounted (plan : RefreshPlan) (positive : plan.Positive) (choices : Nat → Nat)
    (horizon : Nat) (c : Catalog) (t₀ : Instant) (ticks : List Tick)
    (scheduled : ticks.map Tick.kind =
      (ticksThrough plan positive choices horizon 0 .start).map Due.kind)
    (completed : Completed c plan ticks) :
    (ticksThrough plan positive choices horizon 0 .start).Pairwise (fun d e => d.time ≤ e.time) ∧
    (∀ k : TickKind, ((ticksThrough plan positive choices horizon 0 .start).filter
        (fun d => d.kind = k)).map Due.time =
      (List.range (horizon / k.period plan + 1)).map (fun i => i * k.period plan)) ∧
    (∀ (t : Timers) (k : TickKind), k ∈ t.ready → ∃ place, t.pick place = k) ∧
    ∃ w historical live longBatch shortBatch,
      run? c plan (.start t₀) ticks = some w ∧
      (ticks.filter (fun t => t.kind = .historical))[horizon / plan.historicalInterval]? =
        some historical ∧
      (ticks.filter (fun t => t.kind = .live))[horizon / plan.liveInterval]? = some live ∧
      historical.historical? plan = some longBatch ∧ live.live? plan = some shortBatch ∧
      w.batches = ⟨lastDirectory ticks, longBatch, shortBatch⟩ ∧
      ∀ now, { w.dashboard with generatedAt := now } =
        c.evaluate now (lastDirectory ticks) (Sample.merge longBatch shortBatch) := by
  refine ⟨ticks_in_time 0 .start, times_from_start, fun t k => Timers.exists_place, ?_⟩
  have longs := length_filter_kind scheduled .historical
  have shorts := length_filter_kind scheduled .live
  obtain ⟨historical, member, kind, long⟩ := exists_numbered scheduled .historical
  obtain ⟨live, _, _, short⟩ := exists_numbered scheduled .live
  obtain ⟨w, ran, reports⟩ : ∃ w, run? c plan (.start t₀) ticks = some w ∧
      Reports c plan t₀ ticks w := exists_run completed
  have reading : ∃ t ∈ ticks, t.kind ≠ .stats := ⟨historical, member, by rw [kind]; decide⟩
  exact ⟨w, historical, live, lastHistorical plan ticks, lastLive plan ticks, ran, long, short,
    lastAnswer_numbered (isSome_historical?_iff plan) longs long,
    lastAnswer_numbered (isSome_live?_iff plan) shorts short, reports.batches,
    dashboard_of_reading reports reading⟩

end Accounts

namespace TwoSeconds

def plan : RefreshPlan := ⟨2000, 60000, 10, 1000, 60000, 10, false, 3000⟩

def moment : Instant := ⟨5000, by decide⟩

def reading (id : Int64) (value : Float) : Sample := ⟨id, "bs-1", .cpuLoad, value, some moment, none⟩

def station : Station := ⟨"bs-1", "North", "Hill", .active⟩

def tick (kind : TickKind) (stations : Option (List Station)) (samples : Option (List Sample)) :
    Tick :=
  ⟨kind, moment, ⟨stations, fun _ _ _ => samples, fun _ _ => none⟩⟩

/- The second read of the directory fails, and so does the first of the short window. -/
def ticks : List Tick :=
  [tick .historical (some [station]) (some [reading 1 40.0]), tick .stats none none,
    tick .live none none, tick .live none (some [reading 2 50.0]),
    tick .historical none (some [reading 3 60.0]), tick .live none (some [reading 4 70.0])]

end TwoSeconds

open TwoSeconds in
/-- After two seconds the second batch of the long window and the third of the short one are
held. -/
theorem ticks_accounted_after_two_seconds :
    ∃ positive : plan.Positive,
      ticks.map Tick.kind = (ticksThrough plan positive id 2000 0 .start).map Due.kind ∧
      Completed .builtin plan ticks ∧
      ∃ w, run? .builtin plan (.start moment) ticks = some w ∧
        w.batches = ⟨[station], [reading 3 60.0], [reading 4 70.0]⟩ := by
  have positive : plan.Positive := by decide
  have due : (ticksThrough plan positive id 2000 0 .start).map Due.kind =
      [.historical, .stats, .live, .live, .historical, .live] := by decide +revert +kernel
  have scheduled :
      ticks.map Tick.kind = (ticksThrough plan positive id 2000 0 .start).map Due.kind := due.symm
  have runs : (run? .builtin plan (.start moment) ticks).isSome = true := by decide +kernel
  obtain ⟨_, ran⟩ := Option.isSome_iff_exists.mp runs
  obtain ⟨completed, _⟩ := completed_of_run ran
  obtain ⟨_, _, _, w, historical, live, longBatch, shortBatch, ran, long, short, read, read',
    batches, _⟩ := ticks_accounted plan positive id 2000 .builtin moment ticks scheduled completed
  obtain rfl := Option.some.inj long
  obtain rfl := Option.some.inj short
  obtain rfl := Option.some.inj read
  obtain rfl := Option.some.inj read'
  exact ⟨positive, scheduled, completed, w, ran, batches⟩

end Worker
end FleetHealth
