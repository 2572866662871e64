import Mathlib.Data.List.DropRight
import Mathlib.Data.List.Induction
import FleetHealth.Worker
import FleetHealth.Proofs.Buckets
import FleetHealth.Proofs.Windows
/-!
A run of the worker by what its source answered last. The directory is that of the last read of it
that succeeded; a batch is that of the last tick that read it, empty if that read failed; the trends
are those of the last historical tick and the batches as they stood then.
-/
namespace FleetHealth.Worker

namespace Tick

/-- The directory the tick reads, if it reads it and the read succeeds. -/
def directory? (t : Tick) : Option (List Station) :=
  match t.kind with
  | .historical => t.source.stations
  | .live => none
  | .stats => none

/-- The batch of the long window, if the tick reads it; empty where the read fails. -/
def historical? (plan : RefreshPlan) (t : Tick) : Option (List Sample) :=
  match t.kind with
  | .historical =>
    some (((Window.endingAt? t.now plan.historicalWindow).bind (fun w =>
      t.source.samples w plan.historicalLimit .ascending)).getD [])
  | .live => none
  | .stats => none

/-- The batch of the short window, if the tick reads it; empty where the read fails. -/
def live? (plan : RefreshPlan) (t : Tick) : Option (List Sample) :=
  match t.kind with
  | .historical => none
  | .live =>
    some (((Window.endingAt? t.now plan.liveWindow).bind (fun w =>
      t.source.samples w plan.liveLimit .descending)).getD [])
  | .stats => none

/-- The daily averages, if the plan asks for them and the read succeeds. -/
def days? (c : Catalog) (plan : RefreshPlan) (t : Tick) : Option (List DayAverages) :=
  if plan.useDailyAverages then
    (Window.endingAt? t.now plan.historicalWindow).bind (fun w => t.source.days w c.offset)
  else none

end Tick

/-- The last answer of a kind; empty before the first. -/
def lastAnswer {α : Type} (answer? : Tick → Option (List α)) (ticks : List Tick) : List α :=
  (ticks.filterMap answer?).getLast?.getD []

def lastDirectory (ticks : List Tick) : List Station := lastAnswer Tick.directory? ticks

def lastHistorical (plan : RefreshPlan) (ticks : List Tick) : List Sample :=
  lastAnswer (Tick.historical? plan) ticks

def lastLive (plan : RefreshPlan) (ticks : List Tick) : List Sample :=
  lastAnswer (Tick.live? plan) ticks

def lastMerged (plan : RefreshPlan) (ticks : List Tick) : List Sample :=
  Sample.merge (lastHistorical plan ticks) (lastLive plan ticks)

/-- The dashboard of the last answers, published by the last tick that reads. -/
def lastDashboard (c : Catalog) (plan : RefreshPlan) (t₀ : Instant) (ticks : List Tick) :
    Dashboard :=
  match (ticks.filter (fun t => t.kind ≠ .stats)).getLast? with
  | none => .empty t₀
  | some t => c.evaluate t.now (lastDirectory ticks) (lastMerged plan ticks)

/-- The trends of a historical tick that ends a run. -/
def trendsAfter? (c : Catalog) (plan : RefreshPlan) (ticks : List Tick) (t : Tick) :
    Option Trends :=
  match t.days? c plan with
  | some days => some ⟨t.now, .preAggregated, flattenDays c.conversions days⟩
  | none =>
    (bucketByDay? c.conversions c.offset (lastMerged plan ticks)).map (fun points =>
      ⟨t.now, .bucketed, points⟩)

/-- The run cut after its last historical tick. -/
def throughHistorical (ticks : List Tick) : List Tick :=
  ticks.rdropWhile (fun t => t.kind ≠ .historical)

def lastTrends? (c : Catalog) (plan : RefreshPlan) (t₀ : Instant) (ticks : List Tick) :
    Option Trends :=
  match (throughHistorical ticks).getLast? with
  | none => some (.empty t₀)
  | some t => trendsAfter? c plan (throughHistorical ticks) t

/-- The windows of the tick and, where it buckets, the days can be represented. -/
def Tick.Completes (c : Catalog) (plan : RefreshPlan) (before : List Tick) (t : Tick) : Prop :=
  match t.kind with
  | .historical =>
    (Window.endingAt? t.now plan.historicalWindow).isSome = true ∧
      (t.days? c plan = none → ∀ s ∈ lastMerged plan (before ++ [t]), s.Datable c.offset)
  | .live => (Window.endingAt? t.now plan.liveWindow).isSome = true
  | .stats => True

def Completed (c : Catalog) (plan : RefreshPlan) (ticks : List Tick) : Prop :=
  ∀ before t, before ++ [t] <+: ticks → t.Completes c plan before

/-- The worker holds the last answers and shows what follows from them. -/
structure Reports (c : Catalog) (plan : RefreshPlan) (t₀ : Instant) (ticks : List Tick)
    (w : Worker) : Prop where
  batches : w.batches = ⟨lastDirectory ticks, lastHistorical plan ticks, lastLive plan ticks⟩
  dashboard : w.dashboard = lastDashboard c plan t₀ ticks
  trends : lastTrends? c plan t₀ ticks = some w.trends

section Answers

variable {α : Type} {answer? : Tick → Option (List α)} {ticks : List Tick} {t : Tick}

theorem lastAnswer_of_some {xs : List α} (answered : answer? t = some xs) :
    lastAnswer answer? (ticks ++ [t]) = xs := by
  rw [lastAnswer, List.filterMap_append, List.filterMap_cons_some answered, List.filterMap_nil,
    List.getLast?_append]
  rfl

theorem lastAnswer_of_none (silent : answer? t = none) :
    lastAnswer answer? (ticks ++ [t]) = lastAnswer answer? ticks := by
  rw [lastAnswer, List.filterMap_append, List.filterMap_cons_none silent, List.filterMap_nil,
    List.append_nil, lastAnswer]

theorem throughHistorical_of_historical (kind : t.kind = .historical) :
    throughHistorical (ticks ++ [t]) = ticks ++ [t] := by
  apply List.rdropWhile_concat_neg
  simp [kind]

theorem throughHistorical_of_other (kind : t.kind ≠ .historical) :
    throughHistorical (ticks ++ [t]) = throughHistorical ticks := by
  apply List.rdropWhile_concat_pos
  simp [kind]

end Answers

section Ticks

variable {c : Catalog} {plan : RefreshPlan} {t₀ : Instant} {ticks : List Tick} {t : Tick}
  {w w' : Worker}

theorem reports_unique (first : Reports c plan t₀ ticks w) (second : Reports c plan t₀ ticks w') :
    w = w' := by
  obtain ⟨batches, dashboard, trends⟩ := first
  obtain ⟨batches', dashboard', trends'⟩ := second
  have same : w.trends = w'.trends := Option.some.inj (trends.symm.trans trends')
  obtain ⟨b, d, r⟩ := w
  obtain ⟨b', d', r'⟩ := w'
  exact (mk.injEq ..).mpr ⟨batches.trans batches'.symm, dashboard.trans dashboard'.symm, same⟩

theorem reports_start (c : Catalog) (plan : RefreshPlan) (t₀ : Instant) :
    Reports c plan t₀ [] (.start t₀) := ⟨rfl, rfl, rfl⟩

theorem lastDashboard_of_reading (reading : t.kind ≠ .stats) :
    lastDashboard c plan t₀ (ticks ++ [t]) =
      c.evaluate t.now (lastDirectory (ticks ++ [t])) (lastMerged plan (ticks ++ [t])) := by
  have last : ((ticks ++ [t]).filter (fun t => t.kind ≠ .stats)).getLast? = some t := by
    simp [reading]
  rw [lastDashboard, last]

theorem reports_of_stats (reports : Reports c plan t₀ ticks w) (kind : t.kind = .stats) :
    Reports c plan t₀ (ticks ++ [t]) w := by
  have directory : lastDirectory (ticks ++ [t]) = lastDirectory ticks :=
    lastAnswer_of_none (by simp [Tick.directory?, kind])
  have historical : lastHistorical plan (ticks ++ [t]) = lastHistorical plan ticks :=
    lastAnswer_of_none (by simp [Tick.historical?, kind])
  have live : lastLive plan (ticks ++ [t]) = lastLive plan ticks :=
    lastAnswer_of_none (by simp [Tick.live?, kind])
  refine ⟨?_, ?_, ?_⟩
  · rw [directory, historical, live]
    exact reports.batches
  · have readers : (ticks ++ [t]).filter (fun t => t.kind ≠ .stats) =
        ticks.filter (fun t => t.kind ≠ .stats) := by
      simp [kind]
    rw [lastDashboard, readers, directory, lastMerged, historical, live]
    exact reports.dashboard
  · rw [lastTrends?, throughHistorical_of_other (by simp [kind])]
    exact reports.trends

/-- A live tick brings the live batch and a dashboard; directory, historical batch and trends stay. -/
theorem reports_of_live (reports : Reports c plan t₀ ticks w) (kind : t.kind = .live) {v : Window}
    (window : Window.endingAt? t.now plan.liveWindow = some v) :
    ∃ w', tick? c plan w t = some w' ∧ Reports c plan t₀ (ticks ++ [t]) w' := by
  have directory : lastDirectory (ticks ++ [t]) = w.batches.stations := by
    rw [reports.batches]
    exact lastAnswer_of_none (by simp [Tick.directory?, kind])
  have historical : lastHistorical plan (ticks ++ [t]) = w.batches.historical := by
    rw [reports.batches]
    exact lastAnswer_of_none (by simp [Tick.historical?, kind])
  have live : lastLive plan (ticks ++ [t]) =
      (t.source.samples v plan.liveLimit .descending).getD [] :=
    lastAnswer_of_some (by simp [Tick.live?, kind, window])
  refine ⟨⟨⟨lastDirectory (ticks ++ [t]), lastHistorical plan (ticks ++ [t]),
    lastLive plan (ticks ++ [t])⟩, lastDashboard c plan t₀ (ticks ++ [t]), w.trends⟩, ?_,
    ⟨rfl, rfl, ?_⟩⟩
  · rw [lastDashboard_of_reading (by simp [kind]), lastMerged, directory, historical, live]
    simp only [tick?, kind, liveTick?, Batches.refreshLive?, window, Option.map_some,
      Option.bind_eq_bind, Option.bind_some]
    rfl
  · rw [lastTrends?, throughHistorical_of_other (by simp [kind])]
    exact reports.trends

theorem refreshHistorical?_eq (reports : Reports c plan t₀ ticks w) (kind : t.kind = .historical)
    {v : Window} (window : Window.endingAt? t.now plan.historicalWindow = some v) :
    w.batches.refreshHistorical? t.source plan t.now = some ⟨lastDirectory (ticks ++ [t]),
      lastHistorical plan (ticks ++ [t]), lastLive plan (ticks ++ [t])⟩ := by
  have directory : lastDirectory (ticks ++ [t]) = t.source.stations.getD w.batches.stations := by
    rw [reports.batches]
    cases answered : t.source.stations with
    | some stations => exact lastAnswer_of_some (by simp [Tick.directory?, kind, answered])
    | none => exact lastAnswer_of_none (by simp [Tick.directory?, kind, answered])
  have historical : lastHistorical plan (ticks ++ [t]) =
      (t.source.samples v plan.historicalLimit .ascending).getD [] :=
    lastAnswer_of_some (by simp [Tick.historical?, kind, window])
  have live : lastLive plan (ticks ++ [t]) = w.batches.live := by
    rw [reports.batches]
    exact lastAnswer_of_none (by simp [Tick.live?, kind])
  rw [directory, historical, live, Batches.refreshHistorical?, window]
  rfl

theorem trends?_eq {v : Window} (window : Window.endingAt? t.now plan.historicalWindow = some v) :
    (Batches.mk (lastDirectory ticks) (lastHistorical plan ticks) (lastLive plan ticks)).trends?
      t.source c plan t.now = trendsAfter? c plan ticks t := by
  unfold Batches.trends? trendsAfter? Tick.days?
  cases plan.useDailyAverages with
  | false => rfl
  | true =>
    rw [if_pos rfl, if_pos rfl, window]
    rfl

theorem isSome_trendsAfter?_iff : (trendsAfter? c plan ticks t).isSome = true ↔
    (t.days? c plan = none → ∀ s ∈ lastMerged plan ticks, s.Datable c.offset) := by
  unfold trendsAfter?
  cases t.days? c plan with
  | some days => simp
  | none =>
    rw [Option.isSome_map, isSome_bucketByDay?_iff]
    simp

theorem tick?_historical (reports : Reports c plan t₀ ticks w) (kind : t.kind = .historical)
    {v : Window} (window : Window.endingAt? t.now plan.historicalWindow = some v) :
    tick? c plan w t = (trendsAfter? c plan (ticks ++ [t]) t).map (fun trends =>
      ⟨⟨lastDirectory (ticks ++ [t]), lastHistorical plan (ticks ++ [t]),
        lastLive plan (ticks ++ [t])⟩, lastDashboard c plan t₀ (ticks ++ [t]), trends⟩) := by
  simp only [tick?, kind, historicalTick?, refreshHistorical?_eq reports kind window,
    Option.bind_eq_bind, Option.bind_some, trends?_eq window]
  rw [lastDashboard_of_reading (by simp [kind])]
  cases trendsAfter? c plan (ticks ++ [t]) t <;> rfl

theorem reports_of_historical (reports : Reports c plan t₀ ticks w) (kind : t.kind = .historical)
    {v : Window} (window : Window.endingAt? t.now plan.historicalWindow = some v)
    (dated : t.days? c plan = none → ∀ s ∈ lastMerged plan (ticks ++ [t]), s.Datable c.offset) :
    ∃ w', tick? c plan w t = some w' ∧ Reports c plan t₀ (ticks ++ [t]) w' := by
  obtain ⟨trends, given⟩ := Option.isSome_iff_exists.mp (isSome_trendsAfter?_iff.mpr dated)
  refine ⟨_, by rw [tick?_historical reports kind window, given]; rfl, ⟨rfl, rfl, ?_⟩⟩
  rw [lastTrends?, throughHistorical_of_historical kind]
  simpa using given

theorem reports_step (reports : Reports c plan t₀ ticks w) (completes : t.Completes c plan ticks) :
    ∃ w', tick? c plan w t = some w' ∧ Reports c plan t₀ (ticks ++ [t]) w' := by
  unfold Tick.Completes at completes
  cases kind : t.kind with
  | historical =>
    rw [kind] at completes
    obtain ⟨window, dated⟩ := completes
    obtain ⟨v, window⟩ := Option.isSome_iff_exists.mp window
    exact reports_of_historical reports kind window dated
  | live =>
    rw [kind] at completes
    obtain ⟨v, window⟩ := Option.isSome_iff_exists.mp completes
    exact reports_of_live reports kind window
  | stats => exact ⟨w, by rw [tick?, kind], reports_of_stats reports kind⟩

theorem completes_of_tick (reports : Reports c plan t₀ ticks w)
    (ticked : tick? c plan w t = some w') : t.Completes c plan ticks := by
  unfold Tick.Completes
  cases kind : t.kind with
  | historical =>
    cases window : Window.endingAt? t.now plan.historicalWindow with
    | none => simp [tick?, kind, historicalTick?, Batches.refreshHistorical?, window] at ticked
    | some v =>
      rw [tick?_historical reports kind window] at ticked
      obtain ⟨trends, given, _⟩ := Option.map_eq_some_iff.mp ticked
      exact ⟨rfl, isSome_trendsAfter?_iff.mp (Option.isSome_of_eq_some given)⟩
  | live =>
    cases window : Window.endingAt? t.now plan.liveWindow with
    | none => simp [tick?, kind, liveTick?, Batches.refreshLive?, window] at ticked
    | some v => rfl
  | stats => trivial

theorem completed_concat_iff :
    Completed c plan (ticks ++ [t]) ↔ Completed c plan ticks ∧ t.Completes c plan ticks := by
  constructor
  · intro completed
    refine ⟨?_, completed ticks t List.prefix_rfl⟩
    intro before u early
    exact completed before u (early.trans (List.prefix_append ticks [t]))
  · intro h before u early
    obtain ⟨completed, completes⟩ := h
    rcases List.prefix_concat_iff.mp early with same | early
    · obtain ⟨rfl, last⟩ := List.append_inj' same rfl
      obtain rfl := List.singleton_inj.mp last
      exact completes
    · exact completed before u early

theorem run?_concat :
    run? c plan w (ticks ++ [t]) = (run? c plan w ticks).bind (fun w => tick? c plan w t) := by
  rw [run?, List.foldlM_append]
  refine congrArg (run? c plan w ticks).bind (funext fun u => ?_)
  cases h : tick? c plan u t <;> simp [h]

theorem exists_run (completed : Completed c plan ticks) :
    ∃ w, run? c plan (.start t₀) ticks = some w ∧ Reports c plan t₀ ticks w := by
  induction ticks using List.reverseRecOn with
  | nil => exact ⟨.start t₀, rfl, reports_start c plan t₀⟩
  | append_singleton ticks t ih =>
    obtain ⟨completed, completes⟩ := completed_concat_iff.mp completed
    obtain ⟨w, ran, reports⟩ := ih completed
    obtain ⟨w', ticked, reports'⟩ := reports_step reports completes
    exact ⟨w', by rw [run?_concat, ran, Option.bind_some, ticked], reports'⟩

theorem completed_of_run (ran : run? c plan (.start t₀) ticks = some w) :
    Completed c plan ticks ∧ Reports c plan t₀ ticks w := by
  induction ticks using List.reverseRecOn generalizing w with
  | nil =>
    obtain rfl : Worker.start t₀ = w := Option.some.inj ran
    refine ⟨?_, reports_start c plan t₀⟩
    intro before t early
    simp at early
  | append_singleton ticks t ih =>
    rw [run?_concat] at ran
    obtain ⟨u, earlier, ticked⟩ := Option.bind_eq_some_iff.mp ran
    obtain ⟨completed, reports⟩ := ih earlier
    have completes := completes_of_tick reports ticked
    obtain ⟨w', ticked', reports'⟩ := reports_step reports completes
    obtain rfl : w' = w := Option.some.inj (ticked'.symm.trans ticked)
    exact ⟨completed_concat_iff.mpr ⟨completed, completes⟩, reports'⟩

theorem run?_eq_some_iff :
    run? c plan (.start t₀) ticks = some w ↔
      Completed c plan ticks ∧ Reports c plan t₀ ticks w := by
  constructor
  · exact completed_of_run
  · intro h
    obtain ⟨completed, reports⟩ := h
    obtain ⟨u, ran, reports'⟩ := exists_run completed
    rw [reports_unique reports reports']
    exact ran

/-- A live tick leaves directory, historical batch and trends, a historical tick the live batch. -/
theorem tick?_leaves (ticked : tick? c plan w t = some w') :
    (t.kind = .live → w'.batches.stations = w.batches.stations ∧
      w'.batches.historical = w.batches.historical ∧ w'.trends = w.trends) ∧
    (t.kind = .historical → w'.batches.live = w.batches.live) := by
  constructor
  · intro kind
    simp only [tick?, kind, liveTick?, Batches.refreshLive?, Option.bind_eq_bind,
      Option.bind_eq_some_iff, Option.map_eq_some_iff, Option.pure_def, Option.some.injEq] at ticked
    obtain ⟨_, ⟨v, _, rfl⟩, rfl⟩ := ticked
    exact ⟨rfl, rfl, rfl⟩
  · intro kind
    simp only [tick?, kind, historicalTick?, Batches.refreshHistorical?, Option.bind_eq_bind,
      Option.bind_eq_some_iff, Option.map_eq_some_iff, Option.pure_def, Option.some.injEq] at ticked
    obtain ⟨_, ⟨v, _, rfl⟩, _, _, rfl⟩ := ticked
    rfl

theorem dashboard_of_reading (reports : Reports c plan t₀ ticks w)
    (reading : ∃ t ∈ ticks, t.kind ≠ .stats) (now : Instant) :
    { w.dashboard with generatedAt := now } =
      c.evaluate now (lastDirectory ticks) (lastMerged plan ticks) := by
  obtain ⟨t, member, kind⟩ := reading
  rw [reports.dashboard, lastDashboard]
  cases last : (ticks.filter (fun t => t.kind ≠ .stats)).getLast? with
  | none =>
    have none_reads := List.filter_eq_nil_iff.mp (List.getLast?_eq_none_iff.mp last) t member
    exact absurd (decide_eq_true kind) none_reads
  | some u => rfl

/-- The worker after a run, by the last answers; what a tick leaves; and dashboards of one set of
last answers, which differ only in when they were made. -/
theorem run_shows_last_answers (c : Catalog) (plan : RefreshPlan) (t₀ : Instant)
    (ticks : List Tick) :
    (∀ w, run? c plan (.start t₀) ticks = some w ↔
      Completed c plan ticks ∧ Reports c plan t₀ ticks w) ∧
    (∀ w t w', run? c plan (.start t₀) ticks = some w →
      run? c plan (.start t₀) (ticks ++ [t]) = some w' →
        (t.kind = .live → w'.batches.stations = w.batches.stations ∧
          w'.batches.historical = w.batches.historical ∧ w'.trends = w.trends) ∧
        (t.kind = .historical → w'.batches.live = w.batches.live)) ∧
    (∀ ticks' w w', run? c plan (.start t₀) ticks = some w →
      run? c plan (.start t₀) ticks' = some w' →
      (∃ t ∈ ticks, t.kind ≠ .stats) → (∃ t ∈ ticks', t.kind ≠ .stats) →
      lastDirectory ticks = lastDirectory ticks' →
      lastHistorical plan ticks = lastHistorical plan ticks' →
      lastLive plan ticks = lastLive plan ticks' →
        ∀ now, { w.dashboard with generatedAt := now } =
          { w'.dashboard with generatedAt := now }) := by
  refine ⟨fun _ => run?_eq_some_iff, ?_, ?_⟩
  · intro w t w' ran ran'
    rw [run?_concat, ran] at ran'
    exact tick?_leaves ran'
  · intro ticks' w w' ran ran' reading reading' directory historical live now
    obtain ⟨_, reports⟩ := run?_eq_some_iff.mp ran
    obtain ⟨_, reports'⟩ := run?_eq_some_iff.mp ran'
    rw [dashboard_of_reading reports reading, dashboard_of_reading reports' reading', directory,
      lastMerged, historical, live, lastMerged]

end Ticks
end FleetHealth.Worker
