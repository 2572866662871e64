import FleetHealth.Worker
import FleetHealth.Proofs.Merge
/-!
A historical and a live tick due together, in either order. The batches after both are the same, and
so is the dashboard but for its moment. Trends are of the historical tick: bucketed, they see the
live batch held when it runs, which is the one before or the one just read.
-/
namespace FleetHealth

namespace Batches

variable {source : Source} {c : Catalog} {plan : RefreshPlan} {now : Instant} {w : Window}

/- The reads of the long window and of the short one. -/
def readLong (b : Batches) (source : Source) (plan : RefreshPlan) (w : Window) : Batches :=
  { b with
    stations := source.stations.getD b.stations
    historical := (source.samples w plan.historicalLimit .ascending).getD [] }

def readShort (b : Batches) (source : Source) (plan : RefreshPlan) (w : Window) : Batches :=
  { b with live := (source.samples w plan.liveLimit .descending).getD [] }

theorem refreshHistorical?_eq (b : Batches) (source : Source)
    (long : Window.endingAt? now plan.historicalWindow = some w) :
    b.refreshHistorical? source plan now = some (b.readLong source plan w) := by
  rw [refreshHistorical?, long]
  rfl

theorem refreshLive?_eq (b : Batches) (source : Source)
    (short : Window.endingAt? now plan.liveWindow = some w) :
    b.refreshLive? source plan now = some (b.readShort source plan w) := by
  rw [refreshLive?, short]
  rfl

theorem bucketed?_eq_iff {b b' : Batches} : b.bucketed? c now = b'.bucketed? c now ↔
    bucketByDay? c.conversions c.offset b.merged =
      bucketByDay? c.conversions c.offset b'.merged := by
  have injective : Function.Injective
      (Option.map (fun points => (⟨now, .bucketed, points⟩ : Trends))) :=
    Option.map_injective (fun _ _ same => congrArg Trends.points same)
  exact injective.eq_iff

/-- Trends of one moment differ only where they are bucketed. -/
theorem trends?_eq_iff {b b' : Batches}
    (long : Window.endingAt? now plan.historicalWindow = some w) :
    b.trends? source c plan now = b'.trends? source c plan now ↔
      (plan.useDailyAverages = true ∧ (source.days w c.offset).isSome = true) ∨
        bucketByDay? c.conversions c.offset b.merged =
          bucketByDay? c.conversions c.offset b'.merged := by
  unfold trends?
  by_cases asked : plan.useDailyAverages = true
  · rw [if_pos asked, if_pos asked, long, Option.bind_some, Option.bind_some]
    cases source.days w c.offset with
    | some days => simp [asked]
    | none => simp [bucketed?_eq_iff]
  · rw [if_neg asked, if_neg asked, bucketed?_eq_iff]
    simp [asked]

end Batches

namespace Worker

variable {c : Catalog} {plan : RefreshPlan} {now now' : Instant} {a b : Window}

theorem historicalTick?_eq (w : Worker) (source : Source)
    (long : Window.endingAt? now plan.historicalWindow = some a) :
    w.historicalTick? c plan source now =
      let batches := w.batches.readLong source plan a
      (batches.trends? source c plan now).map (fun trends =>
        ⟨batches, batches.dashboard c now, trends⟩) := by
  rw [historicalTick?, Batches.refreshHistorical?_eq w.batches source long]
  show ((w.batches.readLong source plan a).trends? source c plan now).bind _ = _
  dsimp only
  cases (w.batches.readLong source plan a).trends? source c plan now <;> rfl

theorem liveTick?_eq (w : Worker) (source : Source)
    (short : Window.endingAt? now plan.liveWindow = some a) :
    w.liveTick? c plan source now =
      let batches := w.batches.readShort source plan a
      some ⟨batches, batches.dashboard c now, w.trends⟩ := by
  rw [liveTick?, Batches.refreshLive?_eq w.batches source short]
  rfl

section Both

variable (w : Worker) (source source' : Source)
  (long : Window.endingAt? now plan.historicalWindow = some a)
  (short : Window.endingAt? now' plan.liveWindow = some b)

include long short

theorem run?_historical_first :
    w.run? c plan [⟨.historical, now, source⟩, ⟨.live, now', source'⟩] =
      let before := w.batches.readLong source plan a
      let both := before.readShort source' plan b
      (before.trends? source c plan now).map (fun trends =>
        ⟨both, both.dashboard c now', trends⟩) := by
  show (w.historicalTick? c plan source now).bind
    (fun v => (v.liveTick? c plan source' now').bind some) = _
  rw [historicalTick?_eq w source long]
  dsimp only
  rw [Option.bind_map]
  simp only [Function.comp_def, liveTick?_eq _ source' short, Option.bind_some]
  cases (w.batches.readLong source plan a).trends? source c plan now <;> rfl

theorem run?_live_first :
    w.run? c plan [⟨.live, now', source'⟩, ⟨.historical, now, source⟩] =
      let both := (w.batches.readLong source plan a).readShort source' plan b
      (both.trends? source c plan now).map (fun trends =>
        ⟨both, both.dashboard c now, trends⟩) := by
  show (w.liveTick? c plan source' now').bind
    (fun v => (v.historicalTick? c plan source now).bind some) = _
  rw [liveTick?_eq w source' short]
  simp only [Option.bind_some, historicalTick?_eq _ source long, Option.bind_fun_some]
  rfl

end Both

/-- Whichever of the two ticks runs first, the batches after both are the same, and so is the
dashboard but for its moment. The trends are the same exactly if they are the source's own averages,
or if the long window makes the same buckets with the live batch held before and with the one just
read; where every sample of these two has an id of the long window, it does. -/
theorem tick_order_agrees (w : Worker) (source source' : Source)
    (long : Window.endingAt? now plan.historicalWindow = some a)
    (short : Window.endingAt? now' plan.liveWindow = some b) :
    let historical : Tick := ⟨.historical, now, source⟩
    let live : Tick := ⟨.live, now', source'⟩
    let before := w.batches.readLong source plan a
    let both := before.readShort source' plan b
    (∀ x y, w.run? c plan [historical, live] = some x → w.run? c plan [live, historical] = some y →
      (x.batches = both ∧ y.batches = both) ∧
        x.dashboard = both.dashboard c now' ∧ y.dashboard = both.dashboard c now) ∧
    ((w.run? c plan [historical, live]).map Worker.trends =
        (w.run? c plan [live, historical]).map Worker.trends ↔
      (plan.useDailyAverages = true ∧ (source.days a c.offset).isSome = true) ∨
        bucketByDay? c.conversions c.offset before.merged =
          bucketByDay? c.conversions c.offset both.merged) ∧
    ((∀ s ∈ before.live ++ both.live, s.id ∈ both.historical.map Sample.id) →
      (w.run? c plan [historical, live]).map Worker.trends =
        (w.run? c plan [live, historical]).map Worker.trends) := by
  intro historical live before both
  have first : w.run? c plan [historical, live] = (before.trends? source c plan now).map
      (fun trends => ⟨both, both.dashboard c now', trends⟩) :=
    run?_historical_first w source source' long short
  have second : w.run? c plan [live, historical] = (both.trends? source c plan now).map
      (fun trends => ⟨both, both.dashboard c now, trends⟩) :=
    run?_live_first w source source' long short
  have same_iff : (w.run? c plan [historical, live]).map Worker.trends =
        (w.run? c plan [live, historical]).map Worker.trends ↔
      (plan.useDailyAverages = true ∧ (source.days a c.offset).isSome = true) ∨
        bucketByDay? c.conversions c.offset before.merged =
          bucketByDay? c.conversions c.offset both.merged := by
    rw [first, second, Option.map_map, Option.map_map]
    show (before.trends? source c plan now).map id = (both.trends? source c plan now).map id ↔ _
    rw [Option.map_id_apply, Option.map_id_apply, Batches.trends?_eq_iff long]
  refine ⟨?_, same_iff, ?_⟩
  · intro x y ran ran'
    rw [first] at ran
    rw [second] at ran'
    obtain ⟨_, _, rfl⟩ := Option.map_eq_some_iff.mp ran
    obtain ⟨_, _, rfl⟩ := Option.map_eq_some_iff.mp ran'
    exact ⟨⟨rfl, rfl⟩, rfl, rfl⟩
  · intro known
    have held : Sample.added both.historical before.live = [] :=
      Sample.added_of_known (fun s inside => known s (List.mem_append_left _ inside))
    have fresh : Sample.added both.historical both.live = [] :=
      Sample.added_of_known (fun s inside => known s (List.mem_append_right _ inside))
    have merged : before.merged = both.merged := by
      show Sample.merge both.historical before.live = Sample.merge both.historical both.live
      rw [Sample.merge_eq_append, Sample.merge_eq_append both.historical both.live, held, fresh]
    exact same_iff.mpr (.inr (congrArg _ merged))

/- Two samples of one day, of which a limit of one leaves the long window the first and the short
window the second. -/
def twoSamples : Source where
  stations := some []
  samples _ limit order :=
    let first := Sample.mk 1 "bs-1" .cpuLoad 10.0 (Instant.ofMillis? 0) none
    let second := Sample.mk 2 "bs-1" .cpuLoad 30.0 (Instant.ofMillis? 1000) none
    let ordered := if order = .ascending then [first, second] else [second, first]
    some (ordered.take limit.toNat)
  days _ _ := none

def cutPlan : RefreshPlan := ⟨60000, 60000, 1, 1000, 60000, 1, false, 60000⟩

/-- At the very first moment the order of the two ticks shows in the trends. -/
theorem first_trends_depend_on_order :
    let moment : Instant := ⟨1000, by decide⟩
    let historical : Tick := ⟨.historical, moment, twoSamples⟩
    let live : Tick := ⟨.live, moment, twoSamples⟩
    ((start moment).run? .builtin cutPlan [historical, live]).map Worker.trends ≠
      ((start moment).run? .builtin cutPlan [live, historical]).map Worker.trends := by
  decide +kernel

/- Without the cuts every live sample is in the long window. -/
theorem tick_order_agrees_of_two_samples :
    let moment : Instant := ⟨1000, by decide⟩
    let plan := { cutPlan with historicalLimit := 2, liveLimit := 2 }
    let window : Window := ⟨⟨-59000, by decide⟩, ⟨1001, by decide⟩⟩
    let historical : Tick := ⟨.historical, moment, twoSamples⟩
    let live : Tick := ⟨.live, moment, twoSamples⟩
    Window.endingAt? moment plan.historicalWindow = some window ∧
      Window.endingAt? moment plan.liveWindow = some window ∧
      ((start moment).run? .builtin plan [historical, live]).map Worker.trends =
        ((start moment).run? .builtin plan [live, historical]).map Worker.trends := by
  intro moment plan window historical live
  have long : Window.endingAt? moment plan.historicalWindow = some window := rfl
  have short : Window.endingAt? moment plan.liveWindow = some window := rfl
  have agrees := tick_order_agrees (c := .builtin) (start moment) twoSamples twoSamples
    long short
  exact ⟨long, short, agrees.2.2 (by decide +kernel)⟩

end Worker
end FleetHealth
