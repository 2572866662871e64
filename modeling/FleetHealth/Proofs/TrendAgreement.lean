import FleetHealth.Proofs.CompensatedSums
import FleetHealth.Proofs.DayAverages
import FleetHealth.Proofs.RefreshedBatches
/-!
The averages a store computes and the averages bucketed from the batches read from it belong to the
same days and metrics in the same order and are means of the same values, as long as the read brings
every row of the window and the days lie within the years for which the store has days. The store's
means are compensated, so where values add up exactly the averages are the same.
-/
namespace FleetHealth

namespace SampleRow

/-- The row has a moment, not before 1970 and on a day not after 9999. -/
def InCalendar (offset : Offset) (r : SampleRow) : Prop :=
  ∃ t date, r.timestamp = .ok (some t) ∧ 0 ≤ t.millis ∧ t.localDate? offset = some date ∧
    date.civil.year ≤ 9999

/-- The local day of a row's moment. -/
def day? (offset : Offset) (r : SampleRow) : Option Date :=
  r.decoded.timestamp.bind (fun t => t.localDate? offset)

/-- A row of that day whose text reads as the metric, however it is spelled. -/
def isOf (offset : Offset) (date : Date) (m : Metric) (r : SampleRow) : Bool :=
  r.day? offset = some date ∧ Metric.ofText r.metricText = m

/-- The text of a row is its metric's own name, and its value is finite. -/
def Proper (r : SampleRow) : Prop :=
  r.metricText = (Metric.ofText r.metricText).name ∧ r.value.isFinite = true

theorem proper_stored {s : Sample} (finite : s.value.isFinite = true) :
    (SampleRow.ofSample s).stored.Proper := by
  constructor
  · show s.metric.name = (Metric.ofText s.metric.name).name
    rw [Metric.ofText_name]
  · exact stored_isFinite finite

theorem InCalendar.exists_day {offset : Offset} {r : SampleRow} (calendar : r.InCalendar offset) :
    ∃ n t date, r.millis = some n ∧ Instant.ofMillis? n.toInt = some t ∧
      t.localDate? offset = some date ∧ Store.dayText offset n = date.text := by
  obtain ⟨t, date, stamp, past, day, year⟩ := calendar
  unfold timestamp at stamp
  cases millis : r.millis with
  | none => simp [millis] at stamp
  | some n =>
    cases moment : Instant.ofMillis? n.toInt with
    | none => simp [millis, moment] at stamp
    | some u =>
      simp only [millis, moment, Except.ok.injEq, Option.some.injEq] at stamp
      subst stamp
      exact ⟨n, u, date, rfl, moment, day, Store.dayText_eq moment past day year⟩

theorem datable_decoded {offset : Offset} {r : SampleRow} (calendar : r.InCalendar offset) :
    r.decoded.Datable offset := by
  obtain ⟨n, t, date, millis, moment, day, _⟩ := calendar.exists_day
  intro u found _
  have same : t = u := by
    simpa [decoded, millis, moment] using found
  subst same
  rw [day]
  rfl

section Placed

variable {offset : Offset} {r : SampleRow} {date : Date} {m : Metric}

theorem isOf_iff : r.isOf offset date m = true ↔
    r.day? offset = some date ∧ Metric.ofText r.metricText = m := decide_eq_true_iff

theorem dayPlaced?_eq (calendar : r.InCalendar offset) :
    Store.dayPlaced? offset r =
      (r.day? offset).map (fun date => ((date.text, r.metricText), r.value)) := by
  obtain ⟨n, t, date, millis, moment, day, text⟩ := calendar.exists_day
  simp [Store.dayPlaced?, day?, decoded, millis, moment, day, text]

theorem placed?_decoded (offset : Offset) (r : SampleRow) : r.decoded.placed? offset =
    if Metric.ofText r.metricText = .unknown then none
    else (r.day? offset).map (fun date => (⟨date, Metric.ofText r.metricText⟩, r.value)) := by
  unfold Sample.placed? day?
  cases r.decoded.timestamp with
  | none => rw [Option.bind_none, Option.bind_none, Option.map_none, ite_self]
  | some t =>
    rw [Option.bind_some, Option.bind_some]
    rfl

end Placed

end SampleRow

/-- The values of the rows of a day that read as a metric, in their order. -/
def valuesOf (offset : Offset) (rows : List SampleRow) (k : BucketKey) : List Float :=
  (rows.filter (·.isOf offset k.date k.metric)).map (·.value)

section Cells

variable {offset : Offset} {rows : List SampleRow}

/-- A group has the rows of its day that are spelled alike. -/
theorem cell_rows (calendar : ∀ r ∈ rows, r.InCalendar offset) (date : Date) (text : String) :
    Bucket.cell (rows.filterMap (Store.dayPlaced? offset)) (date.text, text) =
      (rows.filter (fun r => r.day? offset = some date ∧ r.metricText = text)).map (·.value) := by
  refine Bucket.cell_filterMap ?_ ?_
  · intro r member chosen
    obtain ⟨day, spelled⟩ := of_decide_eq_true chosen
    rw [SampleRow.dayPlaced?_eq (calendar r member), day, ← spelled]
    rfl
  · intro r member left v placed
    rw [SampleRow.dayPlaced?_eq (calendar r member)] at placed
    obtain ⟨d, day, entry⟩ := Option.map_eq_some_iff.mp placed
    obtain ⟨key, _⟩ := Prod.mk.inj entry
    obtain ⟨shown, spelled⟩ := Prod.mk.inj key
    obtain rfl := Date.text_injective shown
    exact of_decide_eq_false left ⟨day, spelled⟩

/-- A bucket has the samples of all rows of its day that read as its metric. -/
theorem cell_samples (rows : List SampleRow) (date : Date) {m : Metric} (known : m ≠ .unknown) :
    Bucket.cell ((rows.map SampleRow.decoded).filterMap (Sample.placed? offset)) ⟨date, m⟩ =
      (rows.filter (·.isOf offset date m)).map (·.value) := by
  rw [List.filterMap_map]
  refine Bucket.cell_filterMap ?_ ?_
  · intro r _ chosen
    obtain ⟨day, metric⟩ := SampleRow.isOf_iff.mp chosen
    rw [Function.comp_apply, SampleRow.placed?_decoded, metric, if_neg known, day]
    rfl
  · intro r _ left v placed
    rw [Function.comp_apply, SampleRow.placed?_decoded] at placed
    split at placed
    · cases placed
    · obtain ⟨d, day, entry⟩ := Option.map_eq_some_iff.mp placed
      obtain ⟨key, _⟩ := Prod.mk.inj entry
      obtain ⟨rfl, metric⟩ := BucketKey.mk.inj key
      rw [SampleRow.isOf_iff.mpr ⟨day, metric⟩] at left
      cases left

theorem bucketByDay?_decoded (conversions : Conversions)
    (calendar : ∀ r ∈ rows, r.InCalendar offset) :
    bucketByDay? conversions offset (rows.map SampleRow.decoded) =
      some (Buckets.points conversions
        (Bucket.fill ∅ ((rows.map SampleRow.decoded).filterMap (Sample.placed? offset)))) := by
  refine bucketByDay?_eq_some_iff.mpr ⟨?_, rfl⟩
  intro s member
  obtain ⟨r, inside, rfl⟩ := List.mem_map.mp member
  exact SampleRow.datable_decoded (calendar r inside)

/-- The cells of rows and those of the samples they read as hold the same values. -/
theorem cell_decoded (calendar : ∀ r ∈ rows, r.InCalendar offset)
    (proper : ∀ r ∈ rows, r.Proper) (date : Date) {m : Metric} (known : m ≠ .unknown) :
    Bucket.cell ((rows.map SampleRow.decoded).filterMap (Sample.placed? offset)) ⟨date, m⟩ =
      Bucket.cell (rows.filterMap (Store.dayPlaced? offset)) (date.text, m.name) := by
  rw [cell_samples rows date known, cell_rows calendar]
  congr 1
  refine List.filter_congr (fun r member => ?_)
  have named := (proper r member).1
  rw [SampleRow.isOf, decide_eq_decide]
  refine and_congr_right (fun _ => ?_)
  constructor
  · intro metric
    rw [named, metric]
  · intro text
    rw [text, Metric.ofText_name]

end Cells

namespace Store

variable {offset : Offset} {rows : List SampleRow}

/-- The rows' groups, under their dates. -/
theorem exists_dated_of_calendar (calendar : ∀ r ∈ rows, r.InCalendar offset) :
    ∃ dated : DatedGroups, (groupRows offset rows).toList = dated.map printed := by
  apply exists_dated
  intro r member e placed
  rw [SampleRow.dayPlaced?_eq (calendar r member)] at placed
  obtain ⟨date, _, rfl⟩ := Option.map_eq_some_iff.mp placed
  exact ⟨date, rfl⟩

/-- Groups of rows with the metrics' own names have such names. -/
theorem named_of_proper {dated : DatedGroups} (calendar : ∀ r ∈ rows, r.InCalendar offset)
    (proper : ∀ r ∈ rows, r.Proper) (same : (groupRows offset rows).toList = dated.map printed) :
    ∀ e ∈ dated, e.1.2 = (Metric.ofText e.1.2).name := by
  intro e member
  have entry : printed e ∈ (groupRows offset rows).toList := same ▸ List.mem_map_of_mem member
  obtain ⟨filled, _⟩ := getElem?_groupRows.mp (Std.TreeMap.mem_toList_iff_getElem?_eq_some.mp entry)
  obtain ⟨v, inside⟩ := List.exists_mem_of_ne_nil _ filled
  rw [cell_rows calendar] at inside
  obtain ⟨r, chosen, _⟩ := List.mem_map.mp inside
  obtain ⟨found, own⟩ := List.mem_filter.mp chosen
  have text : r.metricText = e.1.2 := (of_decide_eq_true own).2
  rw [← text]
  exact (proper r found).1

/-- Where texts are the metrics' own names a day has the mean of the values that bucketing has. -/
theorem gives_iff_of_proper {dated : DatedGroups} (calendar : ∀ r ∈ rows, r.InCalendar offset)
    (proper : ∀ r ∈ rows, r.Proper) (same : (groupRows offset rows).toList = dated.map printed)
    (date : Date) (m : Metric) (known : m ≠ .unknown) (v : Float) :
    DayAverages.Gives (collectedDays dated) date m v ↔
      Bucket.cell ((rows.map SampleRow.decoded).filterMap (Sample.placed? offset)) ⟨date, m⟩ ≠ [] ∧
        v = mean (Bucket.cell ((rows.map SampleRow.decoded).filterMap (Sample.placed? offset))
          ⟨date, m⟩) := by
  have named := named_of_proper calendar proper same
  rw [gives_collectedDays_iff, getElem?_collectDays_of_named same named date known,
    cell_decoded calendar proper date known, Option.map_eq_some_iff]
  constructor
  · intro h
    obtain ⟨sum, found, rfl⟩ := h
    obtain ⟨filled, rfl⟩ := getElem?_groupRows.mp found
    exact ⟨filled, rfl⟩
  · intro h
    obtain ⟨filled, rfl⟩ := h
    exact ⟨_, getElem?_groupRows.mpr ⟨filled, rfl⟩, rfl⟩

end Store

/-- Batches after refreshes at one moment from a store that does not change meanwhile: the long
window alone while nothing live is kept, or the long window and a live one within it, in either
order. -/
inductive Refreshed (store : Store) (plan : RefreshPlan) (now : Instant) : Batches → Prop where
  | historical {b₀ b : Batches} (idle : b₀.live = [])
      (read : b₀.refreshHistorical? store.source plan now = some b) : Refreshed store plan now b
  | historicalThenLive {b₀ b₁ b : Batches} (shorter : plan.liveWindow ≤ plan.historicalWindow)
      (read : b₀.refreshHistorical? store.source plan now = some b₁)
      (live : b₁.refreshLive? store.source plan now = some b) : Refreshed store plan now b
  | liveThenHistorical {b₀ b₁ b : Batches} (shorter : plan.liveWindow ≤ plan.historicalWindow)
      (live : b₀.refreshLive? store.source plan now = some b₁)
      (read : b₁.refreshHistorical? store.source plan now = some b) : Refreshed store plan now b

namespace Store

variable {store : Store} {plan : RefreshPlan} {now : Instant} {w : Window} {b : Batches}

theorem historical_of_refresh {b₀ : Batches}
    (window : Window.endingAt? now plan.historicalWindow = some w)
    (read : b₀.refreshHistorical? store.source plan now = some b) :
    b.historical = store.readout w plan.historicalLimit .ascending ∧ b.live = b₀.live := by
  rw [Batches.refreshHistorical?_of_store b₀ window, Option.some.injEq] at read
  subst read
  exact ⟨rfl, rfl⟩

theorem live_of_refresh {b₀ : Batches} (live : b₀.refreshLive? store.source plan now = some b) :
    b.historical = b₀.historical ∧ ∃ v, Window.endingAt? now plan.liveWindow = some v ∧
      b.live = store.readout v plan.liveLimit .descending := by
  obtain ⟨v, window, _⟩ := Option.map_eq_some_iff.mp live
  rw [Batches.refreshLive?_of_store b₀ window, Option.some.injEq] at live
  subst live
  exact ⟨rfl, v, window, rfl⟩

theorem merged_of_refreshed (keyed : store.Keyed)
    (window : Window.endingAt? now plan.historicalWindow = some w)
    (complete : (store.rowsWithin w .ascending).length ≤ plan.historicalLimit.toNat)
    (refreshed : Refreshed store plan now b) :
    b.merged = (store.rowsWithin w .ascending).map SampleRow.decoded := by
  rw [← rowsRead_of_complete complete, ← readout, Batches.merged]
  cases refreshed with
  | historical idle read =>
    obtain ⟨historical, live⟩ := historical_of_refresh window read
    rw [historical, live, idle]
    exact Sample.merge_of_known (readout_ids_nodup w _ _ keyed)
      (fun s inside => absurd inside List.not_mem_nil)
  | historicalThenLive shorter read live =>
    obtain ⟨historical, _⟩ := historical_of_refresh window read
    obtain ⟨kept, v, inner, live⟩ := live_of_refresh live
    have nested := Window.contains_of_shorter (Int.ofNat_le.mpr shorter) inner window
    rw [kept, historical, live]
    exact merge_of_complete keyed nested complete plan.liveLimit
  | liveThenHistorical shorter live read =>
    obtain ⟨historical, kept⟩ := historical_of_refresh window read
    obtain ⟨_, v, inner, live⟩ := live_of_refresh live
    have nested := Window.contains_of_shorter (Int.ofNat_le.mpr shorter) inner window
    rw [historical, kept, live]
    exact merge_of_complete keyed nested complete plan.liveLimit

theorem FilledWith.proper {allowed : Sample → Prop} (filled : store.FilledWith allowed)
    (finite : ∀ s, allowed s → s.value.isFinite = true) :
    ∀ r ∈ store.rowsWithin w .ascending, r.Proper := by
  intro r member
  obtain ⟨⟨i, found⟩, _⟩ := mem_rowsWithin.mp member
  obtain ⟨_, s, ok, rfl⟩ := filled i r found
  exact SampleRow.proper_stored (finite s ok)

/-- The days a store answers flatten to the points of the samples it answers, with the store's own
means of their values. -/
theorem exists_days {offset : Offset} (conversions : Conversions)
    (calendar : ∀ r ∈ store.rowsWithin w .ascending, r.InCalendar offset)
    (proper : ∀ r ∈ store.rowsWithin w .ascending, r.Proper) :
    let entries := ((store.rowsWithin w .ascending).map SampleRow.decoded).filterMap
      (Sample.placed? offset)
    ∃ days, store.source.days w offset = some days ∧ flattenDays conversions days =
      (Buckets.points conversions (Bucket.fill ∅ entries)).map
        (TrendPoint.withMean conversions entries mean) := by
  intro entries
  obtain ⟨dated, same⟩ := exists_dated_of_calendar calendar
  refine ⟨collectedDays dated, ?_, flattenDays_eq_map_of_gives mean (collectedDays_distinct dated)
    (gives_iff_of_proper calendar proper same)⟩
  show (store.dailyAverages w offset).toOption = _
  rw [dailyAverages_of_printed same]
  rfl

end Store

namespace TrendPoint

/-- Averages of one day and one metric, one as a store computes it and one as bucketing does, over
the same values. Where these add up exactly both means are one. -/
structure Agree (conversions : Conversions) (values : BucketKey → List Float) (p q : TrendPoint) :
    Prop where
  key : p.key = q.key
  stored : p.average = conversions.apply p.metric (Store.mean (values p.key))
  bucketed : q.average = conversions.apply q.metric (Bucket.mean (values q.key))
  exact : Binary64.SumsExactly (values q.key) →
    Store.mean (values q.key) = Bucket.mean (values q.key)

theorem Agree.eq {conversions : Conversions} {values : BucketKey → List Float} {p q : TrendPoint}
    (agree : Agree conversions values p q)
    (same : Store.mean (values q.key) = Bucket.mean (values q.key)) : p = q := by
  obtain ⟨key, stored, bucketed, _⟩ := agree
  have date : p.date = q.date := congrArg BucketKey.date key
  have metric : p.metric = q.metric := congrArg BucketKey.metric key
  rw [key, same, metric, ← bucketed] at stored
  exact TrendPoint.mk.injEq .. |>.mpr ⟨date, metric, stored⟩

/-- A bucketed point agrees with the point that has the store's mean of its cell instead. -/
theorem agree_withMean {conversions : Conversions} {offset : Offset} {rows : List SampleRow}
    (proper : ∀ r ∈ rows, r.Proper) (few : rows.length ≤ 2 ^ 64) {p : TrendPoint} :
    let entries := (rows.map SampleRow.decoded).filterMap (Sample.placed? offset)
    p ∈ Buckets.points conversions (Bucket.fill ∅ entries) →
      Agree conversions (valuesOf offset rows) (p.withMean conversions entries Store.mean) p := by
  intro entries listed
  obtain ⟨filled, average⟩ := mem_points_fill.mp listed
  have known : p.metric ≠ .unknown := fun unknown => filled (cell_of_unknown _ unknown)
  have same : Bucket.cell entries p.key = valuesOf offset rows p.key :=
    cell_samples rows p.date known
  rw [Bucket.average_ofValues, same] at average
  rw [same] at filled
  have stored : (p.withMean conversions entries Store.mean).average =
      conversions.apply p.metric (Store.mean (valuesOf offset rows p.key)) := by
    rw [withMean, same]
  have shorter : (valuesOf offset rows p.key).length ≤ rows.length := by
    rw [valuesOf, List.length_map]
    exact List.length_filter_le _ _
  have finite : ∀ v ∈ valuesOf offset rows p.key, v.isFinite = true := by
    intro v inside
    obtain ⟨r, chosen, rfl⟩ := List.mem_map.mp inside
    exact (proper r (List.mem_of_mem_filter chosen)).2
  exact ⟨rfl, stored, average, Store.mean_of_exact filled (shorter.trans few) finite⟩

end TrendPoint

/-- Averages a store computes and averages bucketed from the batches give the same trends: of the
same days and metrics in the same order, each over the same values. They are equal where the store's
means are the sums over the counts, so where the values add up exactly. -/
theorem trends_agree {directory : Std.TreeMap String StationRow} {batches : List (List Sample)}
    {store : Store} {c : Catalog} {plan : RefreshPlan} {now : Instant} {w : Window} {b : Batches}
    (saved : batches.foldlM Store.saveSamples ⟨directory, ∅⟩ = .ok store)
    (finite : ∀ batch ∈ batches, ∀ s ∈ batch, s.value.isFinite = true)
    (window : Window.endingAt? now plan.historicalWindow = some w)
    (complete : (store.rowsWithin w .ascending).length ≤ plan.historicalLimit.toNat)
    (calendar : ∀ r ∈ store.rowsWithin w .ascending, r.InCalendar c.offset)
    (refreshed : Refreshed store plan now b) :
    let values := valuesOf c.offset (store.rowsWithin w .ascending)
    ∃ stored bucketed,
      b.trends? store.source c { plan with useDailyAverages := true } now =
        some ⟨now, .preAggregated, stored⟩ ∧
      b.trends? store.source c { plan with useDailyAverages := false } now =
        some ⟨now, .bucketed, bucketed⟩ ∧
      List.Forall₂ (TrendPoint.Agree c.conversions values) stored bucketed ∧
      ((∀ p ∈ bucketed, Store.mean (values p.key) = Bucket.mean (values p.key)) →
        stored = bucketed) ∧
      ((∀ p ∈ bucketed, Binary64.SumsExactly (values p.key)) → stored = bucketed) := by
  intro values
  have filled := Store.filledWith_history saved
  have proper : ∀ r ∈ store.rowsWithin w .ascending, r.Proper := by
    apply filled.proper
    intro s h
    obtain ⟨batch, listed, inside⟩ := h
    exact finite batch listed s inside
  obtain ⟨days, answered, flattened⟩ := Store.exists_days c.conversions calendar proper
  have merged := Store.merged_of_refreshed filled.keyed window complete refreshed
  have cut := bucketByDay?_decoded c.conversions calendar
  generalize placed : ((store.rowsWithin w .ascending).map SampleRow.decoded).filterMap
    (Sample.placed? c.offset) = entries at flattened cut
  let bucketed := Buckets.points c.conversions (Bucket.fill ∅ entries)
  have few : (store.rowsWithin w .ascending).length ≤ 2 ^ 64 := by
    have := plan.historicalLimit.toNat_lt
    omega
  have agree : ∀ p ∈ bucketed, TrendPoint.Agree c.conversions values
      (p.withMean c.conversions entries Store.mean) p := by
    intro p listed
    subst placed
    exact TrendPoint.agree_withMean proper few listed
  have equal : (∀ p ∈ bucketed, Store.mean (values p.key) = Bucket.mean (values p.key)) →
      flattenDays c.conversions days = bucketed := by
    intro same
    rw [flattened]
    exact (List.map_congr_left fun p listed => (agree p listed).eq (same p listed)).trans
      (List.map_id _)
  refine ⟨flattenDays c.conversions days, bucketed, ?_, ?_, ?_, equal,
    fun exact => equal fun p listed => (agree p listed).exact (exact p listed)⟩
  · simp only [Batches.trends?, if_true, window, Option.bind_some, answered]
  · simp [Batches.trends?, Batches.bucketed?, merged, cut, bucketed]
  · rw [flattened, List.forall₂_map_left_iff]
    exact List.forall₂_same.mpr agree

namespace Midnight

/- Samples of one station half a second before and soon after midnight one hour east of UTC, and one
of an unknown metric. -/
def samples : List Sample :=
  [⟨1, "bs-1", .cpuLoad, 40.0, some ⟨82799500, by decide⟩, none⟩,
    ⟨2, "bs-1", .cpuLoad, 60.0, some ⟨82800500, by decide⟩, none⟩,
    ⟨3, "bs-1", .unknown, 7.0, some ⟨82800500, by decide⟩, none⟩,
    ⟨4, "bs-1", .cpuLoad, 20.0, some ⟨82800900, by decide⟩, none⟩]

def store : Store :=
  ⟨∅, samples.foldl (fun rows s => rows.insert s.id (SampleRow.ofSample s).stored) ∅⟩

def plan : RefreshPlan := ⟨60000, 7200000, 100, 1000, 1800000, 10, true, 60000⟩

def now : Instant := ⟨82801000, by decide⟩

def window : Window := ⟨⟨75601000, by decide⟩, ⟨82801001, by decide⟩⟩

def catalog : Catalog := { Catalog.builtin with offset := ⟨3600, by decide⟩ }

theorem saved_eq : [samples].foldlM Store.saveSamples ⟨∅, ∅⟩ = .ok store := by
  rw [List.foldlM_cons, Store.saveSamples_eq (by decide)]
  rfl

theorem rowsWithin_eq : store.rowsWithin window .ascending =
    samples.map (fun s => (SampleRow.ofSample s).stored) := by
  have values : store.samples.values.filter (·.isWithin window) =
      samples.map (fun s => (SampleRow.ofSample s).stored) := by decide +kernel
  rw [Store.rowsWithin, values]
  exact List.mergeSort_of_pairwise (by decide +kernel)

theorem inCalendar :
    ∀ r ∈ store.rowsWithin window .ascending, r.InCalendar catalog.offset := by
  intro r member
  rw [rowsWithin_eq] at member
  simp only [samples, List.map_cons, List.map_nil, List.mem_cons, List.not_mem_nil,
    or_false] at member
  rcases member with rfl | rfl | rfl | rfl
  · exact ⟨_, _, rfl, by decide, rfl, by decide⟩
  · exact ⟨_, _, rfl, by decide, rfl, by decide⟩
  · exact ⟨_, _, rfl, by decide, rfl, by decide⟩
  · exact ⟨_, _, rfl, by decide, rfl, by decide⟩

/- Whole numbers, so whichever of them are added the sums are exact. -/
theorem sumsExactly (chosen : SampleRow → Bool) : Binary64.SumsExactly
    (((store.rowsWithin window .ascending).filter chosen).map (·.value)) := by
  have whole : (store.rowsWithin window .ascending).map (·.value) =
      [40, 60, 7, 20].map Nat.toFloat := by
    rw [rowsWithin_eq]
    decide +kernel
  have part : (((store.rowsWithin window .ascending).filter chosen).map (·.value)).Sublist
      ([40, 60, 7, 20].map Nat.toFloat) :=
    whole ▸ List.filter_sublist.map _
  obtain ⟨ns, fewer, same⟩ := List.sublist_map_iff.mp part
  have small : ns.sum ≤ 127 := fewer.sum_le_sum (fun _ _ => Nat.zero_le _)
  rw [same]
  exact Binary64.sumsExactly_of_whole (by omega)

end Midnight

open Midnight in
theorem trends_agree_at_midnight :
    [samples].foldlM Store.saveSamples ⟨∅, ∅⟩ = .ok store ∧
      Window.endingAt? now plan.historicalWindow = some window ∧
      ∃ b points, Refreshed store plan now b ∧
        b.trends? store.source catalog { plan with useDailyAverages := true } now =
          some ⟨now, .preAggregated, points⟩ ∧
        b.trends? store.source catalog { plan with useDailyAverages := false } now =
          some ⟨now, .bucketed, points⟩ := by
  have ending : Window.endingAt? now plan.historicalWindow = some window := rfl
  have finite : ∀ batch ∈ [samples], ∀ s ∈ batch, s.value.isFinite = true := by decide
  have complete : (store.rowsWithin window .ascending).length ≤ plan.historicalLimit.toNat :=
    Nat.le_trans (Store.length_rowsWithin_le store window .ascending) (by decide)
  obtain ⟨b, refreshed⟩ : ∃ b, Refreshed store plan now b := by
    have read : ∃ b₁, Batches.empty.refreshHistorical? store.source plan now = some b₁ := ⟨_, rfl⟩
    obtain ⟨b₁, read⟩ := read
    exact ⟨_, .historicalThenLive (by decide) read rfl⟩
  obtain ⟨stored, bucketed, preAggregated, plain, _, _, same⟩ :=
    trends_agree saved_eq finite ending complete inCalendar refreshed
  obtain rfl := same fun p _ => sumsExactly (·.isOf catalog.offset p.date p.metric)
  exact ⟨saved_eq, ending, b, stored, refreshed, preAggregated, plain⟩

end FleetHealth
