import Mathlib.Data.List.Induction
import Mathlib.Data.Set.List
import FleetHealth.Proofs.Buckets
import FleetHealth.Proofs.CalendarText
import FleetHealth.Proofs.Outcomes
import FleetHealth.Store
/-!
Daily averages as a store computes them. Rows fall into groups by the texts of their day and their
metric; a day's average of a metric is that of the last group whose text reads as the metric, and
where texts are the metrics' own names there is one such group.
-/
namespace FleetHealth

section GroupOrder

abbrev dayGroupOrder : String × String → String × String → Ordering :=
  compareLex (compareOn Prod.fst) (compareOn Prod.snd)

instance : Std.TransCmp dayGroupOrder :=
  inferInstanceAs (Std.TransCmp (compareLex (compareOn Prod.fst) (compareOn Prod.snd)))

instance : Std.LawfulEqCmp dayGroupOrder where
  compare_self {a} := by simp [dayGroupOrder, compareLex, compareOn]
  eq_of_compare {a b} h := by
    rw [dayGroupOrder, compareLex_eq_eq] at h
    obtain ⟨day, text⟩ := h
    exact Prod.ext (Std.LawfulEqOrd.eq_of_compare day) (Std.LawfulEqOrd.eq_of_compare text)

end GroupOrder

theorem Date.dayNumber_le_of_year {date : Date} (year : date.civil.year ≤ 9999) :
    date.dayNumber ≤ 2932896 := by
  -- the last year of era 24 is reached sixty days before the era ends, in January
  by_contra late
  have lower : 2932897 ≤ date.dayNumber := by omega
  simp only [civil, Civil.ofDayNumber] at year
  generalize date.dayNumber = n at *
  by_cases era : (n + 719468) / 146097 = 24
  · rw [era] at year
    generalize ofEra : (n + 719468) % 146097 = r at *
    have tail : 146037 ≤ r ∧ r < 146097 := by omega
    have last : (r - r / 1460 + r / 36524 - r / 146096) / 365 = 399 := by omega
    rw [last] at year
    have month : 10 ≤ (5 * (r - (365 * 399 + 399 / 4 - 399 / 100)) + 2) / 153 := by omega
    omega
  · have later : 25 ≤ (n + 719468) / 146097 := by omega
    generalize ofEra : (n + 719468) % 146097 = r at *
    have tail : 0 ≤ r ∧ r < 146097 := by omega
    have first : 0 ≤ (r - r / 1460 + r / 36524 - r / 146096) / 365 := by omega
    omega

theorem Date.year_of_since (date : Date) (since : -1 ≤ date.dayNumber) :
    300 < date.civil.year := by
  obtain ⟨era, y, d, m, place, ⟨first, last⟩, low, day, _, shown⟩ :=
    Civil.exists_ofDayNumber date.dayNumber
  unfold Civil.daysBefore at place
  rw [civil, shown]
  dsimp only
  split <;> omega

namespace Store

theorem printedDay_of_later {c : Civil} (later : 300 < c.year) : printedDay c = c := by
  apply if_neg
  intro early
  have year : c.year ≤ 300 := early.2.2.1
  omega

/-- From 1970 to 9999 days cut in whole seconds are days cut in milliseconds. -/
theorem dayText_eq {offset : Offset} {n : Int64} {t : Instant} {date : Date}
    (moment : Instant.ofMillis? n.toInt = some t) (past : 0 ≤ t.millis)
    (day : t.localDate? offset = some date) (year : date.civil.year ≤ 9999) :
    dayText offset n = date.text := by
  have millis := Instant.ofMillis?_eq_some_iff.mp moment
  have upper := Date.dayNumber_le_of_year year
  have east := offset.inRange
  simp only [Instant.localDate?, Date.ofDayNumber?, Option.dite_none_right_eq_some,
    Option.some.injEq] at day
  obtain ⟨inRange, rfl⟩ := day
  have later := Date.year_of_since ⟨_, inRange⟩ (by dsimp only; omega)
  have seconds : n.toInt.tdiv 1000 = n.toInt / 1000 := Int.tdiv_eq_ediv_of_nonneg (by omega)
  have number : (n.toInt / 1000 + offset.seconds) / 86400 =
      (t.millis + 1000 * offset.seconds) / 86400000 := by omega
  dsimp only at upper
  unfold dayText
  rw [seconds]
  dsimp only
  rw [if_pos (by omega), number]
  exact congrArg (fun c => String.ofList (Civil.text c)) (printedDay_of_later later)

/-- What a row adds to which group. -/
def dayPlaced? (offset : Offset) (r : SampleRow) : Option ((String × String) × Float) :=
  r.millis.map (fun n => ((dayText offset n, r.metricText), r.value))

theorem foldl_add_eq (offset : Offset) (rows : List SampleRow) (start : DayGroups) :
    rows.foldl (DayGroups.add offset) start =
      KeyedFold.fill CompensatedSum.add .empty start (rows.filterMap (dayPlaced? offset)) := by
  induction rows generalizing start with
  | nil => rfl
  | cons r rest ih =>
    rw [List.foldl_cons, ih, List.filterMap_cons]
    unfold DayGroups.add dayPlaced?
    cases r.millis with
    | none => rfl
    | some n => rfl

/-- The groups of some rows. -/
def groupRows (offset : Offset) (rows : List SampleRow) : DayGroups :=
  KeyedFold.fill CompensatedSum.add .empty ∅ (rows.filterMap (dayPlaced? offset))

/-- A group has the values of its rows, added up in their order. -/
theorem getElem?_groupRows {offset : Offset} {rows : List SampleRow} {k : String × String}
    {sum : CompensatedSum} : (groupRows offset rows)[k]? = some sum ↔
      Bucket.cell (rows.filterMap (dayPlaced? offset)) k ≠ [] ∧
        sum = (Bucket.cell (rows.filterMap (dayPlaced? offset)) k).foldl .add .empty :=
  KeyedFold.getElem?_fill CompensatedSum.add .empty _ k sum

abbrev DatedGroups := List ((Date × String) × CompensatedSum)

/- A group of a day, as it stands under the day's text. -/
def printed (e : (Date × String) × CompensatedSum) : (String × String) × CompensatedSum :=
  ((e.1.1.text, e.1.2), e.2)

theorem printed_injective : Function.Injective printed := by
  intro a b same
  obtain ⟨⟨date, text⟩, sum⟩ := a
  obtain ⟨⟨date', text'⟩, sum'⟩ := b
  simp only [printed, Prod.mk.injEq] at same ⊢
  obtain ⟨⟨day, spelled⟩, sums⟩ := same
  exact ⟨⟨Date.text_injective day, spelled⟩, sums⟩

theorem readGroup_printed (e : (Date × String) × CompensatedSum) : readGroup (printed e) = .ok e := by
  rw [readGroup, readDay, printed, Date.parse?_text]
  rfl

theorem mapM_readGroup (dated : DatedGroups) :
    (dated.map printed).mapM readGroup = .ok dated := by
  rw [mapM_eq_ok_iff, List.forall₂_map_left_iff, List.forall₂_same]
  exact fun e _ => readGroup_printed e

/-- The days with their averages, by date. -/
def collectedDays (dated : DatedGroups) : List DayAverages :=
  (collectDays dated).toList.map (fun e => ⟨e.1, e.2⟩)

section Dated

variable {store : Store} {w : Window} {offset : Offset}

/-- Where the days of all rows have texts of their own, the groups are those of dates. -/
theorem exists_dated {rows : List SampleRow}
    (dated : ∀ r ∈ rows, ∀ e, dayPlaced? offset r = some e → ∃ date : Date, e.1.1 = date.text) :
    ∃ groups : DatedGroups, (groupRows offset rows).toList = groups.map printed := by
  have covered : (groupRows offset rows).toList ∈ Set.range (List.map printed) := by
    rw [Set.range_list_map]
    intro e member
    obtain ⟨⟨day, text⟩, s⟩ := e
    have found := Std.TreeMap.mem_toList_iff_getElem?_eq_some.mp member
    obtain ⟨filled, _⟩ := getElem?_groupRows.mp found
    obtain ⟨v, inside⟩ := List.exists_mem_of_ne_nil _ filled
    obtain ⟨entry, listed, _⟩ := List.mem_map.mp inside
    obtain ⟨placed, key⟩ := List.mem_filter.mp listed
    obtain ⟨r, row, here⟩ := List.mem_filterMap.mp placed
    obtain ⟨date, shown⟩ := dated r row entry here
    obtain rfl : day = date.text := by
      rw [← shown, of_decide_eq_true key]
    exact ⟨((date, text), s), rfl⟩
  obtain ⟨groups, same⟩ := covered
  exact ⟨groups, same.symm⟩

/-- A store answers the days of its groups, each of which it reads. -/
theorem dailyAverages_eq_ok_iff {days : List DayAverages} :
    store.dailyAverages w offset = .ok days ↔ ∃ dated : DatedGroups,
      (groupRows offset (store.rowsWithin w .ascending)).toList.mapM readGroup = .ok dated ∧
        days = collectedDays dated := by
  unfold dailyAverages
  dsimp only
  rw [foldl_add_eq, ← groupRows]
  cases (groupRows offset (store.rowsWithin w .ascending)).toList.mapM readGroup with
  | error e =>
    constructor
    · intro h
      cases h
    · intro h
      obtain ⟨_, read, _⟩ := h
      cases read
  | ok dated =>
    constructor
    · intro h
      exact ⟨dated, rfl, (Except.ok.inj h).symm⟩
    · intro h
      obtain ⟨_, read, rfl⟩ := h
      obtain rfl := Except.ok.inj read
      rfl

theorem dailyAverages_of_printed {dated : DatedGroups}
    (same : (groupRows offset (store.rowsWithin w .ascending)).toList = dated.map printed) :
    store.dailyAverages w offset = .ok (collectedDays dated) := by
  rw [dailyAverages_eq_ok_iff, same]
  exact ⟨dated, mapM_readGroup dated, rfl⟩

end Dated

/-- Of the groups whose texts read as a metric, the last gives the day's average. -/
theorem getElem?_collectDays (groups : DatedGroups) (date : Date) {m : Metric}
    (known : m ≠ .unknown) :
    ((collectDays groups)[date]?).bind (fun averages => averages m) =
      (groups.filter (fun e => e.1.1 = date ∧ Metric.ofText e.1.2 = m)).getLast?.map
        (fun e => groupAverage e.2) := by
  induction groups using List.reverseRecOn with
  | nil => simp [collectDays]
  | append_singleton groups e ih =>
    rw [List.filter_append]
    have last : collectDays (groups ++ [e]) =
        if Metric.ofText e.1.2 = .unknown then collectDays groups
        else (collectDays groups).alter e.1.1 (fun t =>
          some ((t.getD Table.empty).set (Metric.ofText e.1.2) (groupAverage e.2))) := by
      simp [collectDays]
    rw [last]
    by_cases unknown : Metric.ofText e.1.2 = .unknown
    · have other : ¬(e.1.1 = date ∧ Metric.ofText e.1.2 = m) :=
        fun h => known (h.2 ▸ unknown)
      rw [if_pos unknown, ih]
      simp [other]
    · rw [if_neg unknown, Std.TreeMap.getElem?_alter]
      by_cases day : e.1.1 = date
      · by_cases metric : Metric.ofText e.1.2 = m
        · simp [day, metric, Table.set_self]
        · have kept := Table.set_of_ne ((collectDays groups)[date]?.getD Table.empty)
            (groupAverage e.2) (Ne.symm metric)
          simp only [day, Std.LawfulEqOrd.compare_eq_iff_eq, if_true, Option.bind_some, kept]
          simp only [metric, and_false, decide_false, Bool.false_eq_true, not_false_eq_true,
            List.filter_cons_of_neg, List.filter_nil, List.append_nil]
          rw [← ih]
          cases (collectDays groups)[date]? <;> rfl
      · have elsewhere : compare e.1.1 date ≠ .eq :=
          fun h => day (Std.LawfulEqOrd.compare_eq_iff_eq.mp h)
        rw [if_neg elsewhere, ih]
        simp [day]

theorem mem_dated_iff {groups : DayGroups} {dated : DatedGroups}
    (same : groups.toList = dated.map printed) (e : (Date × String) × CompensatedSum) :
    e ∈ dated ↔ groups[(e.1.1.text, e.1.2)]? = some e.2 := by
  rw [← Std.TreeMap.mem_toList_iff_getElem?_eq_some, same]
  exact (List.mem_map_of_injective printed_injective).symm

/-- Where texts are the metrics' own names, a day and a metric have one group. -/
theorem getElem?_collectDays_of_named {groups : DayGroups}
    {dated : DatedGroups} (same : groups.toList = dated.map printed)
    (named : ∀ e ∈ dated, e.1.2 = (Metric.ofText e.1.2).name) (date : Date) {m : Metric}
    (known : m ≠ .unknown) :
    ((collectDays dated)[date]?).bind (fun averages => averages m) =
      (groups[(date.text, m.name)]?).map groupAverage := by
  rw [getElem?_collectDays dated date known]
  cases last : (dated.filter
      (fun e => e.1.1 = date ∧ Metric.ofText e.1.2 = m)).getLast? with
  | some e =>
    obtain ⟨inside, chosen⟩ := List.mem_filter.mp (List.mem_of_getLast? last)
    obtain ⟨day, metric⟩ := of_decide_eq_true chosen
    have found := (mem_dated_iff same e).mp inside
    rw [named e inside, day, metric] at found
    rw [found]
    rfl
  | none =>
    have empty := List.filter_eq_nil_iff.mp (List.getLast?_eq_none_iff.mp last)
    cases entry : groups[(date.text, m.name)]? with
    | none => rfl
    | some s =>
      have member := (mem_dated_iff same ((date, m.name), s)).mpr entry
      exact absurd (decide_eq_true ⟨rfl, Metric.ofText_name m⟩) (empty _ member)

end Store

namespace DayAverages

variable {conversions : Conversions} {day : DayAverages} {p : TrendPoint}

theorem mem_points :
    p ∈ day.points conversions ↔ p.date = day.date ∧ p.metric ≠ .unknown ∧
      ∃ v, day.averages p.metric = some v ∧ p.average = conversions.apply p.metric v := by
  simp only [points, Table.entries, List.mem_map, List.mem_filterMap, Option.map_eq_some_iff]
  constructor
  · intro h
    obtain ⟨_, ⟨m, known, v, average, rfl⟩, rfl⟩ := h
    exact ⟨rfl, (Metric.mem_known_iff m).mp known, v, average, rfl⟩
  · intro h
    obtain ⟨date, known, v, average, converted⟩ := h
    obtain ⟨d, m, a⟩ := p
    refine ⟨(m, v), ⟨m, (Metric.mem_known_iff m).mpr known, v, average, rfl⟩, ?_⟩
    exact TrendPoint.mk.injEq .. |>.mpr ⟨date.symm, rfl, converted.symm⟩

theorem points_keys_distinct (conversions : Conversions) (day : DayAverages) :
    (day.points conversions).Pairwise (fun a b => a.key ≠ b.key) := by
  have apart : Metric.known.Pairwise (fun a b => a ≠ b) := by decide
  rw [points, List.pairwise_map, Table.entries, List.pairwise_filterMap]
  refine apart.imp ?_
  intro a b different x found y found' same
  obtain ⟨_, _, rfl⟩ := Option.map_eq_some_iff.mp found
  obtain ⟨_, _, rfl⟩ := Option.map_eq_some_iff.mp found'
  exact different (congrArg BucketKey.metric same)

end DayAverages

/-- Some day among them is that date and has the average for the metric. -/
def DayAverages.Gives (days : List DayAverages) (date : Date) (m : Metric) (v : Float) : Prop :=
  ∃ day ∈ days, day.date = date ∧ day.averages m = some v

section Flattened

variable {conversions : Conversions} {days : List DayAverages}

theorem mem_flattenDays {p : TrendPoint} :
    p ∈ flattenDays conversions days ↔ ∃ day ∈ days, p ∈ day.points conversions := by
  rw [flattenDays, List.mem_mergeSort, List.mem_flatMap]

theorem mem_flattenDays_iff {p : TrendPoint} :
    p ∈ flattenDays conversions days ↔ p.metric ≠ .unknown ∧
      ∃ v, DayAverages.Gives days p.date p.metric v ∧
        p.average = conversions.apply p.metric v := by
  rw [mem_flattenDays]
  constructor
  · intro h
    obtain ⟨day, member, inside⟩ := h
    obtain ⟨date, known, v, average, converted⟩ := DayAverages.mem_points.mp inside
    exact ⟨known, v, ⟨day, member, date.symm, average⟩, converted⟩
  · intro h
    obtain ⟨known, v, ⟨day, member, date, average⟩, converted⟩ := h
    exact ⟨day, member, DayAverages.mem_points.mpr ⟨date.symm, known, v, average, converted⟩⟩

theorem flattenDays_sorted (conversions : Conversions) (days : List DayAverages) :
    (flattenDays conversions days).Pairwise (fun a b => (compare a.key b.key).isLE = true) := by
  apply List.pairwise_mergeSort
  · intro a b c first second
    exact Std.TransOrd.isLE_trans first second
  · intro a b
    rw [Std.OrientedOrd.eq_swap (a := b.key)]
    cases compare a.key b.key <;> rfl

theorem flattenDays_ascending (distinct : days.Pairwise (fun a b => a.date ≠ b.date)) :
    (flattenDays conversions days).Pairwise (fun a b => compare a.key b.key = .lt) := by
  have apart : (days.flatMap (DayAverages.points conversions)).Pairwise
      (fun a b => a.key ≠ b.key) := by
    rw [List.pairwise_flatMap]
    refine ⟨fun day _ => DayAverages.points_keys_distinct conversions day, distinct.imp ?_⟩
    intro day day' different a member b member' same
    have dates := congrArg BucketKey.date same
    apply different
    rw [← (DayAverages.mem_points.mp member).1, ← (DayAverages.mem_points.mp member').1]
    exact dates
  have sorted := flattenDays_sorted conversions days
  have kept : (flattenDays conversions days).Pairwise (fun a b => a.key ≠ b.key) :=
    (List.mergeSort_perm _ _).pairwise_iff (fun different => different.symm) |>.mpr apart
  refine (sorted.and kept).imp ?_
  intro a b h
  obtain ⟨before, different⟩ := h
  cases order : compare a.key b.key with
  | lt => rfl
  | eq => exact absurd (Std.LawfulEqOrd.eq_of_compare order) different
  | gt => rw [order] at before; cases before

/-- The point with another mean of its cell's values for an average. -/
def TrendPoint.withMean (conversions : Conversions) (entries : List (BucketKey × Float))
    (mean : List Float → Float) (p : TrendPoint) : TrendPoint :=
  { p with average := conversions.apply p.metric (mean (Bucket.cell entries p.key)) }

/-- Days that hold a mean of every cell flatten to the points of the cells, with that mean. -/
theorem flattenDays_eq_map_of_gives {offset : Offset} {samples : List Sample}
    (mean : List Float → Float) (distinct : days.Pairwise (fun a b => a.date ≠ b.date))
    (gives : ∀ date m, m ≠ .unknown → ∀ v, DayAverages.Gives days date m v ↔
      Bucket.cell (samples.filterMap (Sample.placed? offset)) ⟨date, m⟩ ≠ [] ∧
        v = mean (Bucket.cell (samples.filterMap (Sample.placed? offset)) ⟨date, m⟩)) :
    flattenDays conversions days = (Buckets.points conversions (Bucket.fill ∅ (samples.filterMap
      (Sample.placed? offset)))).map (TrendPoint.withMean conversions
        (samples.filterMap (Sample.placed? offset)) mean) := by
  have ascending := Buckets.points_ascending conversions
    (Bucket.fill ∅ (samples.filterMap (Sample.placed? offset)))
  refine KeyedFold.eq_of_ascending TrendPoint.key (flattenDays_ascending distinct)
    (List.pairwise_map.mpr ascending) ?_
  intro p
  rw [mem_flattenDays_iff, List.mem_map]
  constructor
  · intro h
    obtain ⟨known, v, given, converted⟩ := h
    obtain ⟨filled, rfl⟩ := (gives p.date p.metric known v).mp given
    let plain := (Bucket.ofValues
      (Bucket.cell (samples.filterMap (Sample.placed? offset)) p.key)).average
    let q : TrendPoint := { p with average := conversions.apply p.metric plain }
    have listed : q ∈ Buckets.points conversions
        (Bucket.fill ∅ (samples.filterMap (Sample.placed? offset))) :=
      mem_points_fill.mpr ⟨filled, rfl⟩
    refine ⟨q, listed, ?_⟩
    exact TrendPoint.mk.injEq .. |>.mpr ⟨rfl, rfl, converted.symm⟩
  · intro h
    obtain ⟨q, listed, rfl⟩ := h
    obtain ⟨filled, _⟩ := mem_points_fill.mp listed
    have known : q.metric ≠ .unknown := fun unknown => filled (cell_of_unknown samples unknown)
    exact ⟨known, _, (gives q.date q.metric known _).mpr ⟨filled, rfl⟩, rfl⟩

/-- Days that hold the average of every cell flatten to the points of the cells. -/
theorem flattenDays_eq_points_of_gives {offset : Offset} {samples : List Sample}
    (distinct : days.Pairwise (fun a b => a.date ≠ b.date))
    (gives : ∀ date m, m ≠ .unknown → ∀ v, DayAverages.Gives days date m v ↔
      Bucket.cell (samples.filterMap (Sample.placed? offset)) ⟨date, m⟩ ≠ [] ∧ v =
        (Bucket.ofValues (Bucket.cell (samples.filterMap (Sample.placed? offset)) ⟨date, m⟩)).average) :
    flattenDays conversions days =
      Buckets.points conversions (Bucket.fill ∅ (samples.filterMap (Sample.placed? offset))) := by
  let average (values : List Float) : Float := (Bucket.ofValues values).average
  rw [flattenDays_eq_map_of_gives average distinct gives]
  refine (List.map_congr_left ?_).trans (List.map_id _)
  intro p listed
  obtain ⟨_, converted⟩ := mem_points_fill.mp listed
  exact TrendPoint.mk.injEq .. |>.mpr ⟨rfl, rfl, converted.symm⟩

end Flattened

namespace Store

variable {dated : DatedGroups}

theorem collectedDays_distinct (dated : DatedGroups) :
    (collectedDays dated).Pairwise (fun a b => a.date ≠ b.date) := by
  rw [collectedDays, List.pairwise_map]
  exact KeyedFold.distinct_toList (collectDays dated)

theorem gives_collectedDays_iff {date : Date} {m : Metric} {v : Float} :
    DayAverages.Gives (collectedDays dated) date m v ↔
      ((collectDays dated)[date]?).bind (fun averages => averages m) = some v := by
  rw [Option.bind_eq_some_iff]
  constructor
  · intro h
    obtain ⟨day, member, rfl, average⟩ := h
    obtain ⟨⟨d, averages⟩, entry, rfl⟩ := List.mem_map.mp member
    exact ⟨averages, Std.TreeMap.mem_toList_iff_getElem?_eq_some.mp entry, average⟩
  · intro h
    obtain ⟨averages, found, average⟩ := h
    have entry := Std.TreeMap.mem_toList_iff_getElem?_eq_some.mpr found
    exact ⟨⟨date, averages⟩, List.mem_map.mpr ⟨_, entry, rfl⟩, rfl, average⟩

end Store
end FleetHealth
