import Mathlib.Data.String.Basic
import FleetHealth.Proofs.TrendAgreement
/-!
Daily averages of metrics that rows spell in several ways. A store groups rows by their texts and of
a day's groups of one metric keeps the last, so no day and metric with a row goes without an
average; but the average is over one spelling's rows only, where bucketing takes it over all.
-/
namespace FleetHealth

namespace Store

/-- The groups of a day whose texts read as a metric. -/
def groupsOf (dated : DatedGroups) (date : Date) (m : Metric) : DatedGroups :=
  dated.filter (fun e => e.1.1 = date ∧ Metric.ofText e.1.2 = m)

/- Groups of one day come in the order of their texts. -/
theorem groupsOf_ascending {groups : DayGroups} {dated : DatedGroups}
    (same : groups.toList = dated.map printed) (date : Date) (m : Metric) :
    (groupsOf dated date m).Pairwise (fun a b => a.1.2 ≤ b.1.2) := by
  have ordered := groups.ordered_keys_toList
  rw [same, List.pairwise_map] at ordered
  refine (ordered.filter _).imp_of_mem ?_
  intro a b ma mb before
  obtain ⟨day, _⟩ := of_decide_eq_true (List.mem_filter.mp ma).2
  obtain ⟨day', _⟩ := of_decide_eq_true (List.mem_filter.mp mb).2
  have level : compareOn Prod.fst (printed a).1 (printed b).1 = .eq := by
    rw [compareOn, printed, printed, day, day']
    exact Std.LawfulEqOrd.compare_eq_iff_eq.mpr rfl
  rw [compareLex, level] at before
  exact le_of_lt (compare_lt_iff_lt.mp before)

section LastSpelling

variable {offset : Offset} {rows : List SampleRow} {dated : DatedGroups} {date : Date} {m : Metric}

/- A group of a metric has the rows spelled as some row of the metric is. -/
theorem cell_spelling (calendar : ∀ r ∈ rows, r.InCalendar offset) {text : String}
    (metric : Metric.ofText text = m) :
    Bucket.cell (rows.filterMap (dayPlaced? offset)) (date.text, text) = ((rows.filter
      (·.isOf offset date m)).filter (fun r => r.metricText = text)).map (·.value) := by
  have chosen : ∀ r : SampleRow, (r.day? offset = some date ∧ r.metricText = text) ↔
      r.metricText = text ∧ r.isOf offset date m = true := by
    intro r
    rw [SampleRow.isOf_iff]
    constructor
    · intro h
      obtain ⟨day, rfl⟩ := h
      exact ⟨rfl, day, metric⟩
    · intro h
      obtain ⟨spelled, day, _⟩ := h
      exact ⟨day, spelled⟩
  rw [cell_rows calendar, List.filter_filter]
  simp only [chosen, Bool.decide_and, Bool.decide_eq_true]

theorem mem_groupsOf_iff (calendar : ∀ r ∈ rows, r.InCalendar offset)
    (same : (groupRows offset rows).toList = dated.map printed) (date : Date) (m : Metric)
    (e : (Date × String) × CompensatedSum) :
    e ∈ groupsOf dated date m ↔
      ∃ r ∈ rows.filter (·.isOf offset date m), e = ((date, r.metricText), .ofValues
        (((rows.filter (·.isOf offset date m)).filter
          (fun x => x.metricText = r.metricText)).map (·.value))) := by
  obtain ⟨⟨d, text⟩, sum⟩ := e
  rw [groupsOf, List.mem_filter, mem_dated_iff same, getElem?_groupRows, decide_eq_true_iff]
  dsimp only
  constructor
  · intro h
    obtain ⟨⟨filled, rfl⟩, rfl, metric⟩ := h
    rw [cell_spelling calendar metric] at filled ⊢
    obtain ⟨v, inside⟩ := List.exists_mem_of_ne_nil _ filled
    obtain ⟨r, member, _⟩ := List.mem_map.mp inside
    obtain ⟨own, spelled⟩ := List.mem_filter.mp member
    obtain rfl := of_decide_eq_true spelled
    exact ⟨r, own, rfl⟩
  · intro h
    obtain ⟨r, own, entry⟩ := h
    obtain ⟨key, rfl⟩ := Prod.mk.inj entry
    obtain ⟨rfl, rfl⟩ := Prod.mk.inj key
    obtain ⟨_, metric⟩ := SampleRow.isOf_iff.mp (List.mem_filter.mp own).2
    rw [cell_spelling calendar metric]
    refine ⟨⟨?_, rfl⟩, rfl, metric⟩
    exact List.ne_nil_of_mem (List.mem_map_of_mem (List.mem_filter.mpr ⟨own, decide_eq_true rfl⟩))

/-- Where a day has rows of a metric, those of the last spelling give its average; where it has none
there is none. -/
theorem gives_iff (calendar : ∀ r ∈ rows, r.InCalendar offset)
    (same : (groupRows offset rows).toList = dated.map printed) (date : Date)
    (known : m ≠ .unknown) :
    let own := rows.filter (·.isOf offset date m)
    let days := collectedDays dated
    (own = [] ∧ ∀ v, ¬DayAverages.Gives days date m v) ∨
      ∃ r ∈ own, (∀ x ∈ own, x.metricText ≤ r.metricText) ∧ ∀ v, DayAverages.Gives days date m v ↔
        v = mean ((own.filter (fun x => x.metricText = r.metricText)).map (·.value)) := by
  intro own days
  let groups := groupsOf dated date m
  have members := mem_groupsOf_iff calendar same date m
  have shown : ∀ v, DayAverages.Gives days date m v ↔
      groups.getLast?.map (fun e => groupAverage e.2) = some v := by
    intro v
    rw [gives_collectedDays_iff, getElem?_collectDays _ date known]
    rfl
  cases last : groups.getLast? with
  | none =>
    refine .inl ⟨?_, ?_⟩
    · refine List.eq_nil_iff_forall_not_mem.mpr (fun r inside => ?_)
      have group : _ ∈ groups := (members _).mpr ⟨r, inside, rfl⟩
      rw [List.getLast?_eq_none_iff.mp last] at group
      cases group
    · intro v
      rw [shown, last, Option.map_none]
      exact fun h => nomatch h
  | some e =>
    obtain ⟨r, inside, rfl⟩ := (members e).mp (List.mem_of_getLast? last)
    refine .inr ⟨r, inside, ?_, ?_⟩
    · -- groups ascend by their texts, so the last one has the greatest
      intro x other
      have group : _ ∈ groups := (members _).mpr ⟨x, other, rfl⟩
      have ascending : groups.Pairwise _ := groupsOf_ascending same date m
      obtain ⟨front, split⟩ := List.getLast?_eq_some_iff.mp last
      rw [split] at group ascending
      rcases List.mem_append.mp group with earlier | itself
      · exact (List.pairwise_append.mp ascending).2.2 _ earlier _ (List.mem_singleton_self _)
      · exact le_of_eq (congrArg (fun e => e.1.2) (List.mem_singleton.mp itself))
    · intro v
      rw [shown, last, Option.map_some, Option.some.injEq, eq_comm]
      rfl

end LastSpelling

/-- No store has more rows than there are ids. -/
theorem size_le (store : Store) : store.samples.size ≤ 2 ^ 64 := by
  have distinct : store.samples.keys.Nodup :=
    store.samples.distinct_keys.imp (fun apart same =>
      apart (Std.LawfulEqOrd.compare_eq_iff_eq.mpr same))
  calc store.samples.size
      = (store.samples.keys.map (fun i => i.toBitVec.toFin)).length := by
        rw [List.length_map, Std.TreeMap.length_keys]
    _ ≤ Fintype.card (Fin (2 ^ 64)) :=
        (distinct.map (fun _ _ same =>
          Int64.toBitVec.inj (BitVec.toFin_inj.mp same))).length_le_card
    _ = 2 ^ 64 := Fintype.card_fin _

section Reads

variable {store : Store} {w : Window} {offset : Offset}

/-- The value is the mean a store gives, which is the plain one where the values add up exactly. -/
def Averages (v : Float) (values : List Float) : Prop :=
  v = mean values ∧ (Binary64.SumsExactly values → v = Bucket.mean values)

theorem averages_mean {own : List SampleRow} (filled : own ≠ [])
    (listed : own.Sublist (store.rowsWithin w .ascending))
    (finite : ∀ r ∈ store.rowsWithin w .ascending, r.value.isFinite = true) :
    Averages (mean (own.map (·.value))) (own.map (·.value)) := by
  refine ⟨rfl, fun exact => ?_⟩
  have size := store.size_le
  have rows := length_rowsWithin_le store w .ascending
  have fewer := listed.length_le
  apply mean_of_exact _ _ _ exact
  · exact fun none => filled (List.map_eq_nil_iff.mp none)
  · rw [List.length_map]
    omega
  · intro v inside
    obtain ⟨r, member, rfl⟩ := List.mem_map.mp inside
    exact finite r (listed.subset member)

/-- Samples of a read that cuts off no row are bucketed by all the rows of a day and a metric. -/
theorem mem_bucketed_iff (calendar : ∀ r ∈ store.rowsWithin w .ascending, r.InCalendar offset)
    {limit : UInt32} (complete : (store.rowsWithin w .ascending).length ≤ limit.toNat)
    (conversions : Conversions) :
    ∃ samples points, store.readSamples w limit .ascending = .ok samples ∧
      bucketByDay? conversions offset samples = some points ∧
      ∀ date m a, m ≠ .unknown → ((⟨date, m, a⟩ : TrendPoint) ∈ points ↔
        let own := (store.rowsWithin w .ascending).filter (·.isOf offset date m)
        own ≠ [] ∧ a = conversions.apply m (Bucket.mean (own.map (·.value)))) := by
  refine ⟨_, _, ?_, bucketByDay?_decoded conversions calendar, ?_⟩
  · rw [readSamples_eq, List.take_of_length_le complete]
  · intro date m a known
    rw [mem_points_fill, TrendPoint.key, cell_samples _ date known, Bucket.average_ofValues, ne_eq,
      List.map_eq_nil_iff]

end Reads

/-- Every day and metric with a row in the window has one average: that over the day's rows of the
metric in the last of its spellings, so over all of them if they are spelled alike. Bucketing the
samples of the window gives the average over all of them. -/
theorem dailyAverages_by_spelling {store : Store} {w : Window} {offset : Offset}
    (calendar : ∀ r ∈ store.rowsWithin w .ascending, r.InCalendar offset)
    (finite : ∀ r ∈ store.rowsWithin w .ascending, r.value.isFinite = true) :
    ∃ days, store.dailyAverages w offset = .ok days ∧
      days.Pairwise (fun a b => a.date ≠ b.date) ∧
      (∀ date m, m ≠ .unknown →
        let own := (store.rowsWithin w .ascending).filter (·.isOf offset date m)
        ((∃ v, DayAverages.Gives days date m v) ↔
          ∃ r ∈ store.rowsWithin w .ascending, r.isOf offset date m = true) ∧
        ∀ v, DayAverages.Gives days date m v →
          (∃ r ∈ own, (∀ x ∈ own, x.metricText ≤ r.metricText) ∧
            Averages v ((own.filter (fun x => x.metricText = r.metricText)).map (·.value))) ∧
          ((∀ x ∈ own, ∀ y ∈ own, x.metricText = y.metricText) →
            Averages v (own.map (·.value)))) ∧
      ∀ limit : UInt32, (store.rowsWithin w .ascending).length ≤ limit.toNat →
        ∀ conversions, ∃ samples points, store.readSamples w limit .ascending = .ok samples ∧
          bucketByDay? conversions offset samples = some points ∧
          ∀ date m a, m ≠ .unknown → ((⟨date, m, a⟩ : TrendPoint) ∈ points ↔
            let own := (store.rowsWithin w .ascending).filter (·.isOf offset date m)
            own ≠ [] ∧ a = conversions.apply m (Bucket.mean (own.map (·.value)))) := by
  obtain ⟨dated, same⟩ := exists_dated_of_calendar calendar
  refine ⟨_, dailyAverages_of_printed same, collectedDays_distinct dated, ?_,
    fun _ complete => mem_bucketed_iff calendar complete⟩
  intro date m known own
  rcases gives_iff calendar same date known with ⟨bare, hidden⟩ | ⟨r, inside, last, shown⟩
  · refine ⟨⟨?_, ?_⟩, fun v found => absurd found (hidden v)⟩
    · intro h
      obtain ⟨v, found⟩ := h
      exact absurd found (hidden v)
    · intro h
      obtain ⟨r, listed, chosen⟩ := h
      exact absurd chosen (List.filter_eq_nil_iff.mp bare r listed)
  · let spelled := own.filter (fun x => x.metricText = r.metricText)
    have filled : spelled ≠ [] :=
      List.ne_nil_of_mem (List.mem_filter.mpr ⟨inside, decide_eq_true rfl⟩)
    have within : spelled.Sublist (store.rowsWithin w .ascending) :=
      List.filter_sublist.trans List.filter_sublist
    refine ⟨⟨fun _ => ⟨r, List.mem_filter.mp inside⟩, fun _ => ⟨_, (shown _).mpr rfl⟩⟩, ?_⟩
    intro v found
    have average : Averages v (spelled.map (·.value)) :=
      (shown v).mp found ▸ averages_mean filled within finite
    refine ⟨⟨r, inside, last, average⟩, ?_⟩
    intro alike
    have all : spelled = own :=
      List.filter_eq_self.mpr (fun x member => decide_eq_true (alike x member r inside))
    exact all ▸ average

namespace TwoSpellings

/- Two rows of one day and metric, one with its name in capitals. -/
def rows : List SampleRow :=
  [⟨1, "bs-1", "latency", 10.0, some 0, none⟩, ⟨2, "bs-1", "LATENCY", 30.0, some 1000, none⟩]

def store : Store := ⟨∅, rows.foldl (fun kept r => kept.insert r.id r) ∅⟩

def window : Window := ⟨.epoch, ⟨2000, by decide⟩⟩

def day : Date := ⟨0, by decide⟩

theorem rowsWithin_eq : store.rowsWithin window .ascending = rows := by
  have values : store.samples.values.filter (·.isWithin window) = rows := by decide +kernel
  rw [rowsWithin, values]
  exact List.mergeSort_of_pairwise (by decide +kernel)

theorem inCalendar : ∀ r ∈ store.rowsWithin window .ascending, r.InCalendar .utc := by
  intro r member
  rw [rowsWithin_eq] at member
  simp only [rows, List.mem_cons, List.not_mem_nil, or_false] at member
  rcases member with rfl | rfl
  · exact ⟨_, day, rfl, by decide, rfl, by decide⟩
  · exact ⟨_, day, rfl, by decide, rfl, by decide⟩

theorem isFinite : ∀ r ∈ store.rowsWithin window .ascending, r.value.isFinite = true := by
  rw [rowsWithin_eq]
  decide +kernel

end TwoSpellings

open TwoSpellings in
theorem dailyAverages_by_spelling_of_two :
    (∀ r ∈ store.rowsWithin window .ascending, r.InCalendar .utc) ∧
    (∀ r ∈ store.rowsWithin window .ascending, r.value.isFinite = true) ∧
    ∃ days v samples points a, store.dailyAverages window .utc = .ok days ∧
      DayAverages.Gives days day .latency v ∧
      store.readSamples window 10 .ascending = .ok samples ∧
      bucketByDay? .builtin .utc samples = some points ∧ ⟨day, .latency, a⟩ ∈ points := by
  obtain ⟨days, answered, _, shown, bucketed⟩ := dailyAverages_by_spelling inCalendar isFinite
  have listed : ∃ r ∈ store.rowsWithin window .ascending, r.isOf .utc day .latency = true := by
    rw [rowsWithin_eq]
    decide +kernel
  obtain ⟨present, _⟩ := shown day .latency (by decide)
  obtain ⟨v, found⟩ := present.mpr listed
  have complete : (store.rowsWithin window .ascending).length ≤ UInt32.toNat 10 := by
    rw [rowsWithin_eq]
    decide
  obtain ⟨samples, points, read, cut, members⟩ := bucketed 10 complete .builtin
  have filled : (store.rowsWithin window .ascending).filter (·.isOf .utc day .latency) ≠ [] := by
    rw [rowsWithin_eq]
    decide +kernel
  have point := (members day .latency _ (by decide)).mpr ⟨filled, rfl⟩
  exact ⟨inCalendar, isFinite, days, v, samples, points, _, answered, found, read, cut, point⟩

open TwoSpellings in
/- Small letters come after capitals, so the row in capitals is not counted. -/
theorem dailyAverages_of_capitals :
    (∀ r ∈ store.rowsWithin window .ascending, r.InCalendar .utc ∧ r.value.isFinite = true) ∧
    Binary64.SumsExactly (((store.rowsWithin window .ascending).filter
      (·.isOf .utc day .latency)).map (·.value)) ∧
    Bucket.mean (((store.rowsWithin window .ascending).filter
      (·.isOf .utc day .latency)).map (·.value)) = 20.0 ∧
    ∃ days, store.dailyAverages window .utc = .ok days ∧
      ∀ v, DayAverages.Gives days day .latency v ↔ v = 10.0 := by
  obtain ⟨dated, same⟩ := exists_dated_of_calendar inCalendar
  refine ⟨fun r member => ⟨inCalendar r member, isFinite r member⟩, ?_, ?_, _,
    dailyAverages_of_printed same, ?_⟩
  · have whole : (rows.filter (·.isOf .utc day .latency)).map (·.value) =
        [10, 30].map Nat.toFloat := by decide +kernel
    rw [rowsWithin_eq, whole]
    exact Binary64.sumsExactly_of_whole (by decide)
  · rw [rowsWithin_eq]
    decide +kernel
  · have calendar := inCalendar
    rw [rowsWithin_eq] at calendar same
    have both : rows.filter (·.isOf .utc day .latency) = rows := by decide +kernel
    have spellings := gives_iff calendar same day (m := .latency) (by decide)
    rw [both] at spellings
    rcases spellings with ⟨bare, _⟩ | ⟨r, inside, last, shown⟩
    · cases bare
    · have small : r.metricText = "latency" := by
        simp only [rows, List.mem_cons, List.not_mem_nil, or_false] at inside
        rcases inside with rfl | rfl
        · rfl
        · exact absurd (last _ List.mem_cons_self) (by decide)
      have average : mean ((rows.filter
          (fun x => x.metricText = "latency")).map (·.value)) = 10.0 := by decide +kernel
      intro v
      rw [shown, small, average]

end Store
end FleetHealth
