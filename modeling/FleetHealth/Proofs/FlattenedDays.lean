import Mathlib.Data.List.Dedup
import FleetHealth.Proofs.Binary64Quotients
import FleetHealth.Proofs.TrendOrder
/-!
Points taken apart by day and put together again. Averages bucketed without conversion, kept one
row a day in whatever order and flattened with conversions, are the averages bucketed with
conversions; and rows of different days flatten to their entries in the order of points.
-/
namespace FleetHealth

theorem Conversions.apply_empty (m : Metric) (value : Float) :
    Conversions.apply Table.empty m value = value := Binary64.times_one value

namespace DayAverages

/-- The averages of the points, one row for each of their dates. -/
def ofPoints (points : List TrendPoint) : List DayAverages :=
  (points.map (·.date)).dedup.map (fun date =>
    ⟨date, fun m => (points.find? (fun p => p.date = date ∧ p.metric = m)).map (·.average)⟩)

theorem ofPoints_distinct (points : List TrendPoint) :
    (ofPoints points).Pairwise (fun d e => d.date ≠ e.date) :=
  List.pairwise_map.mpr (List.nodup_dedup _)

/- Points of strictly ascending keys are found by their keys. -/
theorem find?_of_ascending {points : List TrendPoint}
    (ascending : points.Pairwise (fun p q => compare p.key q.key = .lt)) {p : TrendPoint}
    (member : p ∈ points) :
    points.find? (fun q => q.date = p.date ∧ q.metric = p.metric) = some p := by
  have own := KeyedFold.filter_key_of_ascending ascending member
  simp only [TrendPoint.key, BucketKey.mk.injEq] at own
  rw [← List.head?_filter, own, List.head?_cons]

/-- The rows hold the averages of the points, each under its date and metric. -/
theorem gives_ofPoints_iff {points : List TrendPoint}
    (ascending : points.Pairwise (fun p q => compare p.key q.key = .lt)) {date : Date} {m : Metric}
    {v : Float} : Gives (ofPoints points) date m v ↔ ⟨date, m, v⟩ ∈ points := by
  constructor
  · intro h
    obtain ⟨day, member, rfl, average⟩ := h
    obtain ⟨date, _, rfl⟩ := List.mem_map.mp member
    obtain ⟨⟨d, n, w⟩, found, rfl⟩ := Option.map_eq_some_iff.mp average
    obtain ⟨rfl, rfl⟩ : d = date ∧ n = m := by simpa using List.find?_some found
    exact List.mem_of_find?_eq_some found
  · intro member
    have listed : date ∈ (points.map (·.date)).dedup :=
      List.mem_dedup.mpr (List.mem_map_of_mem member)
    refine ⟨_, List.mem_map_of_mem listed, rfl, ?_⟩
    have found := find?_of_ascending ascending member
    exact congrArg (Option.map TrendPoint.average) found

theorem gives_perm {days days' : List DayAverages} (same : days'.Perm days) {date : Date}
    {m : Metric} {v : Float} : Gives days' date m v ↔ Gives days date m v := by
  simp only [Gives, same.mem_iff]

theorem distinct_perm {days days' : List DayAverages} (same : days'.Perm days)
    (distinct : days.Pairwise (fun d e => d.date ≠ e.date)) :
    days'.Pairwise (fun d e => d.date ≠ e.date) :=
  (same.pairwise_iff Ne.symm).mpr distinct

end DayAverages

section Rows

variable {conversions : Conversions} {offset : Offset} {samples : List Sample}
  {days days' : List DayAverages}

theorem bucketByDay?_of_rows {plain : List TrendPoint}
    (bucketed : bucketByDay? Table.empty offset samples = some plain)
    (rows : days.Perm (DayAverages.ofPoints plain)) :
    bucketByDay? conversions offset samples = some (flattenDays conversions days) := by
  obtain ⟨datable, rfl⟩ := bucketByDay?_eq_some_iff.mp bucketed
  refine bucketByDay?_eq_some_iff.mpr ⟨datable, flattenDays_eq_points_of_gives
    (DayAverages.distinct_perm rows (DayAverages.ofPoints_distinct _)) ?_⟩
  intro date m _ v
  rw [DayAverages.gives_perm rows,
    DayAverages.gives_ofPoints_iff (Buckets.points_ascending _ _), mem_points_fill,
    Conversions.apply_empty]
  rfl

theorem bucketByDay?_eq_none (missing : bucketByDay? Table.empty offset samples = none) :
    bucketByDay? conversions offset samples = none := by
  rw [← Option.not_isSome_iff_eq_none, isSome_bucketByDay?_iff] at missing ⊢
  exact missing

theorem eq_of_date (distinct : days.Pairwise (fun d e => d.date ≠ e.date)) {day other : DayAverages}
    (member : day ∈ days) (member' : other ∈ days) (same : day.date = other.date) : day = other :=
  List.inj_on_of_nodup_map (List.pairwise_map.mpr distinct) member member' same

/-- A row has one point for each entry of a known metric. -/
theorem filter_flattened (distinct : days.Pairwise (fun d e => d.date ≠ e.date)) {day : DayAverages}
    (member : day ∈ days) {m : Metric} (known : m ≠ .unknown) :
    (flattenDays conversions days).filter (fun p => p.date = day.date ∧ p.metric = m) =
      ((day.averages m).map (fun v => ⟨day.date, m, conversions.apply m v⟩)).toList := by
  cases entry : day.averages m with
  | none =>
    rw [Option.map_none, Option.toList_none, List.filter_eq_nil_iff]
    intro p inside same
    obtain ⟨date, rfl⟩ := of_decide_eq_true same
    obtain ⟨_, v, ⟨other, member', date', average⟩, _⟩ := mem_flattenDays_iff.mp inside
    obtain rfl := eq_of_date distinct member' member (date'.trans date)
    rw [entry] at average
    cases average
  | some v =>
    let p : TrendPoint := ⟨day.date, m, conversions.apply m v⟩
    have inside : p ∈ flattenDays conversions days :=
      mem_flattenDays_iff.mpr ⟨known, v, ⟨day, member, rfl, entry⟩, rfl⟩
    have own := KeyedFold.filter_key_of_ascending (flattenDays_ascending distinct) inside
    simp only [TrendPoint.key, BucketKey.mk.injEq] at own
    exact own

theorem flattenDays_perm (distinct : days.Pairwise (fun d e => d.date ≠ e.date))
    (same : days'.Perm days) : flattenDays conversions days' = flattenDays conversions days := by
  refine KeyedFold.eq_of_ascending TrendPoint.key
    (flattenDays_ascending (DayAverages.distinct_perm same distinct))
    (flattenDays_ascending distinct) ?_
  intro p
  simp only [mem_flattenDays, same.mem_iff]

end Rows

/-- Samples bucketed without conversion, their points kept one row a day in any order, flatten to
the samples bucketed with conversion. Rows of different days flatten to one point for each entry of
a known metric and to nothing else, in strictly ascending order, whatever the order of the rows. -/
theorem flattening_reproduces_bucketing :
    (∀ (conversions : Conversions) (offset : Offset) (samples : List Sample),
      match bucketByDay? Table.empty offset samples with
      | none => bucketByDay? conversions offset samples = none
      | some plain => ∀ days : List DayAverages, days.Perm (DayAverages.ofPoints plain) →
          bucketByDay? conversions offset samples = some (flattenDays conversions days)) ∧
    ∀ (conversions : Conversions) (days : List DayAverages),
      days.Pairwise (fun d e => d.date ≠ e.date) →
      (flattenDays conversions days).Pairwise TrendPoint.Precedes ∧
      (∀ p ∈ flattenDays conversions days,
        p.metric ≠ .unknown ∧ ∃ day ∈ days, p.date = day.date) ∧
      (∀ day ∈ days, ∀ m, m ≠ .unknown →
        (flattenDays conversions days).filter (fun p => p.date = day.date ∧ p.metric = m) =
          ((day.averages m).map (fun v => ⟨day.date, m, conversions.apply m v⟩)).toList) ∧
      ∀ days', days'.Perm days → flattenDays conversions days' = flattenDays conversions days := by
  constructor
  · intro conversions offset samples
    cases bucketed : bucketByDay? Table.empty offset samples with
    | none => exact bucketByDay?_eq_none bucketed
    | some plain => exact fun days rows => bucketByDay?_of_rows bucketed rows
  · intro conversions days distinct
    refine ⟨(flattenDays_ascending distinct).imp TrendPoint.precedes_of_compare, ?_,
      fun day member m known => filter_flattened distinct member known,
      fun days' same => flattenDays_perm distinct same⟩
    intro p inside
    obtain ⟨known, _, ⟨day, member, date, _⟩, _⟩ := mem_flattenDays_iff.mp inside
    exact ⟨known, day, member, date.symm⟩

/- Two days, the later row first; watts become kilowatts. -/
theorem flattening_reproduces_bucketing_of_two_days :
    let sample (i : Int64) (m : Metric) (value : Float) (moment : Instant) :=
      Sample.mk i "bs-1" m value (some moment) none
    let samples := [sample 1 .powerDraw 2000.0 .epoch, sample 2 .cpuLoad 40.0 .epoch,
      sample 3 .cpuLoad 60.0 ⟨86400000, by decide⟩]
    let first : Date := ⟨0, by decide⟩
    let second : Date := ⟨1, by decide⟩
    let plain : List TrendPoint :=
      [⟨first, .cpuLoad, 40.0⟩, ⟨first, .powerDraw, 2000.0⟩, ⟨second, .cpuLoad, 60.0⟩]
    let rows := (DayAverages.ofPoints plain).reverse
    bucketByDay? Table.empty .utc samples = some plain ∧
      bucketByDay? .builtin .utc samples = some (flattenDays .builtin rows) ∧
      (flattenDays .builtin rows).filter (fun p => p.date = first ∧ p.metric = .powerDraw) =
        [⟨first, .powerDraw, 2.0⟩] := by
  intro sample samples first second plain rows
  have bucketed : bucketByDay? Table.empty .utc samples = some plain := by decide +kernel
  have order : rows.Perm (DayAverages.ofPoints plain) := List.reverse_perm _
  have distinct := DayAverages.distinct_perm order (DayAverages.ofPoints_distinct plain)
  have flattened := flattening_reproduces_bucketing.1 .builtin .utc samples
  rw [bucketed] at flattened
  obtain ⟨_, _, entries, _⟩ := flattening_reproduces_bucketing.2 .builtin rows distinct
  have watts := entries _ (.tail _ (.head _)) .powerDraw (by decide)
  exact ⟨bucketed, flattened rows order, watts.trans (by decide +kernel)⟩

end FleetHealth
