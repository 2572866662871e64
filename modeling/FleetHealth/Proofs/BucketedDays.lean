import FleetHealth.Proofs.CalendarText
import FleetHealth.Proofs.StoredDays
import FleetHealth.Proofs.TrendOrder
/-!
What bucketing gives, day by day and metric by metric. A day has a point of a metric exactly if some
sample of the metric falls on it, and then one; its average is the mean of just these samples. An
offset only moves the moments: the days at an offset are those of moments as much later.
-/
namespace FleetHealth

theorem Date.dayNumber_civil (date : Date) : date.civil.dayNumber = date.dayNumber :=
  Civil.dayNumber_ofDayNumber date.dayNumber

namespace Sample

/-- A sample of that metric at a moment of that day, days counted from 1970-01-01. -/
def fallsOn (offset : Offset) (date : Date) (m : Metric) (s : Sample) : Bool :=
  s.metric = m && s.timestamp.any (fun t =>
    (t.millis + 1000 * offset.seconds) / 86400000 = date.civil.dayNumber)

/-- The sample has a moment and a metric. -/
def keyed (s : Sample) : Bool := s.timestamp.isSome && s.metric ≠ .unknown

/-- The sample with its moment, if it has one, so much later. -/
def later? (millis : Int) (s : Sample) : Option Sample :=
  match s.timestamp with
  | none => some s
  | some t => (t.add? millis).map (fun u => { s with timestamp := some u })

theorem fallsOn_iff {offset : Offset} {date : Date} {m : Metric} {s : Sample} :
    s.fallsOn offset date m = true ↔
      s.metric = m ∧ ∃ t, s.timestamp = some t ∧ t.localDate? offset = some date := by
  simp only [fallsOn, Bool.and_eq_true, decide_eq_true_eq, Option.any_eq_true, Date.dayNumber_civil,
    Instant.localDate?_eq_some_iff, eq_comm (a := date.dayNumber)]

theorem placed?_of_fallsOn {offset : Offset} {date : Date} {m : Metric} (known : m ≠ .unknown)
    {s : Sample} (inside : s.fallsOn offset date m = true) :
    s.placed? offset = some (⟨date, m⟩, s.value) := by
  obtain ⟨rfl, t, moment, day⟩ := fallsOn_iff.mp inside
  simp [placed?, moment, known, day]

theorem fallsOn_of_placed? {offset : Offset} {k : BucketKey} {s : Sample} {v : Float}
    (placed : s.placed? offset = some (k, v)) : s.fallsOn offset k.date k.metric = true := by
  obtain ⟨t, moment, placed⟩ := Option.bind_eq_some_iff.mp placed
  split at placed
  · cases placed
  · obtain ⟨date, day, same⟩ := Option.map_eq_some_iff.mp placed
    cases same
    exact fallsOn_iff.mpr ⟨rfl, t, moment, day⟩

/-- A cell holds the values of the samples of its metric that fall on its day. -/
theorem cell_placed? (offset : Offset) (date : Date) {m : Metric} (known : m ≠ .unknown)
    (samples : List Sample) :
    Bucket.cell (samples.filterMap (placed? offset)) ⟨date, m⟩ =
      (samples.filter (·.fallsOn offset date m)).map (·.value) := by
  apply Bucket.cell_filterMap
  · intro s _ inside
    exact placed?_of_fallsOn known inside
  · intro s _ outside v placed
    rw [fallsOn_of_placed? placed] at outside
    cases outside

end Sample

namespace Buckets

theorem add?_of_not_keyed (offset : Offset) (buckets : Buckets) {s : Sample}
    (unkeyed : s.keyed = false) : add? offset buckets s = some buckets := by
  unfold add?
  cases moment : s.timestamp with
  | none => rfl
  | some t =>
    have unknown : s.metric = .unknown := by simpa [Sample.keyed, moment] using unkeyed
    exact if_pos unknown

theorem foldlM_add?_filter_keyed (offset : Offset) (samples : List Sample) (start : Buckets) :
    (samples.filter Sample.keyed).foldlM (add? offset) start =
      samples.foldlM (add? offset) start := by
  induction samples generalizing start with
  | nil => rfl
  | cons s rest ih =>
    cases keyed : s.keyed with
    | true =>
      rw [List.filter_cons_of_pos keyed, List.foldlM_cons, List.foldlM_cons]
      exact congrArg _ (funext ih)
    | false =>
      rw [List.filter_cons_of_neg (by simp [keyed]), List.foldlM_cons,
        add?_of_not_keyed offset start keyed, ih]
      rfl

/- A moment and the moment the offset later are on one day, the one here and the other at UTC. -/
theorem add?_later (offset : Offset) (buckets : Buckets) {s s' : Sample}
    (later : s.later? (1000 * offset.seconds) = some s') :
    add? .utc buckets s' = add? offset buckets s := by
  unfold Sample.later? at later
  cases moment : s.timestamp with
  | none =>
    rw [moment] at later
    obtain rfl := Option.some.inj later
    simp [add?, moment]
  | some t =>
    rw [moment] at later
    obtain ⟨u, moved, rfl⟩ := Option.map_eq_some_iff.mp later
    have millis : u.millis = t.millis + 1000 * offset.seconds :=
      Instant.ofMillis?_eq_some_iff.mp moved
    have day : u.localDate? .utc = t.localDate? offset := by
      simp [Instant.localDate?, Offset.utc, millis]
    simp [add?, moment, day]

theorem foldlM_add?_later {offset : Offset} {samples shifted : List Sample}
    (later : List.Forall₂ (fun s s' => s.later? (1000 * offset.seconds) = some s') samples shifted)
    (start : Buckets) :
    shifted.foldlM (add? .utc) start = samples.foldlM (add? offset) start := by
  induction later generalizing start with
  | nil => rfl
  | cons first _ ih =>
    rw [List.foldlM_cons, List.foldlM_cons, add?_later offset start first]
    exact congrArg _ (funext ih)

end Buckets

section Definition

variable {conversions : Conversions} {offset : Offset} {samples : List Sample}

/-- Samples without a moment or a metric have no influence. -/
theorem bucketByDay?_congr {samples' : List Sample}
    (same : samples'.filter Sample.keyed = samples.filter Sample.keyed) :
    bucketByDay? conversions offset samples' = bucketByDay? conversions offset samples := by
  unfold bucketByDay?
  rw [← Buckets.foldlM_add?_filter_keyed, same, Buckets.foldlM_add?_filter_keyed]

theorem bucketByDay?_later {shifted : List Sample}
    (later : List.Forall₂ (fun s s' => s.later? (1000 * offset.seconds) = some s') samples shifted) :
    bucketByDay? conversions .utc shifted = bucketByDay? conversions offset samples := by
  unfold bucketByDay?
  rw [Buckets.foldlM_add?_later later]

/- The last moment is the last of the last day, so what has a day at an offset can be moved by it. -/
theorem exists_later
    (dated : ∀ s ∈ samples, ∀ t, s.timestamp = some t → ∃ date, t.localDate? offset = some date) :
    ∃ shifted,
      List.Forall₂ (fun s s' => s.later? (1000 * offset.seconds) = some s') samples shifted := by
  induction samples with
  | nil => exact ⟨[], .nil⟩
  | cons s rest ih =>
    obtain ⟨shifted, later⟩ := ih (fun x member => dated x (List.mem_cons_of_mem s member))
    suffices first : ∃ s', s.later? (1000 * offset.seconds) = some s' by
      obtain ⟨s', first⟩ := first
      exact ⟨s' :: shifted, .cons first later⟩
    cases moment : s.timestamp with
    | none => exact ⟨s, by simp [Sample.later?, moment]⟩
    | some t =>
      obtain ⟨date, day⟩ := dated s List.mem_cons_self t moment
      have number := Instant.localDate?_eq_some_iff.mp day
      have range := date.inRange
      have fits : -8334601228800000 ≤ t.millis + 1000 * offset.seconds ∧
          t.millis + 1000 * offset.seconds ≤ 8210266876799999 := by omega
      exact ⟨{ s with timestamp := some ⟨_, fits⟩ },
        by simp [Sample.later?, moment, Instant.add?, Instant.ofMillis?, fits]⟩

/-- The points of one day and one metric. -/
theorem filter_bucketed {points : List TrendPoint}
    (bucketed : bucketByDay? conversions offset samples = some points) (date : Date) {m : Metric}
    (known : m ≠ .unknown) :
    let values := (samples.filter (·.fallsOn offset date m)).map (·.value)
    points.filter (fun p => p.date = date ∧ p.metric = m) =
      if values = [] then [] else [⟨date, m, conversions.apply m (Bucket.mean values)⟩] := by
  intro values
  obtain ⟨_, rfl⟩ := bucketByDay?_eq_some_iff.mp bucketed
  have key : ∀ p : TrendPoint, p.date = date ∧ p.metric = m ↔ p.key = ⟨date, m⟩ := by
    intro p
    rw [TrendPoint.key, BucketKey.mk.injEq]
  have cell := Sample.cell_placed? offset date known samples
  simp only [key]
  by_cases empty : values = []
  · rw [if_pos empty, List.filter_eq_nil_iff]
    intro p member same
    have filled := (mem_points_fill.mp member).1
    rw [of_decide_eq_true same, cell] at filled
    exact filled empty
  · let p : TrendPoint := ⟨date, m, conversions.apply m (Bucket.mean values)⟩
    have member : p ∈ Buckets.points conversions
        (Bucket.fill ∅ (samples.filterMap (Sample.placed? offset))) := by
      refine mem_points_fill.mpr ⟨?_, ?_⟩
      · rw [show p.key = ⟨date, m⟩ from rfl, cell]
        exact empty
      · rw [show p.key = ⟨date, m⟩ from rfl, cell, Bucket.average_ofValues]
    rw [if_neg empty]
    exact KeyedFold.filter_key_of_ascending (Buckets.points_ascending conversions _) member

/-- Where every sample that needs a day has one, a day has one point of a metric if some sample of
the metric falls on it and none otherwise; the average is the mean of just these samples, converted.
Samples without a moment or a metric have no influence, and bucketing at an offset is bucketing at
UTC of samples as much later. -/
theorem buckets_by_definition (conversions : Conversions) {offset : Offset} {samples : List Sample}
    (datable : ∀ s ∈ samples, s.Datable offset) :
    ∃ points, bucketByDay? conversions offset samples = some points ∧
      points.Pairwise TrendPoint.Precedes ∧
      (∀ p ∈ points, p.metric ≠ .unknown) ∧
      (∀ date m, m ≠ .unknown →
        let values := (samples.filter (·.fallsOn offset date m)).map (·.value)
        points.filter (fun p => p.date = date ∧ p.metric = m) =
          if values = [] then [] else [⟨date, m, Bucket.mean values * (conversions m).getD 1.0⟩]) ∧
      (∀ samples', samples'.filter Sample.keyed = samples.filter Sample.keyed →
        bucketByDay? conversions offset samples' = some points) ∧
      (∀ shifted, List.Forall₂ (fun s s' => s.later? (1000 * offset.seconds) = some s')
          samples shifted → bucketByDay? conversions .utc shifted = some points) ∧
      ((∀ s ∈ samples, ∀ t, s.timestamp = some t → ∃ date, t.localDate? offset = some date) →
        ∃ shifted,
          List.Forall₂ (fun s s' => s.later? (1000 * offset.seconds) = some s') samples shifted) := by
  obtain ⟨points, bucketed⟩ :=
    Option.isSome_iff_exists.mp (isSome_bucketByDay?_iff.mpr datable)
  refine ⟨points, bucketed, bucketByDay?_ascending bucketed, bucketByDay?_known bucketed,
    fun date _ known => filter_bucketed bucketed date known, ?_, ?_, exists_later⟩
  · intro samples' same
    rw [bucketByDay?_congr same, bucketed]
  · intro shifted later
    rw [bucketByDay?_later later, bucketed]

end Definition

/- The first and the last moment of a leap day, an hour west of UTC and before 1970, the moment after
them, and two samples that count for no day. -/
theorem buckets_by_definition_of_leap_day :
    let sample (i : Int64) (m : Metric) (value : Float) (moment : Option Instant) :=
      Sample.mk i "bs-1" m value moment none
    let west : Offset := ⟨-3600, by decide⟩
    let samples := [sample 1 .powerDraw 5000.0 (some ⟨-57970800000, by decide⟩),
      sample 2 .powerDraw 4000.0 (some ⟨-57970800001, by decide⟩),
      sample 3 .powerDraw 3000.0 (some ⟨-58057200000, by decide⟩),
      sample 4 .powerDraw 9.0 none, sample 5 .unknown 9.0 (some ⟨-57970800001, by decide⟩)]
    let leapDay : Date := ⟨-672, by decide⟩
    leapDay.civil = ⟨1968, 2, 29⟩ ∧ (∀ s ∈ samples, s.Datable west) ∧
      ∃ points, bucketByDay? .builtin west samples = some points ∧
        points.filter (fun p => p.date = leapDay ∧ p.metric = .powerDraw) =
          [⟨leapDay, .powerDraw, 3.5⟩] := by
  intro sample west samples leapDay
  have datable : ∀ s ∈ samples, s.Datable west := by
    intro s member t moment _
    simp only [samples, List.mem_cons, List.not_mem_nil, or_false] at member
    rcases member with rfl | rfl | rfl | rfl | rfl <;> cases moment <;> decide
  obtain ⟨points, bucketed, _, _, of_day, _⟩ := buckets_by_definition .builtin datable
  have own := of_day leapDay .powerDraw (by decide)
  exact ⟨by decide, datable, points, bucketed, own.trans (by decide +kernel)⟩

end FleetHealth
