import FleetHealth.Trend
import FleetHealth.Proofs.KeyedFold
/-!
Daily buckets by their cells. A cell holds the values that fall into it, added from zero in their
order; bucketing gives one point per cell that is not empty, ascending by day and then by metric,
and succeeds exactly if every day it needs can be represented.
-/
namespace FleetHealth

namespace Bucket

section Cells

variable {κ : Type} {cmp : κ → κ → Ordering}

def cell [DecidableEq κ] (entries : List (κ × Float)) (k : κ) : List Float :=
  (entries.filter (fun e => e.1 = k)).map Prod.snd

theorem cell_cons [DecidableEq κ] (e : κ × Float) (entries : List (κ × Float)) (k : κ) :
    cell (e :: entries) k = if e.1 = k then e.2 :: cell entries k else cell entries k := by
  unfold cell
  by_cases same : e.1 = k
  · simp [same]
  · simp [same]

/-- A cell holds the values of the items that are placed in it. -/
theorem cell_filterMap {α : Type} [DecidableEq κ] {place : α → Option (κ × Float)} {k : κ}
    {inside : α → Bool} {value : α → Float} {xs : List α}
    (placed : ∀ x ∈ xs, inside x = true → place x = some (k, value x))
    (elsewhere : ∀ x ∈ xs, inside x = false → ∀ v, place x ≠ some (k, v)) :
    cell (xs.filterMap place) k = (xs.filter inside).map value := by
  induction xs with
  | nil => rfl
  | cons x rest ih =>
    have rest_same := ih (fun y member => placed y (List.mem_cons_of_mem x member))
      (fun y member => elsewhere y (List.mem_cons_of_mem x member))
    cases chosen : inside x with
    | true =>
      rw [List.filterMap_cons_some (placed x List.mem_cons_self chosen), cell_cons, if_pos rfl,
        List.filter_cons_of_pos chosen, List.map_cons, rest_same]
    | false =>
      rw [List.filter_cons_of_neg (by simp [chosen]), ← rest_same]
      cases entry : place x with
      | none => rw [List.filterMap_cons_none entry]
      | some e =>
        have other : e.1 ≠ k := by
          rintro rfl
          exact elsewhere x List.mem_cons_self chosen e.2 entry
        rw [List.filterMap_cons_some entry, cell_cons, if_neg other]

def ofValues (values : List Float) : Bucket := values.foldl add empty

def fill (buckets : Std.TreeMap κ Bucket cmp) (entries : List (κ × Float)) :
    Std.TreeMap κ Bucket cmp :=
  KeyedFold.fill add empty buckets entries

theorem foldl_add_eq (values : List Float) (b : Bucket) :
    values.foldl add b = ⟨values.foldl (· + ·) b.sum, b.count + values.length⟩ := by
  induction values generalizing b with
  | nil => rfl
  | cons v rest ih =>
    rw [List.foldl_cons, ih]
    simp only [add, List.foldl_cons, List.length_cons, mk.injEq, true_and]
    omega

theorem ofValues_eq (values : List Float) :
    ofValues values = ⟨values.foldl (· + ·) 0.0, values.length⟩ := by
  rw [ofValues, foldl_add_eq]
  simp [empty]

/-- The sum from zero, over the number. -/
def mean (values : List Float) : Float := values.foldl (· + ·) 0.0 / values.length.toFloat

theorem average_ofValues (values : List Float) : (ofValues values).average = mean values := by
  rw [ofValues_eq, average, mean]

/-- A cell has a bucket exactly if some value falls into it. -/
theorem getElem?_fill [DecidableEq κ] [Std.TransCmp cmp] [Std.LawfulEqCmp cmp]
    (entries : List (κ × Float)) (k : κ) (b : Bucket) :
    (fill (∅ : Std.TreeMap κ Bucket cmp) entries)[k]? = some b ↔
      cell entries k ≠ [] ∧ b = ofValues (cell entries k) :=
  KeyedFold.getElem?_fill add empty entries k b

end Cells

end Bucket

namespace Sample

/-- What a sample adds to which cell; samples without a timestamp or of an unknown metric add to
none. -/
def placed? (offset : Offset) (s : Sample) : Option (BucketKey × Float) :=
  s.timestamp.bind (fun t =>
    if s.metric = .unknown then none
    else (t.localDate? offset).map (fun date => (⟨date, s.metric⟩, s.value)))

/-- Where a sample needs a day, that day can be represented. -/
def Datable (offset : Offset) (s : Sample) : Prop :=
  ∀ t, s.timestamp = some t → s.metric ≠ .unknown → (t.localDate? offset).isSome = true

end Sample

theorem cell_of_unknown {offset : Offset} (samples : List Sample) {k : BucketKey}
    (unknown : k.metric = .unknown) :
    Bucket.cell (samples.filterMap (Sample.placed? offset)) k = [] := by
  rw [Bucket.cell, List.map_eq_nil_iff, List.filter_eq_nil_iff]
  intro e inside same
  have key : e.1 = k := of_decide_eq_true same
  obtain ⟨s, _, entry⟩ := List.mem_filterMap.mp inside
  obtain ⟨t, _, entry⟩ := Option.bind_eq_some_iff.mp entry
  split at entry
  · cases entry
  · rename_i known
    obtain ⟨date, _, rfl⟩ := Option.map_eq_some_iff.mp entry
    apply known
    rw [← unknown, ← key]

namespace Buckets

theorem add?_of_datable {offset : Offset} {s : Sample} (datable : s.Datable offset)
    (buckets : Buckets) :
    add? offset buckets s = some (Bucket.fill buckets (s.placed? offset).toList) := by
  unfold add? Sample.placed?
  cases moment : s.timestamp with
  | none => rfl
  | some t =>
    by_cases unknown : s.metric = .unknown
    · simp [unknown, Bucket.fill, KeyedFold.fill]
    · obtain ⟨date, day⟩ := Option.isSome_iff_exists.mp (datable t moment unknown)
      simp [unknown, day, Bucket.fill, KeyedFold.fill]

theorem add?_of_not_datable {offset : Offset} {s : Sample} (undatable : ¬s.Datable offset)
    (buckets : Buckets) : add? offset buckets s = none := by
  cases moment : s.timestamp with
  | none => exact absurd (fun t found => by rw [moment] at found; cases found) undatable
  | some t =>
    have known : s.metric ≠ .unknown := by
      intro unknown
      exact undatable (fun _ _ known => absurd unknown known)
    have no_day : t.localDate? offset = none := by
      refine Option.not_isSome_iff_eq_none.mp (fun day => undatable ?_)
      intro u found _
      rw [moment] at found
      cases found
      exact day
    simp [add?, moment, known, no_day]

theorem foldlM_add?_eq_some_iff {offset : Offset} {samples : List Sample} {start buckets : Buckets} :
    samples.foldlM (add? offset) start = some buckets ↔
      (∀ s ∈ samples, s.Datable offset) ∧
        buckets = Bucket.fill start (samples.filterMap (Sample.placed? offset)) := by
  induction samples generalizing start with
  | nil => simp [Bucket.fill, KeyedFold.fill, eq_comm]
  | cons s rest ih =>
    rw [List.foldlM_cons]
    by_cases datable : s.Datable offset
    · rw [add?_of_datable datable]
      simp only [Option.bind_eq_bind, Option.bind_some, ih, List.forall_mem_cons, datable,
        true_and, and_congr_right_iff]
      intro _
      have joined : Bucket.fill (Bucket.fill start (s.placed? offset).toList)
          (rest.filterMap (Sample.placed? offset)) =
          Bucket.fill start ((s :: rest).filterMap (Sample.placed? offset)) := by
        rw [List.filterMap_cons]
        cases s.placed? offset <;> rfl
      rw [joined]
    · rw [add?_of_not_datable datable]
      simp [datable]

/-- One point per bucket, in the order of the keys. -/
def points (conversions : Conversions) (buckets : Buckets) : List TrendPoint :=
  buckets.toList.map (fun e => ⟨e.1.date, e.1.metric, conversions.apply e.1.metric e.2.average⟩)

theorem points_ascending (conversions : Conversions) (buckets : Buckets) :
    (buckets.points conversions).Pairwise (fun a b => compare a.key b.key = .lt) := by
  rw [points, List.pairwise_map]
  have keys := buckets.ordered_keys_toList
  exact keys.imp (fun before => before)

theorem mem_points {conversions : Conversions} {buckets : Buckets} {p : TrendPoint} :
    p ∈ buckets.points conversions ↔
      ∃ b, buckets[p.key]? = some b ∧ p.average = conversions.apply p.metric b.average := by
  rw [points, List.mem_map]
  constructor
  · intro h
    obtain ⟨⟨k, b⟩, member, rfl⟩ := h
    exact ⟨b, Std.TreeMap.mem_toList_iff_getElem?_eq_some.mp member, rfl⟩
  · intro h
    obtain ⟨b, found, average⟩ := h
    refine ⟨(p.key, b), Std.TreeMap.mem_toList_iff_getElem?_eq_some.mpr found, ?_⟩
    obtain ⟨date, metric, value⟩ := p
    exact congrArg (TrendPoint.mk date metric) average.symm

end Buckets

theorem bucketByDay?_eq_some_iff {conversions : Conversions} {offset : Offset}
    {samples : List Sample} {points : List TrendPoint} :
    bucketByDay? conversions offset samples = some points ↔
      (∀ s ∈ samples, s.Datable offset) ∧ points = Buckets.points conversions
        (Bucket.fill ∅ (samples.filterMap (Sample.placed? offset))) := by
  unfold bucketByDay?
  rw [Option.map_eq_some_iff]
  constructor
  · intro h
    obtain ⟨buckets, filled, rfl⟩ := h
    obtain ⟨datable, rfl⟩ := Buckets.foldlM_add?_eq_some_iff.mp filled
    exact ⟨datable, rfl⟩
  · intro h
    obtain ⟨datable, rfl⟩ := h
    exact ⟨_, Buckets.foldlM_add?_eq_some_iff.mpr ⟨datable, rfl⟩, rfl⟩

theorem isSome_bucketByDay?_iff {conversions : Conversions} {offset : Offset}
    {samples : List Sample} :
    (bucketByDay? conversions offset samples).isSome = true ↔ ∀ s ∈ samples, s.Datable offset := by
  rw [Option.isSome_iff_exists]
  constructor
  · intro h
    obtain ⟨points, bucketed⟩ := h
    exact (bucketByDay?_eq_some_iff.mp bucketed).1
  · intro datable
    exact ⟨_, bucketByDay?_eq_some_iff.mpr ⟨datable, rfl⟩⟩

/-- The points of bucketed values: one for each cell that is not empty, its average converted. -/
theorem mem_points_fill {conversions : Conversions} {entries : List (BucketKey × Float)}
    {p : TrendPoint} :
    p ∈ Buckets.points conversions (Bucket.fill ∅ entries) ↔
      Bucket.cell entries p.key ≠ [] ∧ p.average =
        conversions.apply p.metric (Bucket.ofValues (Bucket.cell entries p.key)).average := by
  rw [Buckets.mem_points]
  constructor
  · intro h
    obtain ⟨b, found, average⟩ := h
    obtain ⟨filled, rfl⟩ := (Bucket.getElem?_fill entries p.key b).mp found
    exact ⟨filled, average⟩
  · intro h
    obtain ⟨filled, average⟩ := h
    exact ⟨_, (Bucket.getElem?_fill entries p.key _).mpr ⟨filled, rfl⟩, average⟩

end FleetHealth
