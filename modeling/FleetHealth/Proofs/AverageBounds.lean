import FleetHealth.Proofs.Binary64Sums
import FleetHealth.Proofs.GroupStatistics
/-!
What bounds averages. The current value always lies between the extremes. The average lies between
those of as many copies of the least and of the greatest value, and between the extremes themselves
where no partial sum is rounded. Rounding and overflow can put it outside of them.
-/
namespace FleetHealth

open Binary64

/-- The average of a value taken a number of times. -/
def averageOfCopies (n : Nat) (v : Float) : Float :=
  sumFromFirst (List.replicate n v) / n.toFloat

/-- The statistics of an aggregate of these values are in their order. -/
structure Aggregate.Ordered (values : List Float) (a : Aggregate) : Prop where
  filled : 1 ≤ a.count
  current : a.least ≤ a.current ∧ a.current ≤ a.greatest
  copies : a.count ≤ 2 ^ 64 → averageOfCopies a.count a.least ≤ a.average ∧
    a.average ≤ averageOfCopies a.count a.greatest
  exact : a.count < 2 ^ 53 → SumsExactly values → a.least ≤ a.average ∧ a.average ≤ a.greatest

section Averages

variable {values : List Float} {least greatest : Float}

theorem forall₂_replicate {r : Float → Float → Prop} {v : Float} (each : ∀ x ∈ values, r v x) :
    List.Forall₂ r (List.replicate values.length v) values := by
  induction values with
  | nil => exact .nil
  | cons x rest ih =>
    refine .cons (each x List.mem_cons_self) (ih (fun y later => ?_))
    exact each y (List.mem_cons_of_mem x later)

variable (pos : 0 < values.length) (finite : ∀ x ∈ values, x.isFinite = true)
  (finite_least : least.isFinite = true) (finite_greatest : greatest.isFinite = true)
  (lower : ∀ x ∈ values, least ≤ x) (upper : ∀ x ∈ values, x ≤ greatest)

include pos finite finite_least finite_greatest lower upper

theorem average_between_copies (few : values.length ≤ 2 ^ 64) :
    averageOfCopies values.length least ≤ sumFromFirst values / values.length.toFloat ∧
      sumFromFirst values / values.length.toFloat ≤ averageOfCopies values.length greatest := by
  have terms := forall₂_replicate (r := fun x y => x ≤ y ∧ x.isFinite = true ∧ y.isFinite = true)
    (fun x inside => ⟨lower x inside, finite_least, finite x inside⟩)
  have terms' := forall₂_replicate (r := fun x y => y ≤ x ∧ y.isFinite = true ∧ x.isFinite = true)
    (fun x inside => ⟨upper x inside, finite x inside, finite_greatest⟩)
  have divisor := whole_isFinite pos few
  exact ⟨div_le_div (sumFromFirst_le terms) divisor (whole_pos pos few),
    div_le_div (sumFromFirst_le terms'.flip) divisor (whole_pos pos few)⟩

/-- The quotient of an exact sum is rounded once, and to neither side of a double beyond it. -/
theorem average_between_of_exact (small : values.length < 2 ^ 53) (exact : SumsExactly values) :
    least ≤ sumFromFirst values / values.length.toFloat ∧
      sumFromFirst values / values.length.toFloat ≤ greatest := by
  obtain ⟨sum, total⟩ := sumFromFirst_exact finite exact
  have counted : (0 : ℚ) < values.length := by exact_mod_cast pos
  have below := (values.map value).card_nsmul_le_sum (value least)
    (List.forall_mem_map.mpr (fun x inside =>
      (le_iff_value_le finite_least (finite x inside)).mp (lower x inside)))
  have above := (values.map value).sum_le_card_nsmul (value greatest)
    (List.forall_mem_map.mpr (fun x inside =>
      (le_iff_value_le (finite x inside) finite_greatest).mp (upper x inside)))
  rw [List.length_map, nsmul_eq_mul, ← total] at below above
  rw [← le_div_iff₀' counted] at below
  rw [← div_le_iff₀' counted] at above
  have rounded := rounded_div_count sum pos small
  have number := div_count_isNaN (isNaN_of_isFinite sum) pos (by omega)
  exact ⟨le_iff.mpr ⟨isNaN_of_isFinite finite_least, number,
      (rounded_value finite_least).mono rounded below⟩,
    le_iff.mpr ⟨number, isNaN_of_isFinite finite_greatest,
      rounded.mono (rounded_value finite_greatest) above⟩⟩

end Averages

theorem Aggregate.IsOf.ordered {xs : List Sample} {a : Aggregate} (isOf : a.IsOf xs)
    (finite : ∀ x ∈ xs, x.value.isFinite = true) : a.Ordered (xs.map Sample.value) := by
  have numbers : ∀ x ∈ xs, x.value.isNaN = false :=
    fun x inside => isNaN_of_isFinite (finite x inside)
  obtain ⟨s, current, shown, _⟩ := isOf.current
  obtain ⟨⟨x, inside, attained⟩, lower⟩ := isOf.least numbers
  obtain ⟨⟨y, inside', attained'⟩, upper⟩ := isOf.greatest numbers
  have listed := mem_of_isCurrent current
  have least : a.least.isFinite = true := attained ▸ finite x inside
  have greatest : a.greatest.isFinite = true := attained' ▸ finite y inside'
  have values : ∀ v ∈ xs.map Sample.value, v.isFinite = true := List.forall_mem_map.mpr finite
  have lower' : ∀ v ∈ xs.map Sample.value, a.least ≤ v := List.forall_mem_map.mpr lower
  have upper' : ∀ v ∈ xs.map Sample.value, v ≤ a.greatest := List.forall_mem_map.mpr upper
  have pos : 0 < (xs.map Sample.value).length := List.length_pos_of_mem (List.mem_map_of_mem listed)
  have count : a.count = (xs.map Sample.value).length := by rw [isOf.count, List.length_map]
  have average : a.average =
      sumFromFirst (xs.map Sample.value) / (xs.map Sample.value).length.toFloat := by
    rw [isOf.average, isOf.sum, List.length_map]
  refine ⟨count ▸ pos, ?_, fun few => ?_, fun small exact => ?_⟩
  · rw [shown]
    exact ⟨lower s listed, upper s listed⟩
  · rw [average, count]
    exact average_between_copies pos values least greatest lower' upper' (count ▸ few)
  · rw [average]
    exact average_between_of_exact pos values least greatest lower' upper' (count ▸ small) exact

/-- Every aggregate of finite values is of at least one sample, with the current value between the
extremes and the average between those of copies of the extremes; if no partial sum is rounded, it
is between the extremes. -/
theorem statistics_ordered (thresholds : Thresholds) (grouping : Grouping) (samples : List Sample)
    (finite : ∀ s ∈ samples, s.value.isFinite = true) (k : AggregateKey) (a : Aggregate)
    (found : (aggregate thresholds grouping samples)[k]? = some a) :
    a.Ordered ((keySamples grouping samples k).map Sample.value) :=
  (isOf_of_aggregate found).ordered
    (fun s inside => finite s (List.mem_of_mem_filter inside))

/- Between the three readings of the key stands one of another station. -/
theorem statistics_ordered_of_three :
    let sample (i : Int64) (station : String) (value : Float) :=
      Sample.mk i station .latency value none none
    let samples := [sample 1 "bs-1" 20.0, sample 2 "bs-2" 1.7e308, sample 3 "bs-1" 10.0,
      sample 4 "bs-1" 60.0]
    let k : AggregateKey := ⟨some "bs-1", .latency⟩
    (∀ s ∈ samples, s.value.isFinite = true) ∧
      SumsExactly ((keySamples .station samples k).map Sample.value) ∧
      ∃ a, (aggregate .builtin .station samples)[k]? = some a ∧ a.count < 2 ^ 53 ∧
        a.Ordered ((keySamples .station samples k).map Sample.value) := by
  intro sample samples k
  have finite : ∀ s ∈ samples, s.value.isFinite = true := by decide +kernel
  have whole : (keySamples .station samples k).map Sample.value =
      [20, 10, 60].map Nat.toFloat := by decide +kernel
  have exact : SumsExactly ((keySamples .station samples k).map Sample.value) :=
    whole ▸ sumsExactly_of_whole (by decide)
  have few : ((aggregate .builtin .station samples)[k]?).any (fun a => a.count < 2 ^ 53) = true := by
    decide +kernel
  obtain ⟨a, found, few⟩ := (Option.any_eq_true _ _).mp few
  exact ⟨finite, exact, a, found, of_decide_eq_true few,
    statistics_ordered .builtin .station samples finite k a found⟩

/- Three tenths add up to more than three tenths; two large readings to infinity. -/
theorem average_above_greatest :
    let sample (i : Int64) (m : Metric) (value : Float) := Sample.mk i "bs-1" m value none none
    let samples := [sample 1 .cpuLoad 0.1, sample 2 .cpuLoad 0.1, sample 3 .cpuLoad 0.1,
      sample 4 .latency 1.7e308, sample 5 .latency 1.7e308]
    (∀ s ∈ samples, s.value.isFinite = true) ∧
      (∃ a, (aggregate .builtin .station samples)[(⟨some "bs-1", .cpuLoad⟩ : AggregateKey)]? =
        some a ∧ a.average.isFinite = true ∧ a.greatest < a.average) ∧
      ∃ a, (aggregate .builtin .station samples)[(⟨some "bs-1", .latency⟩ : AggregateKey)]? =
        some a ∧ a.average.isInf = true ∧ a.greatest < a.average := by
  intro sample samples
  have rounded : ((aggregate .builtin .station samples)[(⟨some "bs-1", .cpuLoad⟩ :
      AggregateKey)]?).any (fun a => a.average.isFinite = true ∧ a.greatest < a.average) = true := by
    decide +kernel
  have overflown : ((aggregate .builtin .station samples)[(⟨some "bs-1", .latency⟩ :
      AggregateKey)]?).any (fun a => a.average.isInf = true ∧ a.greatest < a.average) = true := by
    decide +kernel
  obtain ⟨a, found, above⟩ := (Option.any_eq_true _ _).mp rounded
  obtain ⟨b, found', above'⟩ := (Option.any_eq_true _ _).mp overflown
  exact ⟨by decide +kernel, ⟨a, found, of_decide_eq_true above⟩, b, found',
    of_decide_eq_true above'⟩

end FleetHealth
