import FleetHealth.Proofs.FleetRollup
/-!
Aggregates by definition. A key has one exactly if some sample of it has a metric with a rule, and
it says of the samples of its key what each statistic is defined to be. Samples of other keys have
no part in it, wherever they stand.
-/
namespace FleetHealth

/-- The samples of one key, in their order. -/
def keySamples (grouping : Grouping) (samples : List Sample) (k : AggregateKey) : List Sample :=
  samples.filter (fun s => grouping.key s = k)

/-- An aggregate has the statistics of these samples. Its extremes are bounds where every value is a
number. -/
structure Aggregate.IsOf (xs : List Sample) (a : Aggregate) : Prop where
  count : a.count = xs.length
  sum : a.sum = sumFromFirst (xs.map Sample.value)
  average : a.average = a.sum / xs.length.toFloat
  least : (∀ x ∈ xs, x.value.isNaN = false) →
    (∃ x ∈ xs, a.least = x.value) ∧ ∀ x ∈ xs, a.least ≤ x.value
  greatest : (∀ x ∈ xs, x.value.isNaN = false) →
    (∃ x ∈ xs, a.greatest = x.value) ∧ ∀ x ∈ xs, x.value ≤ a.greatest
  current : ∃ x, IsCurrent xs x ∧ a.current = x.value ∧ a.currentTimestamp = x.timestamp

section

variable {thresholds : Thresholds} {grouping : Grouping} {samples : List Sample}
  {k : AggregateKey} {a : Aggregate}

theorem groupOf_eq : groupOf thresholds grouping samples k =
    (keySamples grouping samples k).filter (fun s => thresholds.isCatalogued s.metric) := by
  rw [groupOf, keySamples, List.filter_filter, List.filter_filter]
  exact List.filter_congr (fun s _ => Bool.and_comm _ _)

theorem mem_groupOf_iff {s : Sample} : s ∈ groupOf thresholds grouping samples k ↔
    s ∈ samples ∧ grouping.key s = k ∧ thresholds.isCatalogued s.metric = true := by
  rw [groupOf_eq, keySamples, List.mem_filter, List.mem_filter, decide_eq_true_iff, and_assoc]

theorem emitted_iff : (aggregate thresholds grouping samples)[k]?.isSome = true ↔
    ∃ s ∈ samples, grouping.key s = k ∧ thresholds.isCatalogued s.metric = true := by
  rw [isSome_aggregate_iff]
  constructor
  · intro filled
    obtain ⟨s, inside⟩ := List.exists_mem_of_ne_nil _ filled
    exact ⟨s, mem_groupOf_iff.mp inside⟩
  · intro h
    obtain ⟨s, inside⟩ := h
    exact List.ne_nil_of_mem (mem_groupOf_iff.mpr inside)

/-- One sample with a rule speaks for its key, as all samples of a key have one metric. -/
theorem groupOf_of_emitted
    (emitted : (aggregate thresholds grouping samples)[k]?.isSome = true) :
    groupOf thresholds grouping samples k = keySamples grouping samples k := by
  obtain ⟨s, _, rfl, ruled⟩ := emitted_iff.mp emitted
  rw [groupOf_eq, List.filter_eq_self]
  intro x inside
  have same : grouping.key x = grouping.key s := of_decide_eq_true (List.mem_filter.mp inside).2
  rwa [← Grouping.metric_key grouping x, same, Grouping.metric_key]

/-- The aggregate of a key is a matter of the samples of that key alone. -/
theorem getElem?_aggregate_congr {samples' : List Sample}
    (same : keySamples grouping samples k = keySamples grouping samples' k) :
    (aggregate thresholds grouping samples)[k]? =
      (aggregate thresholds grouping samples')[k]? := by
  rw [getElem?_aggregate_groupOf, getElem?_aggregate_groupOf, groupOf_eq, groupOf_eq, same]

theorem isOf_of_aggregate (found : (aggregate thresholds grouping samples)[k]? = some a) :
    a.IsOf (keySamples grouping samples k) := by
  obtain ⟨t, rfl, sums, spans⟩ := tally_of_aggregate found
  rw [groupOf_of_emitted (Option.isSome_of_eq_some found)] at sums spans
  exact {
    count := sums.count
    sum := sums.sum
    average := by
      rw [← sums.count]
      rfl
    least := fun numbers => ⟨(spans numbers).least, (spans numbers).least_le⟩
    greatest := fun numbers => ⟨(spans numbers).greatest, (spans numbers).le_greatest⟩
    current := sums.current }

/-- Exactly the keys of samples with a rule have aggregates; each is of the samples of its key, and
the same for every list with these samples of the key in this order. -/
theorem aggregate_by_key (thresholds : Thresholds) (grouping : Grouping) (samples : List Sample)
    (k : AggregateKey) :
    ((aggregate thresholds grouping samples)[k]?.isSome = true ↔
      ∃ s ∈ samples, grouping.key s = k ∧ thresholds.isCatalogued s.metric = true) ∧
    (∀ a, (aggregate thresholds grouping samples)[k]? = some a →
      a.key = k ∧ a.IsOf (keySamples grouping samples k)) ∧
    (∀ samples', keySamples grouping samples k = keySamples grouping samples' k →
      (aggregate thresholds grouping samples)[k]? =
        (aggregate thresholds grouping samples')[k]?) :=
  ⟨emitted_iff, fun _ found => ⟨key_of_aggregate found, isOf_of_aggregate found⟩,
    fun _ same => getElem?_aggregate_congr same⟩

end

/- Between the samples of the second list stand some of another station and of a metric without a
rule. -/
theorem aggregate_by_key_of_interleaved :
    let first := Sample.mk 1 "bs-1" .latency 12.0 none none
    let second := Sample.mk 2 "bs-1" .latency 30.0 (some ⟨2000, by decide⟩) none
    let other := Sample.mk 3 "bs-2" .latency 99.0 (some ⟨3000, by decide⟩) none
    let bare := Sample.mk 4 "bs-1" .unknown 1.0 none none
    let k : AggregateKey := ⟨some "bs-1", .latency⟩
    let mixed := [other, first, bare, other, second]
    keySamples .station [first, second] k = keySamples .station mixed k ∧
      ∃ a, (aggregate .builtin .station [first, second])[k]? = some a ∧
        a.IsOf (keySamples .station [first, second] k) ∧
        (aggregate .builtin .station mixed)[k]? = some a := by
  intro first second other bare k mixed
  have same : keySamples .station [first, second] k = keySamples .station mixed k := by decide
  obtain ⟨emitted, statistics, unmoved⟩ := aggregate_by_key .builtin .station [first, second] k
  obtain ⟨a, found⟩ := Option.isSome_iff_exists.mp
    (emitted.mpr ⟨first, List.mem_cons_self, rfl, by decide⟩)
  exact ⟨same, a, found, (statistics a found).2, (unmoved mixed same).symm.trans found⟩

end FleetHealth
