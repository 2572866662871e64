import FleetHealth.Aggregate
import FleetHealth.Proofs.KeyedFold
/-!
Aggregates by the samples of their key. The sum is taken from the left, and the current value is
that of the first among the latest samples.
-/
namespace FleetHealth

/-- The sum from the left, of at least one value. -/
def sumFromFirst : List Float → Float
  | [] => 0.0
  | v :: rest => rest.foldl (· + ·) v

/-- The first of the samples with the greatest timestamp, or the first of all if none has one. -/
def IsCurrent (xs : List Sample) (s : Sample) : Prop :=
  ∃ before after, xs = before ++ s :: after ∧
    match s.timestamp with
    | some t =>
      (∀ x ∈ before, ∀ u, x.timestamp = some u → u < t) ∧
        ∀ x ∈ after, ∀ u, x.timestamp = some u → u ≤ t
    | none => before = [] ∧ ∀ x ∈ after, x.timestamp = none

/-- What a tally keeps of the samples it has seen. -/
structure Tally.Sums (xs : List Sample) (t : Tally) : Prop where
  sum : t.sum = sumFromFirst (xs.map Sample.value)
  count : t.count = xs.length
  current : ∃ s, IsCurrent xs s ∧ t.current = s.value ∧ t.currentTimestamp = s.timestamp

theorem sumFromFirst_concat {values : List Float} (filled : values ≠ []) (v : Float) :
    sumFromFirst (values ++ [v]) = sumFromFirst values + v := by
  cases values with
  | nil => exact absurd rfl filled
  | cons first rest => simp [sumFromFirst]

section Current

variable {xs : List Sample} {s x : Sample}

theorem ne_nil_of_isCurrent (current : IsCurrent xs s) : xs ≠ [] := by
  obtain ⟨before, after, rfl, _⟩ := current
  simp

theorem isCurrent_first (s : Sample) : IsCurrent [s] s := by
  refine ⟨[], [], rfl, ?_⟩
  cases s.timestamp with
  | none => exact ⟨rfl, fun _ inside => absurd inside List.not_mem_nil⟩
  | some t =>
    exact ⟨fun _ inside => absurd inside List.not_mem_nil,
      fun _ inside => absurd inside List.not_mem_nil⟩

theorem isCurrent_of_newer (current : IsCurrent xs s)
    (newer : isNewer x.timestamp s.timestamp = true) : IsCurrent (xs ++ [x]) x := by
  obtain ⟨before, after, rfl, order⟩ := current
  refine ⟨before ++ s :: after, [], rfl, ?_⟩
  cases moment : x.timestamp with
  | none => simp [isNewer, moment] at newer
  | some u =>
    refine ⟨?_, fun _ inside => absurd inside List.not_mem_nil⟩
    intro y inside v found
    cases best : s.timestamp with
    | none =>
      -- no sample so far has a timestamp
      simp only [best] at order
      obtain ⟨rfl, silent⟩ := order
      rcases List.mem_cons.mp inside with rfl | later
      · rw [best] at found
        cases found
      · rw [silent y later] at found
        cases found
    | some t =>
      simp only [best, moment, isNewer, decide_eq_true_eq] at newer order
      have latest : v ≤ t := by
        rcases List.mem_append.mp inside with earlier | later
        · exact Int.le_of_lt (order.1 y earlier v found)
        · rcases List.mem_cons.mp later with rfl | later
          · rw [best] at found
            cases found
            exact Int.le_refl _
          · exact order.2 y later v found
      exact Int.lt_of_le_of_lt latest newer

theorem isCurrent_of_older (current : IsCurrent xs s)
    (older : isNewer x.timestamp s.timestamp = false) : IsCurrent (xs ++ [x]) s := by
  obtain ⟨before, after, rfl, order⟩ := current
  refine ⟨before, after ++ [x], by simp, ?_⟩
  cases best : s.timestamp with
  | none =>
    simp only [best] at order
    refine ⟨order.1, ?_⟩
    intro y inside
    rcases List.mem_append.mp inside with earlier | last
    · exact order.2 y earlier
    · obtain rfl := List.mem_singleton.mp last
      cases moment : y.timestamp with
      | none => rfl
      | some u => simp [isNewer, moment, best] at older
  | some t =>
    simp only [best] at order
    refine ⟨order.1, ?_⟩
    intro y inside u found
    rcases List.mem_append.mp inside with earlier | last
    · exact order.2 y earlier u found
    · obtain rfl := List.mem_singleton.mp last
      simp only [isNewer, found, best, decide_eq_false_iff_not] at older
      exact Int.not_lt.mp older

theorem mem_of_isCurrent (current : IsCurrent xs s) : s ∈ xs := by
  obtain ⟨before, after, rfl, _⟩ := current
  exact List.mem_append_right _ List.mem_cons_self

theorem isCurrent_latest (current : IsCurrent xs s) (inside : x ∈ xs) {u : Instant}
    (dated : x.timestamp = some u) : ∃ t, s.timestamp = some t ∧ u ≤ t := by
  obtain ⟨before, after, rfl, order⟩ := current
  rw [List.mem_append, List.mem_cons] at inside
  cases best : s.timestamp with
  | none =>
    simp only [best] at order
    obtain ⟨rfl, silent⟩ := order
    rcases inside with earlier | rfl | later
    · cases earlier
    · rw [best] at dated
      cases dated
    · rw [silent x later] at dated
      cases dated
  | some t =>
    simp only [best] at order
    refine ⟨t, rfl, ?_⟩
    rcases inside with earlier | rfl | later
    · exact Int.le_of_lt (order.1 x earlier u dated)
    · rw [best] at dated
      cases dated
      exact Int.le_refl _
    · exact order.2 x later u dated

/-- The current sample is also current among fewer, if it is one of them. -/
theorem isCurrent_filter (current : IsCurrent xs s) {p : Sample → Bool} (chosen : p s = true) :
    IsCurrent (xs.filter p) s := by
  obtain ⟨before, after, rfl, order⟩ := current
  refine ⟨before.filter p, after.filter p, ?_, ?_⟩
  · rw [List.filter_append, List.filter_cons_of_pos chosen]
  · cases best : s.timestamp with
    | none =>
      simp only [best] at order
      obtain ⟨rfl, silent⟩ := order
      exact ⟨rfl, fun x inside => silent x (List.mem_filter.mp inside).1⟩
    | some t =>
      simp only [best] at order
      exact ⟨fun x inside => order.1 x (List.mem_filter.mp inside).1,
        fun x inside => order.2 x (List.mem_filter.mp inside).1⟩

/- The samples before and after a current one. -/
def Leads (before after : List Sample) (s : Sample) : Prop :=
  match s.timestamp with
  | some t =>
    (∀ x ∈ before, ∀ u, x.timestamp = some u → u < t) ∧
      ∀ x ∈ after, ∀ u, x.timestamp = some u → u ≤ t
  | none => before = [] ∧ ∀ x ∈ after, x.timestamp = none

theorem isCurrent_iff :
    IsCurrent xs s ↔ ∃ before after, xs = before ++ s :: after ∧ Leads before after s := Iff.rfl

/- What comes before a current sample is older than it. -/
theorem Leads.not_isCurrent {before after : List Sample} (leads : Leads before after s)
    (inside : x ∈ before) : ¬IsCurrent (before ++ s :: after) x := by
  intro current
  unfold Leads at leads
  cases moment : s.timestamp with
  | none =>
    simp only [moment] at leads
    rw [leads.1] at inside
    cases inside
  | some t =>
    simp only [moment] at leads
    have listed : s ∈ before ++ s :: after := List.mem_append_right _ List.mem_cons_self
    obtain ⟨u, dated, latest⟩ := isCurrent_latest current listed moment
    exact absurd latest (Int.not_le.mpr (leads.1 x inside u dated))

theorem isCurrent_unique (current : IsCurrent xs s) (current' : IsCurrent xs x) : s = x := by
  obtain ⟨before, after, rfl, leads⟩ := isCurrent_iff.mp current
  obtain ⟨before', after', split, leads'⟩ := isCurrent_iff.mp current'
  rcases List.append_eq_append_iff.mp split with ⟨middle, longer, rest⟩ | ⟨middle, longer, rest⟩
  · cases middle with
    | nil => exact (List.cons.inj rest).1
    | cons y middle =>
      obtain rfl := (List.cons.inj rest).1
      have inside : s ∈ before' := longer ▸ List.mem_append_right _ List.mem_cons_self
      exact absurd (split ▸ current) (leads'.not_isCurrent inside)
  · cases middle with
    | nil => exact (List.cons.inj rest).1.symm
    | cons y middle =>
      obtain rfl := (List.cons.inj rest).1
      have inside : x ∈ before := longer ▸ List.mem_append_right _ List.mem_cons_self
      exact absurd current' (leads.not_isCurrent inside)

end Current

namespace Tally

theorem sums_first (s : Sample) : (first s).Sums [s] :=
  ⟨rfl, rfl, s, isCurrent_first s, rfl, rfl⟩

theorem sums_add {xs : List Sample} {t : Tally} (sums : t.Sums xs) (x : Sample) :
    (t.add x).Sums (xs ++ [x]) := by
  obtain ⟨s, current, value, moment⟩ := sums.current
  have filled : xs.map Sample.value ≠ [] := by
    rw [ne_eq, List.map_eq_nil_iff]
    exact ne_nil_of_isCurrent current
  refine ⟨?_, ?_, ?_⟩
  · rw [List.map_append, List.map_singleton, sumFromFirst_concat filled, ← sums.sum]
    rfl
  · rw [List.length_append, List.length_singleton, ← sums.count]
    rfl
  · cases newer : isNewer x.timestamp s.timestamp with
    | true =>
      exact ⟨x, isCurrent_of_newer current newer, by simp [add, moment, newer],
        by simp [add, moment, newer]⟩
    | false =>
      exact ⟨s, isCurrent_of_older current newer, by simp [add, moment, newer, value],
        by simp [add, moment, newer]⟩

theorem sums_foldl {xs ys : List Sample} {t : Tally} (sums : t.Sums xs) :
    ∃ u, ys.foldl extend (some t) = some u ∧ u.Sums (xs ++ ys) := by
  induction ys generalizing xs t with
  | nil => exact ⟨t, rfl, by rwa [List.append_nil]⟩
  | cons y rest ih =>
    obtain ⟨u, folded, sums'⟩ := ih (sums_add sums y)
    exact ⟨u, folded, by rwa [List.append_assoc, List.singleton_append] at sums'⟩

theorem foldl_extend_of_ne_nil {xs : List Sample} (filled : xs ≠ []) :
    ∃ t, xs.foldl extend none = some t ∧ t.Sums xs := by
  cases xs with
  | nil => exact absurd rfl filled
  | cons x rest => exact sums_foldl (sums_first x)

end Tally

section Aggregates

variable (thresholds : Thresholds) (grouping : Grouping) (samples : List Sample) {k : AggregateKey}

theorem getElem?_aggregate_eq :
    (aggregate thresholds grouping samples)[k]? =
      (((samples.filter (fun s => thresholds.isCatalogued s.metric)).filter
        (fun s => grouping.key s = k)).foldl Tally.extend none).map (Tally.finish k) := by
  have filtered : samples.foldl (Tallies.add thresholds grouping) ∅ =
      (samples.filter (fun s => thresholds.isCatalogued s.metric)).foldl
        (fun ts s => ts.alter (grouping.key s) (fun t => Tally.extend t s)) ∅ := by
    rw [List.foldl_filter]
    rfl
  rw [aggregate, Std.TreeMap.getElem?_map, filtered, KeyedFold.getElem?_foldl_alter,
    Std.TreeMap.getElem?_emptyc]

theorem Grouping.metric_key (s : Sample) : (grouping.key s).metric = s.metric := by
  cases grouping <;> rfl

/-- The aggregate of a key is the tally of the samples of that key, if its metric has a rule. -/
theorem getElem?_aggregate (ruled : thresholds.isCatalogued k.metric = true) :
    (aggregate thresholds grouping samples)[k]? =
      ((samples.filter (fun s => grouping.key s = k)).foldl Tally.extend none).map
        (Tally.finish k) := by
  rw [getElem?_aggregate_eq, List.filter_filter]
  congr 2
  refine List.filter_congr (fun s _ => ?_)
  by_cases same : grouping.key s = k
  · rw [← same, Grouping.metric_key] at ruled
    simp [same, ruled]
  · simp [same]

theorem getElem?_aggregate_of_not_catalogued (bare : thresholds.isCatalogued k.metric = false) :
    (aggregate thresholds grouping samples)[k]? = none := by
  have silent : (samples.filter (fun s => thresholds.isCatalogued s.metric)).filter
      (fun s => grouping.key s = k) = [] := by
    rw [List.filter_filter, List.filter_eq_nil_iff]
    intro s _
    by_cases same : grouping.key s = k
    · rw [← same, Grouping.metric_key] at bare
      simp [bare]
    · simp [same]
  rw [getElem?_aggregate_eq, silent]
  rfl

end Aggregates

end FleetHealth
