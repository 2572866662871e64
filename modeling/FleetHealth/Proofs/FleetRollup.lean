import Mathlib.Algebra.BigOperators.Group.List.Lemmas
import Mathlib.Data.List.Dedup
import FleetHealth.Proofs.Binary64Order
import FleetHealth.Proofs.Tallies
/-!
Fleet-wide aggregates as the roll-up of those per station. Both are tallies over one list of
samples, a station's over a part of the samples of its metric, so counts add up and extremes, the
latest timestamp and the value at it are those of some station.
-/
namespace FleetHealth

open Binary64

/- A tally's extremes are values seen, and no value seen lies beyond them. -/
structure Tally.Spans (xs : List Sample) (t : Tally) : Prop where
  least : ∃ x ∈ xs, t.least = x.value
  least_le : ∀ x ∈ xs, t.least ≤ x.value
  greatest : ∃ x ∈ xs, t.greatest = x.value
  le_greatest : ∀ x ∈ xs, x.value ≤ t.greatest

namespace Tally

variable {xs ys : List Sample} {t : Tally} {x : Sample}

theorem spans_first (number : x.value.isNaN = false) : (first x).Spans [x] := by
  have alone : ∀ y ∈ [x], y = x := fun y inside => List.mem_singleton.mp inside
  refine ⟨⟨x, List.mem_singleton_self x, rfl⟩, ?_, ⟨x, List.mem_singleton_self x, rfl⟩, ?_⟩
  · intro y inside
    rw [alone y inside]
    exact Binary64.le_refl number
  · intro y inside
    rw [alone y inside]
    exact Binary64.le_refl number

theorem spans_add (spans : t.Spans xs) (number : x.value.isNaN = false) :
    (t.add x).Spans (xs ++ [x]) := by
  obtain ⟨⟨l, l_inside, least⟩, least_le, ⟨g, g_inside, greatest⟩, le_greatest⟩ := spans
  have last : x ∈ xs ++ [x] := List.mem_append_right _ (List.mem_singleton_self x)
  have lesser := lesser_le (le_iff.mp (least_le l l_inside)).1 number
  have greater := le_greater (le_iff.mp (le_greatest g g_inside)).2.1 number
  refine ⟨?_, ?_, ?_, ?_⟩
  · show ∃ y ∈ xs ++ [x], (if x.value < t.least then x.value else t.least) = y.value
    split
    · exact ⟨x, last, rfl⟩
    · exact ⟨l, List.mem_append_left _ l_inside, least⟩
  · intro y inside
    rcases List.mem_append.mp inside with earlier | new
    · exact Binary64.le_trans lesser.1 (least_le y earlier)
    · obtain rfl := List.mem_singleton.mp new
      exact lesser.2
  · show ∃ y ∈ xs ++ [x], (if t.greatest < x.value then x.value else t.greatest) = y.value
    split
    · exact ⟨x, last, rfl⟩
    · exact ⟨g, List.mem_append_left _ g_inside, greatest⟩
  · intro y inside
    rcases List.mem_append.mp inside with earlier | new
    · exact Binary64.le_trans (le_greatest y earlier) greater.1
    · obtain rfl := List.mem_singleton.mp new
      exact greater.2

theorem spans_foldl (spans : t.Spans xs) (numbers : ∀ y ∈ ys, y.value.isNaN = false) {u : Tally}
    (folded : ys.foldl extend (some t) = some u) : u.Spans (xs ++ ys) := by
  induction ys generalizing xs t with
  | nil =>
    obtain rfl := Option.some.inj folded
    rwa [List.append_nil]
  | cons y rest ih =>
    have spans' := ih (spans_add spans (numbers y List.mem_cons_self))
      (fun z inside => numbers z (List.mem_cons_of_mem y inside)) folded
    rwa [List.append_assoc] at spans'

theorem spans_of_foldl (numbers : ∀ y ∈ ys, y.value.isNaN = false)
    (folded : ys.foldl extend none = some t) : t.Spans ys := by
  cases ys with
  | nil => cases folded
  | cons y rest =>
    exact spans_foldl (spans_first (numbers y List.mem_cons_self))
      (fun z inside => numbers z (List.mem_cons_of_mem y inside)) folded

end Tally

section Groups

variable (thresholds : Thresholds) (grouping : Grouping) (samples : List Sample)

/- The samples an aggregate is of. -/
def groupOf (k : AggregateKey) : List Sample :=
  (samples.filter (fun s => thresholds.isCatalogued s.metric)).filter
    (fun s => grouping.key s = k)

variable {thresholds grouping samples} {k : AggregateKey} {a : Aggregate}

theorem getElem?_aggregate_groupOf : (aggregate thresholds grouping samples)[k]? =
    ((groupOf thresholds grouping samples k).foldl Tally.extend none).map (Tally.finish k) :=
  getElem?_aggregate_eq thresholds grouping samples

theorem isSome_aggregate_iff :
    (aggregate thresholds grouping samples)[k]?.isSome = true ↔
      groupOf thresholds grouping samples k ≠ [] := by
  rw [getElem?_aggregate_groupOf, Option.isSome_map]
  cases filled : groupOf thresholds grouping samples k with
  | nil => simp
  | cons s rest =>
    obtain ⟨t, folded, _⟩ := Tally.foldl_extend_of_ne_nil (List.cons_ne_nil s rest)
    simp [folded]

/-- An aggregate is the finished tally of its samples. -/
theorem tally_of_aggregate (found : (aggregate thresholds grouping samples)[k]? = some a) :
    ∃ t : Tally, a = t.finish k ∧ t.Sums (groupOf thresholds grouping samples k) ∧
      ((∀ s ∈ groupOf thresholds grouping samples k, s.value.isNaN = false) →
        t.Spans (groupOf thresholds grouping samples k)) := by
  have filled := isSome_aggregate_iff.mp (Option.isSome_of_eq_some found)
  obtain ⟨t, folded, sums⟩ := Tally.foldl_extend_of_ne_nil filled
  rw [getElem?_aggregate_groupOf, folded] at found
  exact ⟨t, (Option.some.inj found).symm, sums, fun numbers => Tally.spans_of_foldl numbers folded⟩

theorem mem_of_mem_groupOf {s : Sample} (inside : s ∈ groupOf thresholds grouping samples k) :
    s ∈ samples :=
  (List.mem_filter.mp (List.mem_filter.mp inside).1).1

theorem key_of_aggregate (found : (aggregate thresholds grouping samples)[k]? = some a) :
    a.key = k := by
  obtain ⟨t, rfl, _⟩ := tally_of_aggregate found
  rfl

theorem keyed_aggregate :
    ∀ (k : AggregateKey) (a : Aggregate), (aggregate thresholds grouping samples)[k]? = some a →
      a.key = k :=
  fun _ _ => key_of_aggregate

theorem mem_values_aggregate :
    a ∈ (aggregate thresholds grouping samples).values ↔
      (aggregate thresholds grouping samples)[a.key]? = some a :=
  KeyedFold.mem_values_of_keyed keyed_aggregate

variable (thresholds grouping samples)

/- The key of every sample that counts. -/
def countedKeys : List AggregateKey :=
  (samples.filter (fun s => thresholds.isCatalogued s.metric)).map grouping.key

theorem length_groupOf (k : AggregateKey) :
    (groupOf thresholds grouping samples k).length =
      (countedKeys thresholds grouping samples).count k := by
  rw [groupOf, ← List.countP_eq_length_filter, countedKeys, List.count, List.countP_map]
  congr 1

theorem mem_countedKeys_iff {k : AggregateKey} : k ∈ countedKeys thresholds grouping samples ↔
    ∃ a, (aggregate thresholds grouping samples)[k]? = some a := by
  rw [← List.count_pos_iff, ← length_groupOf, List.length_pos_iff, ← isSome_aggregate_iff,
    Option.isSome_iff_exists]

theorem keys_perm_dedup : ((aggregate thresholds grouping samples).values.map Aggregate.key).Perm
    (countedKeys thresholds grouping samples).dedup := by
  have ascending := KeyedFold.values_ascending_of_keyed
    (m := aggregate thresholds grouping samples) keyed_aggregate
  have distinct : ((aggregate thresholds grouping samples).values.map Aggregate.key).Nodup :=
    List.pairwise_map.mpr (ascending.imp KeyedFold.ne_of_lt)
  refine (List.perm_ext_iff_of_nodup distinct (List.nodup_dedup _)).mpr (fun k => ?_)
  rw [List.mem_dedup, mem_countedKeys_iff, List.mem_map]
  constructor
  · intro h
    obtain ⟨a, inside, rfl⟩ := h
    exact ⟨a, mem_values_aggregate.mp inside⟩
  · intro h
    obtain ⟨a, found⟩ := h
    obtain rfl := key_of_aggregate found
    exact ⟨a, mem_values_aggregate.mpr found, rfl⟩

/-- Counts over some of the keys add up to the samples of these keys. -/
theorem sum_counts (chosen : AggregateKey → Bool) :
    (((aggregate thresholds grouping samples).values.filter (fun a => chosen a.key)).map
      Aggregate.count).sum = (countedKeys thresholds grouping samples).countP chosen := by
  let keys := countedKeys thresholds grouping samples
  let values := (aggregate thresholds grouping samples).values
  have counted : ∀ a ∈ values, a.count = keys.count a.key := by
    intro a inside
    obtain ⟨t, same, sums, _⟩ := tally_of_aggregate (mem_values_aggregate.mp inside)
    rw [← length_groupOf, ← sums.count, same]
    rfl
  have by_key : (values.filter (fun a => chosen a.key)).map Aggregate.count =
      ((values.map Aggregate.key).filter chosen).map keys.count := by
    rw [List.filter_map, List.map_map]
    exact List.map_congr_left (fun a inside => counted a (List.mem_filter.mp inside).1)
  rw [by_key, ((keys_perm_dedup thresholds grouping samples).filter chosen).map keys.count
    |>.sum_eq]
  exact List.sum_map_count_dedup_filter_eq_countP chosen keys

end Groups

/- The aggregates of one metric among those of the stations. -/
def partsOf (stations : Aggregates) (m : Metric) : List Aggregate :=
  stations.values.filter (fun p => p.metric = m)

/-- What a whole has of its parts. Sums are left out, as adding doubles is not associative. -/
structure IsRollup (whole : Aggregate) (parts : List Aggregate) : Prop where
  count : whole.count = (parts.map Aggregate.count).sum
  least : (∃ p ∈ parts, (whole.least == p.least) = true) ∧ ∀ p ∈ parts, whole.least ≤ p.least
  greatest : (∃ p ∈ parts, (whole.greatest == p.greatest) = true) ∧
    ∀ p ∈ parts, p.greatest ≤ whole.greatest
  latest : (∃ p ∈ parts, p.currentTimestamp = whole.currentTimestamp) ∧
    ∀ p ∈ parts, ∀ u, p.currentTimestamp = some u →
      ∃ t, whole.currentTimestamp = some t ∧ u ≤ t
  current : ∀ p, parts.filter (fun q => q.currentTimestamp = whole.currentTimestamp) = [p] →
    whole.current = p.current

section Rollup

variable {thresholds : Thresholds} {samples : List Sample} {m : Metric} {whole p : Aggregate}

theorem groupOf_station (id : String) : groupOf thresholds .station samples ⟨some id, m⟩ =
    (groupOf thresholds .fleet samples ⟨none, m⟩).filter (fun s => s.stationId = id) := by
  rw [groupOf, groupOf, List.filter_filter (l := List.filter _ samples)]
  refine List.filter_congr (fun s _ => ?_)
  simp [Grouping.key]

theorem mem_partsOf_iff : p ∈ partsOf (aggregate thresholds .station samples) m ↔
    ∃ id, (aggregate thresholds .station samples)[(⟨some id, m⟩ : AggregateKey)]? = some p := by
  rw [partsOf, List.mem_filter, mem_values_aggregate]
  constructor
  · intro h
    obtain ⟨found, metric⟩ := h
    obtain rfl := of_decide_eq_true metric
    obtain ⟨s, inside⟩ := List.exists_mem_of_ne_nil _
      (isSome_aggregate_iff.mp (Option.isSome_of_eq_some found))
    have own : Grouping.station.key s = p.key := of_decide_eq_true (List.mem_filter.mp inside).2
    have station : some s.stationId = p.stationId := congrArg AggregateKey.stationId own
    refine ⟨s.stationId, ?_⟩
    rw [station]
    exact found
  · intro h
    obtain ⟨id, found⟩ := h
    have key := key_of_aggregate found
    refine ⟨key ▸ found, decide_eq_true ?_⟩
    exact congrArg AggregateKey.metric key

theorem mem_own {xs : List Sample} {s : Sample} (inside : s ∈ xs) :
    s ∈ xs.filter (fun x => x.stationId = s.stationId) :=
  List.mem_filter.mpr ⟨inside, decide_eq_true rfl⟩

/- What a part is of: the samples of its station among those of the fleet. -/
structure Part (xs : List Sample) (id : String) (m : Metric) (p : Aggregate) (t : Tally) : Prop where
  finished : p = t.finish ⟨some id, m⟩
  sums : t.Sums (xs.filter (fun s => s.stationId = id))
  spans : (∀ s ∈ xs, s.value.isNaN = false) → t.Spans (xs.filter (fun s => s.stationId = id))

theorem part_of_mem (inside : p ∈ partsOf (aggregate thresholds .station samples) m) :
    ∃ id t, Part (groupOf thresholds .fleet samples ⟨none, m⟩) id m p t := by
  obtain ⟨id, found⟩ := mem_partsOf_iff.mp inside
  obtain ⟨t, finished, sums, spans⟩ := tally_of_aggregate found
  rw [groupOf_station] at sums spans
  exact ⟨id, t, finished, sums,
    fun numbers => spans (fun s inside => numbers s (List.mem_of_mem_filter inside))⟩

theorem exists_part {s : Sample} (inside : s ∈ groupOf thresholds .fleet samples ⟨none, m⟩) :
    ∃ p ∈ partsOf (aggregate thresholds .station samples) m,
      ∃ t, Part (groupOf thresholds .fleet samples ⟨none, m⟩) s.stationId m p t := by
  have own : s ∈ groupOf thresholds .station samples ⟨some s.stationId, m⟩ := by
    rw [groupOf_station]
    exact mem_own inside
  obtain ⟨p, found⟩ := Option.isSome_iff_exists.mp
    (isSome_aggregate_iff.mpr (List.ne_nil_of_mem own))
  obtain ⟨t, finished, sums, spans⟩ := tally_of_aggregate found
  rw [groupOf_station] at sums spans
  exact ⟨p, mem_partsOf_iff.mpr ⟨s.stationId, found⟩, t, finished, sums,
    fun numbers => spans (fun x inside => numbers x (List.mem_of_mem_filter inside))⟩

section Whole

variable (numbers : ∀ s ∈ samples, s.value.isNaN = false)
  (found : (aggregate thresholds .fleet samples)[(⟨none, m⟩ : AggregateKey)]? = some whole)

include numbers found

theorem rollup_least :
    (∃ p ∈ partsOf (aggregate thresholds .station samples) m, (whole.least == p.least) = true) ∧
      ∀ p ∈ partsOf (aggregate thresholds .station samples) m, whole.least ≤ p.least := by
  obtain ⟨t, rfl, sums, spans⟩ := tally_of_aggregate found
  have numbers : ∀ s ∈ groupOf thresholds .fleet samples ⟨none, m⟩, s.value.isNaN = false :=
    fun s inside => numbers s (mem_of_mem_groupOf inside)
  have bound : ∀ p ∈ partsOf (aggregate thresholds .station samples) m, t.least ≤ p.least := by
    intro p inside
    obtain ⟨id, u, rfl, _, part_spans⟩ := part_of_mem inside
    obtain ⟨s, s_inside, least⟩ := (part_spans numbers).least
    have attained : (u.finish ⟨some id, m⟩).least = s.value := least
    rw [attained]
    exact (spans numbers).least_le s (List.mem_filter.mp s_inside).1
  refine ⟨?_, bound⟩
  obtain ⟨s, inside, least⟩ := (spans numbers).least
  obtain ⟨p, listed, u, rfl, _, part_spans⟩ := exists_part inside
  have reached : u.least ≤ t.least := by
    rw [least]
    exact (part_spans numbers).least_le s (mem_own inside)
  exact ⟨_, listed, beq_iff.mpr ⟨bound _ listed, reached⟩⟩

theorem rollup_greatest :
    (∃ p ∈ partsOf (aggregate thresholds .station samples) m,
      (whole.greatest == p.greatest) = true) ∧
      ∀ p ∈ partsOf (aggregate thresholds .station samples) m, p.greatest ≤ whole.greatest := by
  obtain ⟨t, rfl, sums, spans⟩ := tally_of_aggregate found
  have numbers : ∀ s ∈ groupOf thresholds .fleet samples ⟨none, m⟩, s.value.isNaN = false :=
    fun s inside => numbers s (mem_of_mem_groupOf inside)
  have bound : ∀ p ∈ partsOf (aggregate thresholds .station samples) m,
      p.greatest ≤ t.greatest := by
    intro p inside
    obtain ⟨id, u, rfl, _, part_spans⟩ := part_of_mem inside
    obtain ⟨s, s_inside, greatest⟩ := (part_spans numbers).greatest
    have attained : (u.finish ⟨some id, m⟩).greatest = s.value := greatest
    rw [attained]
    exact (spans numbers).le_greatest s (List.mem_filter.mp s_inside).1
  refine ⟨?_, bound⟩
  obtain ⟨s, inside, greatest⟩ := (spans numbers).greatest
  obtain ⟨p, listed, u, rfl, _, part_spans⟩ := exists_part inside
  have reached : t.greatest ≤ u.greatest := by
    rw [greatest]
    exact (part_spans numbers).le_greatest s (mem_own inside)
  exact ⟨_, listed, beq_iff.mpr ⟨reached, bound _ listed⟩⟩

end Whole

section Whole

variable
  (found : (aggregate thresholds .fleet samples)[(⟨none, m⟩ : AggregateKey)]? = some whole)

include found

/-- The current sample of the fleet is the current one of its station. -/
theorem exists_current_part : ∃ p ∈ partsOf (aggregate thresholds .station samples) m,
    p.currentTimestamp = whole.currentTimestamp ∧ p.current = whole.current := by
  obtain ⟨t, rfl, sums, _⟩ := tally_of_aggregate found
  obtain ⟨s, current, value, moment⟩ := sums.current
  obtain ⟨p, listed, u, rfl, part_sums, _⟩ := exists_part (mem_of_isCurrent current)
  obtain ⟨s', current', value', moment'⟩ := part_sums.current
  obtain rfl := isCurrent_unique (isCurrent_filter current (decide_eq_true rfl)) current'
  exact ⟨_, listed, moment'.trans moment.symm, value'.trans value.symm⟩

theorem part_latest (inside : p ∈ partsOf (aggregate thresholds .station samples) m) {u : Instant}
    (dated : p.currentTimestamp = some u) : ∃ t, whole.currentTimestamp = some t ∧ u ≤ t := by
  obtain ⟨t, rfl, sums, _⟩ := tally_of_aggregate found
  obtain ⟨s, current, _, moment⟩ := sums.current
  obtain ⟨id, v, rfl, part_sums, _⟩ := part_of_mem inside
  obtain ⟨s', current', _, moment'⟩ := part_sums.current
  have listed := (List.mem_filter.mp (mem_of_isCurrent current')).1
  obtain ⟨latest, best, order⟩ := isCurrent_latest current listed (moment'.symm.trans dated)
  exact ⟨latest, moment.trans best, order⟩

theorem rollup_count :
    whole.count =
      ((partsOf (aggregate thresholds .station samples) m).map Aggregate.count).sum := by
  obtain ⟨t, rfl, sums, _⟩ := tally_of_aggregate found
  have parts := sum_counts thresholds .station samples (fun k => k.metric = m)
  have counted : (countedKeys thresholds .station samples).countP (fun k => k.metric = m) =
      (groupOf thresholds .fleet samples ⟨none, m⟩).length := by
    rw [groupOf, ← List.countP_eq_length_filter, countedKeys, List.countP_map]
    refine List.countP_congr (fun s _ => ?_)
    show decide (s.metric = m) = true ↔ decide (Grouping.fleet.key s = ⟨none, m⟩) = true
    rw [decide_eq_true_iff, decide_eq_true_iff]
    exact ⟨congrArg (AggregateKey.mk none), congrArg AggregateKey.metric⟩
  exact sums.count.trans (parts.trans counted).symm

end Whole

/-- Every fleet-wide aggregate is the roll-up of the station aggregates of its metric. -/
theorem isRollup_fleet (numbers : ∀ s ∈ samples, s.value.isNaN = false)
    (found : (aggregate thresholds .fleet samples)[(⟨none, m⟩ : AggregateKey)]? = some whole) :
    IsRollup whole (partsOf (aggregate thresholds .station samples) m) := by
  obtain ⟨newest, listed, moment, value⟩ := exists_current_part found
  refine ⟨rollup_count found, rollup_least numbers found, rollup_greatest numbers found,
    ⟨⟨newest, listed, moment⟩, fun p inside u dated => part_latest found inside dated⟩, ?_⟩
  intro p alone
  have same : newest ∈ [p] := alone ▸ List.mem_filter.mpr ⟨listed, decide_eq_true moment⟩
  rw [← List.mem_singleton.mp same]
  exact value.symm

theorem isSome_fleet_iff :
    ((aggregate thresholds .fleet samples)[(⟨none, m⟩ : AggregateKey)]?).isSome = true ↔
      ∃ id, ((aggregate thresholds .station samples)[(⟨some id, m⟩ : AggregateKey)]?).isSome =
        true := by
  simp only [isSome_aggregate_iff, groupOf_station]
  constructor
  · intro filled
    obtain ⟨s, inside⟩ := List.exists_mem_of_ne_nil _ filled
    exact ⟨s.stationId, List.ne_nil_of_mem (mem_own inside)⟩
  · intro h
    obtain ⟨id, filled⟩ := h
    obtain ⟨s, inside⟩ := List.exists_mem_of_ne_nil _ filled
    exact List.ne_nil_of_mem (List.mem_filter.mp inside).1

theorem sum_all_counts (thresholds : Thresholds) (grouping : Grouping) (samples : List Sample) :
    ((aggregate thresholds grouping samples).values.map Aggregate.count).sum =
      samples.countP (fun s => thresholds.isCatalogued s.metric) := by
  have all := sum_counts thresholds grouping samples (fun _ => true)
  rw [List.filter_true, List.countP_true, countedKeys, List.length_map,
    ← List.countP_eq_length_filter] at all
  exact all

/-- Of samples none of which is not a number: the fleet has an aggregate of just the metrics some
station has one of, each is the roll-up of the stations', and either way every sample of a metric
with a rule is counted once. -/
theorem fleet_rolls_up_stations (thresholds : Thresholds) {samples : List Sample}
    (numbers : ∀ s ∈ samples, s.value.isNaN = false) :
    let fleet := aggregate thresholds .fleet samples
    let stations := aggregate thresholds .station samples
    (∀ m : Metric, (fleet[(⟨none, m⟩ : AggregateKey)]?).isSome = true ↔
      ∃ id, (stations[(⟨some id, m⟩ : AggregateKey)]?).isSome = true) ∧
    (∀ (m : Metric) (whole : Aggregate), fleet[(⟨none, m⟩ : AggregateKey)]? = some whole →
      IsRollup whole (partsOf stations m)) ∧
    (fleet.values.map Aggregate.count).sum =
      samples.countP (fun s => thresholds.isCatalogued s.metric) ∧
    (stations.values.map Aggregate.count).sum =
      samples.countP (fun s => thresholds.isCatalogued s.metric) :=
  ⟨fun _ => isSome_fleet_iff, fun _ _ found => isRollup_fleet numbers found,
    sum_all_counts thresholds .fleet samples, sum_all_counts thresholds .station samples⟩

/- Two stations, one of them without a time at first, and a metric without a rule. -/
theorem fleet_rolls_up_stations_of_four :
    let samples := [Sample.mk 1 "bs-1" .latency 12.0 none none,
      Sample.mk 2 "bs-2" .latency 30.0 (some ⟨2000, by decide⟩) none,
      Sample.mk 3 "bs-1" .latency (-0.0) (some ⟨1000, by decide⟩) none,
      Sample.mk 4 "bs-1" .unknown 1.0 none none]
    let stations := aggregate .builtin .station samples
    (∀ s ∈ samples, s.value.isNaN = false) ∧
      ∃ whole, (aggregate .builtin .fleet samples)[(⟨none, .latency⟩ : AggregateKey)]? =
        some whole ∧ IsRollup whole (partsOf stations .latency) := by
  intro samples stations
  have numbers : ∀ s ∈ samples, s.value.isNaN = false := by decide +kernel
  have rolled := fleet_rolls_up_stations .builtin numbers
  obtain ⟨whole, found⟩ := Option.isSome_iff_exists.mp ((rolled.1 .latency).mpr
    ⟨"bs-1", by decide +kernel⟩)
  exact ⟨numbers, whole, found, rolled.2.1 .latency whole found⟩

end Rollup
end FleetHealth
