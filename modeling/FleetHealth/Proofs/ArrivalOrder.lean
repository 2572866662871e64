import FleetHealth.Proofs.BetterReadings
import FleetHealth.Proofs.ExactReads
import FleetHealth.Proofs.GroupStatistics
/-!
What the order of arrival leaves alone. Counts, extremes and the latest timestamp of a key are those
of its samples in any order, and so is the current value where one sample alone is the latest. A
window read from its newest row shows the same of a station as one read from its oldest.
-/
namespace FleetHealth

/-- A sample with a timestamp than which none is later. -/
def IsLatest (xs : List Sample) (s : Sample) : Prop :=
  s ∈ xs ∧ ∃ t, s.timestamp = some t ∧ ∀ x ∈ xs, ∀ u, x.timestamp = some u → u ≤ t

/-- No two samples are the latest. -/
def Untied (xs : List Sample) : Prop := ∀ a b, IsLatest xs a → IsLatest xs b → a = b

/-- Aggregates that agree in all but what the order of the samples decides. -/
structure Aggregate.Agrees (a b : Aggregate) : Prop where
  count : a.count = b.count
  least : (a.least == b.least) = true
  greatest : (a.greatest == b.greatest) = true
  currentTimestamp : a.currentTimestamp = b.currentTimestamp

/-- Fields of one metric, filled in from samples or both not, that show the same current value and
tier unless two samples are the latest. -/
structure Field.Agrees (xs : List Sample) (f g : Field) : Prop where
  metric : f.metric = g.metric
  defaulted : f.defaulted = g.defaulted
  current : Untied xs → f.current = g.current
  status : Untied xs → f.status = g.status

section Current

variable {xs ys : List Sample} {s x : Sample}

theorem isLatest_of_stamped (current : IsCurrent xs s) {t : Instant}
    (stamp : s.timestamp = some t) : IsLatest xs s := by
  refine ⟨mem_of_isCurrent current, t, stamp, fun x inside u stamp' => ?_⟩
  obtain ⟨t', best, order⟩ := isCurrent_latest current inside stamp'
  rw [stamp, Option.some.injEq] at best
  rwa [best]

theorem isLatest_of_isCurrent (current : IsCurrent xs s) (dated : IsLatest xs x) :
    IsLatest xs s := by
  obtain ⟨inside, _, stamp, _⟩ := dated
  obtain ⟨_, stamp', _⟩ := isCurrent_latest current inside stamp
  exact isLatest_of_stamped current stamp'

theorem isLatest_of_same (same : ∀ y, y ∈ xs ↔ y ∈ ys) (latest : IsLatest ys s) :
    IsLatest xs s := by
  obtain ⟨inside, t, stamp, bound⟩ := latest
  exact ⟨(same s).mpr inside, t, stamp, fun y listed => bound y ((same y).mp listed)⟩

/-- A sample that alone is the latest is the current one of every list of the same samples. -/
theorem current_of_untied (same : ∀ y, y ∈ xs ↔ y ∈ ys) (current : IsCurrent xs s)
    (current' : IsCurrent ys x) (untied : Untied xs) (dated : ∃ y, IsLatest xs y) : s = x := by
  obtain ⟨y, dated⟩ := dated
  have dated' : IsLatest ys y := isLatest_of_same (fun z => (same z).symm) dated
  exact untied s x (isLatest_of_isCurrent current dated)
    (isLatest_of_same same (isLatest_of_isCurrent current' dated'))

theorem timestamp_of_same (same : ∀ y, y ∈ xs ↔ y ∈ ys) (current : IsCurrent xs s)
    (current' : IsCurrent ys x) : s.timestamp = x.timestamp := by
  have listed : x ∈ xs := (same x).mpr (mem_of_isCurrent current')
  have listed' : s ∈ ys := (same s).mp (mem_of_isCurrent current)
  cases stamp : s.timestamp with
  | none =>
    cases stamp' : x.timestamp with
    | none => rfl
    | some u =>
      obtain ⟨t, found, _⟩ := isCurrent_latest current listed stamp'
      rw [stamp] at found
      cases found
  | some t =>
    obtain ⟨u, stamp', upper⟩ := isCurrent_latest current' listed' stamp
    obtain ⟨t', found, lower⟩ := isCurrent_latest current listed stamp'
    obtain rfl : t = t' := Option.some.inj (stamp.symm.trans found)
    rw [stamp', Instant.millis_injective (Int.le_antisymm upper lower)]

end Current

section Aggregates

variable {thresholds : Thresholds} {grouping : Grouping} {samples samples' : List Sample}
  {k : AggregateKey} {a b : Aggregate} {xs ys : List Sample}

namespace Aggregate.IsOf

theorem least_le (isOf : a.IsOf xs) (isOf' : b.IsOf ys) (same : ∀ x, x ∈ xs ↔ x ∈ ys)
    (numbers : ∀ x ∈ xs, x.value.isNaN = false) : a.least ≤ b.least := by
  obtain ⟨_, bound⟩ := isOf.least numbers
  obtain ⟨⟨y, listed, attained⟩, _⟩ :=
    isOf'.least (fun y inside => numbers y ((same y).mpr inside))
  rw [attained]
  exact bound y ((same y).mpr listed)

theorem greatest_le (isOf : a.IsOf xs) (isOf' : b.IsOf ys) (same : ∀ x, x ∈ xs ↔ x ∈ ys)
    (numbers : ∀ x ∈ xs, x.value.isNaN = false) : a.greatest ≤ b.greatest := by
  obtain ⟨⟨x, listed, attained⟩, _⟩ := isOf.greatest numbers
  obtain ⟨_, bound⟩ := isOf'.greatest (fun y inside => numbers y ((same y).mpr inside))
  rw [attained]
  exact bound x ((same x).mp listed)

theorem agrees (isOf : a.IsOf xs) (isOf' : b.IsOf ys) (perm : xs.Perm ys)
    (numbers : ∀ x ∈ xs, x.value.isNaN = false) : a.Agrees b := by
  have same : ∀ x, x ∈ xs ↔ x ∈ ys := fun x => perm.mem_iff
  have numbers' : ∀ y ∈ ys, y.value.isNaN = false := fun y inside => numbers y ((same y).mpr inside)
  obtain ⟨s, current, _, stamp⟩ := isOf.current
  obtain ⟨s', current', _, stamp'⟩ := isOf'.current
  refine ⟨?_, ?_, ?_, ?_⟩
  · rw [isOf.count, isOf'.count, perm.length_eq]
  · exact Binary64.beq_iff.mpr ⟨isOf.least_le isOf' same numbers,
      isOf'.least_le isOf (fun x => (same x).symm) numbers'⟩
  · exact Binary64.beq_iff.mpr ⟨isOf.greatest_le isOf' same numbers,
      isOf'.greatest_le isOf (fun x => (same x).symm) numbers'⟩
  · rw [stamp, stamp', timestamp_of_same same current current']

theorem current_eq (isOf : a.IsOf xs) (isOf' : b.IsOf ys) (same : ∀ x, x ∈ xs ↔ x ∈ ys)
    (untied : Untied xs) (dated : ∃ x, IsLatest xs x) : a.current = b.current := by
  obtain ⟨s, current, value, _⟩ := isOf.current
  obtain ⟨s', current', value', _⟩ := isOf'.current
  rw [value, value', current_of_untied same current current' untied dated]

end Aggregate.IsOf

/-- The same keys have aggregates for the same samples in any order. -/
theorem aggregates_of_same (thresholds : Thresholds) (grouping : Grouping) (k : AggregateKey)
    (same : ∀ s, s ∈ samples ↔ s ∈ samples') :
    ((aggregate thresholds grouping samples)[k]? = none ∧
      (aggregate thresholds grouping samples')[k]? = none) ∨
    ∃ a b, (aggregate thresholds grouping samples)[k]? = some a ∧
      (aggregate thresholds grouping samples')[k]? = some b := by
  have emitted : (aggregate thresholds grouping samples)[k]?.isSome = true ↔
      (aggregate thresholds grouping samples')[k]?.isSome = true := by
    rw [emitted_iff, emitted_iff]
    simp only [same]
  cases found : (aggregate thresholds grouping samples)[k]? with
  | none =>
    rw [found] at emitted
    exact .inl ⟨rfl, Option.not_isSome_iff_eq_none.mp (fun filled => nomatch emitted.mpr filled)⟩
  | some a =>
    rw [found] at emitted
    obtain ⟨b, found'⟩ := Option.isSome_iff_exists.mp (emitted.mp rfl)
    exact .inr ⟨a, b, rfl, found'⟩

theorem mem_keySamples_congr (same : ∀ s, s ∈ samples ↔ s ∈ samples') (s : Sample) :
    s ∈ keySamples grouping samples k ↔ s ∈ keySamples grouping samples' k := by
  rw [keySamples, keySamples, List.mem_filter, List.mem_filter, same]

/-- Of the samples in two orders the same keys have aggregates, and these agree. -/
theorem aggregate_perm (perm : samples.Perm samples')
    (numbers : ∀ s ∈ samples, s.value.isNaN = false) :
    Option.Rel (fun a b => a.Agrees b ∧
        ((∃! s, IsLatest (keySamples grouping samples k) s) → a.current = b.current))
      (aggregate thresholds grouping samples)[k]? (aggregate thresholds grouping samples')[k]? := by
  rcases aggregates_of_same thresholds grouping k (fun s => perm.mem_iff (a := s)) with
    ⟨absent, absent'⟩ | ⟨a, b, found, found'⟩
  · rw [absent, absent']
    exact .none
  · have isOf := isOf_of_aggregate found
    have isOf' := isOf_of_aggregate found'
    rw [found, found']
    refine .some ⟨isOf.agrees isOf' (perm.filter _) ?_, ?_⟩
    · exact fun s inside => numbers s (List.mem_of_mem_filter inside)
    · intro alone
      exact isOf.current_eq isOf' (mem_keySamples_congr (fun _ => perm.mem_iff))
        (fun _ _ latest latest' => alone.unique latest latest') alone.exists

end Aggregates

section Fields

variable {c : Catalog} {oldest newest : List Sample} {stationId : String} {m : Metric}

theorem Catalog.field_of_found {aggregates : Aggregates} {a : Aggregate}
    (found : aggregates[(⟨some stationId, m⟩ : AggregateKey)]? = some a) :
    c.field aggregates stationId m =
      ⟨m, a.current, a.average, false, c.thresholds.classify m a.current none⟩ := by
  rw [field, found]

/-- Of the same samples with timestamps, in whatever order, a field shows the same. -/
theorem Catalog.field_agrees (same : ∀ s, s ∈ oldest ↔ s ∈ newest)
    (dated : ∀ s ∈ oldest, s.timestamp.isSome = true) :
    (c.field (aggregate c.thresholds .station oldest) stationId m).Agrees
      (keySamples .station oldest ⟨some stationId, m⟩)
      (c.field (aggregate c.thresholds .station newest) stationId m) := by
  rcases aggregates_of_same c.thresholds .station ⟨some stationId, m⟩ same with
    ⟨absent, absent'⟩ | ⟨a, b, found, found'⟩
  · have silent : c.field (aggregate c.thresholds .station oldest) stationId m =
        c.field (aggregate c.thresholds .station newest) stationId m := by
      rw [field, field, absent, absent']
    rw [silent]
    exact ⟨rfl, rfl, fun _ => rfl, fun _ => rfl⟩
  · rw [field_of_found found, field_of_found found']
    have isOf := isOf_of_aggregate found
    obtain ⟨s, current, _, _⟩ := isOf.current
    obtain ⟨t, stamp⟩ := Option.isSome_iff_exists.mp
      (dated s (List.mem_of_mem_filter (mem_of_isCurrent current)))
    have shown : Untied (keySamples .station oldest ⟨some stationId, m⟩) → a.current = b.current :=
      fun untied => isOf.current_eq (isOf_of_aggregate found') (mem_keySamples_congr same) untied
        ⟨s, isLatest_of_stamped current stamp⟩
    refine ⟨rfl, rfl, shown, fun untied => ?_⟩
    show c.thresholds.classify m a.current none = c.thresholds.classify m b.current none
    rw [shown untied]

end Fields

namespace Store

variable {store : Store} {w : Window} {limit limit' : UInt32} {oldest newest : List Sample}

theorem dated_of_readSamples {order : SortOrder}
    (read : store.readSamples w limit order = .ok oldest) :
    ∀ s ∈ oldest, s.timestamp.isSome = true := by
  rw [readSamples_eq, Except.ok.injEq] at read
  subst read
  intro s inside
  obtain ⟨r, taken, rfl⟩ := List.mem_map.mp inside
  obtain ⟨n, t, millis, moment, _⟩ :=
    SampleRow.exists_instant (mem_rowsWithin.mp (List.mem_of_mem_take taken)).2
  rw [SampleRow.decoded, millis, Option.bind_some, moment]
  rfl

/-- A window that fits into both limits is read as the same samples from either end. -/
theorem mem_reads_iff (complete : store.samples.size ≤ limit.toNat)
    (complete' : store.samples.size ≤ limit'.toNat)
    (read : store.readSamples w limit .ascending = .ok oldest)
    (read' : store.readSamples w limit' .descending = .ok newest) (s : Sample) :
    s ∈ oldest ↔ s ∈ newest := by
  have whole (limit : UInt32) (complete : store.samples.size ≤ limit.toNat) (order : SortOrder) :
      store.readSamples w limit order = .ok ((store.rowsWithin w order).map SampleRow.decoded) := by
    rw [readSamples_eq, List.take_of_length_le ((length_rowsWithin_le store w order).trans complete)]
  rw [whole limit complete, Except.ok.injEq] at read
  rw [whole limit' complete', Except.ok.injEq] at read'
  subst read read'
  have perm : (store.rowsWithin w .ascending).Perm (store.rowsWithin w .descending) :=
    (List.mergeSort_perm _ _).trans (List.mergeSort_perm _ _).symm
  exact (perm.map SampleRow.decoded).mem_iff

end Store

/-- Views of one station show the same of it, as far as the order of the samples lets them. -/
def StationView.Agrees (samples : List Sample) (v v' : StationView) : Prop :=
  v.id = v'.id ∧ List.Forall₂ (fun f g : Field =>
    f.Agrees (keySamples .station samples ⟨some v.id, f.metric⟩) g) v.fields v'.fields

theorem Catalog.views_agree {oldest newest : List Sample}
    (same : ∀ s, s ∈ oldest ↔ s ∈ newest) (dated : ∀ s ∈ oldest, s.timestamp.isSome = true)
    (c : Catalog) (now now' : Instant) (stations : List Station) :
    List.Forall₂ (StationView.Agrees oldest) (c.evaluate now stations oldest).stations
      (c.evaluate now' stations newest).stations := by
  refine forall₂_map_map_iff.mpr (fun station _ => ⟨rfl, ?_⟩)
  rw [view_fields, view_fields]
  refine forall₂_map_map_iff.mpr (fun m _ => ?_)
  rw [field_metric]
  exact field_agrees same dated

/-- The same samples in two orders, none of them not a number, give the same keys aggregates that
agree, with the same current value where one sample alone is the latest. A read from the oldest row
and one from the newest always succeed, and if they answer the same samples, each station has the
same fields by both, but for averages and for current values of which two samples are the latest. -/
theorem arrival_order_immaterial :
    (∀ (thresholds : Thresholds) (grouping : Grouping) (samples samples' : List Sample),
      samples.Perm samples' → (∀ s ∈ samples, s.value.isNaN = false) → ∀ k : AggregateKey,
        Option.Rel (fun a b => a.Agrees b ∧
            ((∃! s, IsLatest (keySamples grouping samples k) s) → a.current = b.current))
          (aggregate thresholds grouping samples)[k]?
          (aggregate thresholds grouping samples')[k]?) ∧
    (∀ (store : Store) (w v : Window) (limit limit' : UInt32), ∃ oldest newest,
      store.readSamples w limit .ascending = .ok oldest ∧
      store.readSamples v limit' .descending = .ok newest ∧
      ((∀ s, s ∈ oldest ↔ s ∈ newest) →
        ∀ (c : Catalog) (now now' : Instant) (stations : List Station),
          List.Forall₂ (StationView.Agrees oldest) (c.evaluate now stations oldest).stations
            (c.evaluate now' stations newest).stations)) := by
  refine ⟨fun _ _ _ _ perm numbers _ => aggregate_perm perm numbers, ?_⟩
  intro store w v limit limit'
  have read := Store.readSamples_eq store w limit .ascending
  have read' := Store.readSamples_eq store v limit' .descending
  exact ⟨_, _, read, read', fun same => Catalog.views_agree same (Store.dated_of_readSamples read)⟩

namespace TwoOrders

/- The lesser id is the later one. -/
def rows : List SampleRow :=
  [⟨1, "bs-1", "latency", 60.0, some 5500, none⟩, ⟨2, "bs-1", "latency", 12.0, some 1500, none⟩]

def store : Store := ⟨∅, rows.foldl (fun held r => held.insert r.id r) ∅⟩

def window : Window := ⟨.epoch, ⟨6500, by decide⟩⟩

def early : Sample := ⟨2, "bs-1", .latency, 12.0, some ⟨1500, by decide⟩, none⟩

def late : Sample := ⟨1, "bs-1", .latency, 60.0, some ⟨5500, by decide⟩, none⟩

def key : AggregateKey := ⟨some "bs-1", .latency⟩

def north : Station := ⟨"bs-1", "North", "Roof", .active⟩

theorem latest_alone : ∃! s, IsLatest (keySamples .station [early, late] key) s := by
  have all : keySamples .station [early, late] key = [early, late] := by decide
  rw [all]
  have two : ∀ x ∈ [early, late], x = early ∨ x = late := by simp
  refine ⟨late, ⟨by simp, _, rfl, ?_⟩, ?_⟩
  · intro x inside u stamp
    rcases two x inside with rfl | rfl <;> obtain rfl := Option.some.inj stamp <;> decide
  · intro x latest
    obtain ⟨inside, t, stamp, bound⟩ := latest
    rcases two x inside with rfl | rfl
    · obtain rfl := Option.some.inj stamp
      exact absurd (bound late (by simp) _ rfl) (by decide)
    · rfl

end TwoOrders

open TwoOrders in
theorem arrival_order_immaterial_of_two :
    [early, late].Perm [late, early] ∧ (∀ s ∈ [early, late], s.value.isNaN = false) ∧
      (∃! s, IsLatest (keySamples .station [early, late] key) s) ∧
      (∃ a b, (aggregate .builtin .station [early, late])[key]? = some a ∧
        (aggregate .builtin .station [late, early])[key]? = some b ∧ a.Agrees b ∧
        a.current = b.current) ∧
      ∃ oldest newest, store.readSamples window 2 .ascending = .ok oldest ∧
        store.readSamples window 2 .descending = .ok newest ∧ (∀ s, s ∈ oldest ↔ s ∈ newest) ∧
        List.Forall₂ (StationView.Agrees oldest)
          (Catalog.builtin.evaluate .epoch [north] oldest).stations
          (Catalog.builtin.evaluate .epoch [north] newest).stations := by
  have perm : [early, late].Perm [late, early] := .swap late early []
  have numbers : ∀ s ∈ [early, late], s.value.isNaN = false := by decide +kernel
  obtain ⟨permuted, reads⟩ := arrival_order_immaterial
  obtain ⟨a, found⟩ := Option.isSome_iff_exists.mp (emitted_iff.mpr
    ⟨early, List.mem_cons_self, rfl, by decide⟩ :
      (aggregate .builtin .station [early, late])[key]?.isSome = true)
  have related := permuted .builtin .station _ _ perm numbers key
  rw [found] at related
  cases found' : (aggregate .builtin .station [late, early])[key]? with
  | none =>
    rw [found'] at related
    cases related
  | some b =>
    rw [found'] at related
    obtain ⟨agrees, current⟩ := Option.rel_some_some.mp related
    obtain ⟨oldest, newest, read, read', views⟩ := reads store window window 2 2
    have same := Store.mem_reads_iff (by decide) (by decide) read read'
    exact ⟨perm, numbers, latest_alone, ⟨a, b, found, rfl, agrees, current latest_alone⟩,
      oldest, newest, read, read', same, views same .builtin .epoch .epoch [north]⟩

end FleetHealth
