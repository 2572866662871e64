import FleetHealth.Store
import FleetHealth.Proofs.KeyedFold
import FleetHealth.Proofs.Outcomes
/-!
What a store holds and what its reads answer. Every row stands under its own id; rows that samples
were saved in keep their texts, their moments and, up to the sign of zero, their values. A window
read never meets a moment that cannot be represented, so it always succeeds.
-/
namespace FleetHealth

namespace SampleRow

/-- The sample a row reads as where its moment can be represented. -/
def decoded (r : SampleRow) : Sample :=
  ⟨r.id, r.stationId, .ofText r.metricText, r.value,
    r.millis.bind (fun n => Instant.ofMillis? n.toInt), r.unit⟩

theorem exists_instant {w : Window} {r : SampleRow} (within : r.isWithin w = true) :
    ∃ n t, r.millis = some n ∧ Instant.ofMillis? n.toInt = some t ∧ w.Contains t := by
  unfold isWithin at within
  cases millis : r.millis with
  | none => simp [millis] at within
  | some n =>
    simp only [millis, Bool.and_eq_true, decide_eq_true_eq] at within
    obtain ⟨after, before⟩ := within
    have lower := w.start.inRange
    have upper := w.stop.inRange
    let t : Instant := ⟨n.toInt, by omega⟩
    exact ⟨n, t, rfl, Instant.ofMillis?_eq_some_iff.mpr rfl, after, before⟩

theorem sample_of_isWithin {w : Window} {r : SampleRow} (within : r.isWithin w = true) :
    r.sample = .ok r.decoded := by
  obtain ⟨n, t, millis, instant, _⟩ := exists_instant within
  simp [sample, timestamp, decoded, millis, instant, Except.map]

end SampleRow

namespace Store

/-- Every row stands under its own id. -/
def Keyed (store : Store) : Prop :=
  ∀ (i : Int64) (r : SampleRow), store.samples[i]? = some r → r.id = i

theorem mem_rowsWithin {store : Store} {w : Window} {order : SortOrder} {r : SampleRow} :
    r ∈ store.rowsWithin w order ↔
      (∃ i : Int64, store.samples[i]? = some r) ∧ r.isWithin w = true := by
  rw [rowsWithin, List.mem_mergeSort, List.mem_filter, KeyedFold.mem_values]

theorem length_rowsWithin_le (store : Store) (w : Window) (order : SortOrder) :
    (store.rowsWithin w order).length ≤ store.samples.size := by
  calc (store.rowsWithin w order).length
      = (store.samples.values.filter (·.isWithin w)).length := List.length_mergeSort _
    _ ≤ store.samples.values.length := List.length_filter_le _ _
    _ = store.samples.size := by
      rw [KeyedFold.values_eq_map_toList, List.length_map, Std.TreeMap.length_toList]

theorem readSamples_eq (store : Store) (w : Window) (limit : UInt32) (order : SortOrder) :
    store.readSamples w limit order =
      .ok (((store.rowsWithin w order).take limit.toNat).map SampleRow.decoded) := by
  apply mapM_ok
  intro r member
  exact SampleRow.sample_of_isWithin (mem_rowsWithin.mp (List.mem_of_mem_take member)).2

theorem Keyed.mem_values_iff {store : Store} (keyed : store.Keyed) {r : SampleRow} :
    r ∈ store.samples.values ↔ store.samples[r.id]? = some r :=
  KeyedFold.mem_values_of_keyed keyed

/-- All rows, each once, by id. -/
theorem Keyed.values_ascending {store : Store} (keyed : store.Keyed) :
    store.samples.values.Pairwise (fun a b => a.id < b.id) :=
  (KeyedFold.values_ascending_of_keyed keyed).imp Std.compare_eq_lt.mp

theorem rowsWithin_ids_nodup {store : Store} (keyed : store.Keyed) (w : Window)
    (order : SortOrder) : ((store.rowsWithin w order).map SampleRow.id).Nodup := by
  have ids : (store.samples.values.map SampleRow.id).Nodup := by
    rw [List.Nodup, List.pairwise_map]
    exact keyed.values_ascending.imp Int64.ne_of_lt
  have sorted := List.mergeSort_perm (store.samples.values.filter (·.isWithin w)) order.le
  refine (sorted.map SampleRow.id).nodup_iff.mpr ?_
  exact ids.sublist (List.filter_sublist.map SampleRow.id)

theorem putSample_ok_iff {store t : Store} {r : SampleRow} :
    store.putSample r = .ok t ↔ r.value.isNaN = false ∧
      t = { store with samples := store.samples.insert r.id r.stored } := by
  unfold putSample
  cases r.value.isNaN with
  | true =>
    constructor
    · intro h
      cases h
    · intro h
      obtain ⟨h, _⟩ := h
      cases h
  | false =>
    constructor
    · intro put
      exact ⟨rfl, (Except.ok.inj put).symm⟩
    · intro h
      obtain ⟨_, rfl⟩ := h
      rfl

theorem keyed_empty : Store.empty.Keyed := by
  intro i r found
  simp [Store.empty] at found

/-- Whatever row a program writes, every row stays under its own id. -/
theorem Keyed.insert {store : Store} (keyed : store.Keyed) (r : SampleRow) :
    Store.Keyed { store with samples := store.samples.insert r.id r } :=
  KeyedFold.forall_insert keyed rfl

/-- Every row stands under its own id, as a sample left it that is allowed. -/
def FilledWith (allowed : Sample → Prop) (store : Store) : Prop :=
  ∀ (i : Int64) (r : SampleRow), store.samples[i]? = some r →
    r.id = i ∧ ∃ s, allowed s ∧ r = (SampleRow.ofSample s).stored

theorem FilledWith.keyed {allowed : Sample → Prop} {store : Store}
    (filled : store.FilledWith allowed) : store.Keyed :=
  fun i r found => (filled i r found).1

theorem saveSamples_eq {samples : List Sample} (numbers : ∀ s ∈ samples, s.value.isNaN = false)
    (store : Store) :
    store.saveSamples samples = .ok { store with
      samples := samples.foldl (fun rows s => rows.insert s.id (SampleRow.ofSample s).stored)
        store.samples } := by
  induction samples generalizing store with
  | nil => rfl
  | cons s rest ih =>
    have number : (SampleRow.ofSample s).value.isNaN = false := numbers s List.mem_cons_self
    have put : store.putSample (.ofSample s) =
        .ok { store with samples := store.samples.insert s.id (SampleRow.ofSample s).stored } := by
      rw [putSample, number]
      rfl
    rw [saveSamples, List.foldlM_cons, put]
    exact ih (fun x member => numbers x (List.mem_cons_of_mem s member))
      { store with samples := store.samples.insert s.id (SampleRow.ofSample s).stored }

theorem filledWith_putSample {allowed : Sample → Prop} {store t : Store} {s : Sample}
    (filled : store.FilledWith allowed) (ok : allowed s)
    (put : store.putSample (.ofSample s) = .ok t) : t.FilledWith allowed := by
  obtain ⟨_, rfl⟩ := putSample_ok_iff.mp put
  exact KeyedFold.forall_insert filled ⟨rfl, s, ok, rfl⟩

theorem filledWith_saveSamples {allowed : Sample → Prop} {store t : Store} {samples : List Sample}
    (filled : store.FilledWith allowed) (ok : ∀ s ∈ samples, allowed s)
    (saved : store.saveSamples samples = .ok t) : t.FilledWith allowed :=
  foldlM_ok_keeps (fun s member _ _ kept put => filledWith_putSample kept (ok s member) put)
    filled saved

theorem filledWith_history {batches : List (List Sample)} {store : Store}
    {directory : Std.TreeMap String StationRow}
    (saved : batches.foldlM saveSamples ⟨directory, ∅⟩ = .ok store) :
    store.FilledWith (fun s => ∃ batch ∈ batches, s ∈ batch) := by
  have start : (⟨directory, ∅⟩ : Store).FilledWith (fun s => ∃ batch ∈ batches, s ∈ batch) := by
    intro i r found
    simp at found
  refine foldlM_ok_keeps ?_ start saved
  intro batch member _ _ filled save
  exact filledWith_saveSamples filled (fun s inside => ⟨batch, member, inside⟩) save

end Store

namespace SampleRow

theorem stored_isFinite {r : SampleRow} (finite : r.value.isFinite = true) :
    r.stored.value.isFinite = true := by
  unfold stored
  dsimp only
  split
  · decide
  · exact finite

end SampleRow
end FleetHealth
