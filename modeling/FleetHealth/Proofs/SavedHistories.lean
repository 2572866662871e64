import FleetHealth.Proofs.ByteOrder
import FleetHealth.Proofs.ExactReads
/-!
What a store holds after a history of writes: of each id the last sample and the last station that
a successful call wrote. A call fails exactly if one of its values is not a number, and then leaves
nothing behind.
-/
namespace FleetHealth

/-- A call that writes to a store. -/
inductive Save where
  | stations (batch : List Station)
  | samples (batch : List Sample)

namespace Save

def apply (store : Store) : Save → Except StoreError Store
  | stations batch => .ok (store.saveStations batch)
  | samples batch => store.saveSamples batch

/-- The store after a call, successful or not. -/
def after (store : Store) (call : Save) : Store := (call.apply store).toOption.getD store

def writtenStations : Save → List Station
  | stations batch => batch
  | samples _ => []

/-- A batch with a value that is not a number is not written. -/
def writtenSamples : Save → List Sample
  | stations _ => []
  | samples batch => if batch.any (·.value.isNaN) then [] else batch

end Save

/-- The store after a history of calls on an empty one. -/
def Store.afterAll (calls : List Save) : Store := calls.foldl Save.after .empty

def lastSample? (calls : List Save) (i : Int64) : Option Sample :=
  ((calls.flatMap Save.writtenSamples).filter (fun s => s.id = i)).getLast?

def lastStation? (calls : List Save) (id : String) : Option Station :=
  ((calls.flatMap Save.writtenStations).filter (fun s => s.id = id)).getLast?

/-- The sample as a store gives it back: a zero has lost its sign. -/
def Sample.kept (s : Sample) : Sample :=
  { s with value := if s.value == 0.0 then 0.0 else s.value }

/-- The store has one row per written id, which reads as the last sample written under it, and
lists one station per id in the order of the ids' bytes, each as it was last written. -/
structure Store.HoldsLast (calls : List Save) (store : Store) : Prop where
  rows : ∀ r : SampleRow, r ∈ store.samples.values ↔
    ∃ s, lastSample? calls r.id = some s ∧ r.sample = .ok s.kept ∧ r = (SampleRow.ofSample s).stored
  ids : store.samples.values.Pairwise (fun a b => a.id < b.id)
  answers : ∀ limit : UInt32, store.samples.size ≤ limit.toNat →
    ∃ samples, store.recentSamples limit = .ok samples ∧
      samples.Pairwise (fun a b => a.id < b.id) ∧
      ∀ x, x ∈ samples ↔ ∃ s, lastSample? calls x.id = some s ∧ x = s.kept
  stations : ∀ s : Station, s ∈ store.listStations ↔ lastStation? calls s.id = some s
  order : store.listStations.Pairwise (fun a b => Text.bytes a.id < Text.bytes b.id)

section Rows

variable (s : Sample) (t : Station)

theorem SampleRow.readsAs_stored : (SampleRow.ofSample s).stored.ReadsAs s.kept := by
  refine ⟨rfl, rfl, (Metric.ofText_name s.metric).symm, rfl, ?_, rfl⟩
  show s.timestamp.map Instant.millis =
    (s.timestamp.map (fun t => Int64.ofInt t.millis)).map Int64.toInt
  cases s.timestamp with
  | none => rfl
  | some moment =>
    have range := moment.inRange
    have same : (Int64.ofInt moment.millis).toInt = moment.millis :=
      Int64.toInt_ofInt_of_le (by omega) (by omega)
    rw [Option.map_some, Option.map_some, Option.map_some, same]

theorem StationRow.station_ofStation : (StationRow.ofStation t).station = t := by
  show (⟨t.id, t.name, t.location, .ofText t.lifecycle.name⟩ : Station) = t
  rw [Lifecycle.ofText_name]

end Rows

namespace Store

variable {store : Store}

theorem saveSamples_of_notANumber {batch : List Sample}
    (bad : ∃ s ∈ batch, s.value.isNaN = true) : store.saveSamples batch = .error .notANumber := by
  induction batch generalizing store with
  | nil =>
    obtain ⟨s, inside, _⟩ := bad
    cases inside
  | cons s rest ih =>
    rw [saveSamples, List.foldlM_cons]
    cases first : s.value.isNaN with
    | true =>
      have refused : store.putSample (.ofSample s) = .error .notANumber := if_pos first
      rw [refused]
      rfl
    | false =>
      have later : ∃ x ∈ rest, x.value.isNaN = true := by
        obtain ⟨x, inside, wrong⟩ := bad
        rcases List.mem_cons.mp inside with rfl | inside
        · rw [first] at wrong
          cases wrong
        · exact ⟨x, inside, wrong⟩
      obtain ⟨t, put⟩ : ∃ t, store.putSample (.ofSample s) = .ok t :=
        ⟨_, putSample_ok_iff.mpr ⟨first, rfl⟩⟩
      rw [put]
      exact ih later

theorem saveSamples_fails_iff {batch : List Sample} :
    (∃ e, store.saveSamples batch = .error e) ↔ ∃ s ∈ batch, s.value.isNaN = true := by
  constructor
  · intro h
    obtain ⟨e, failed⟩ := h
    by_contra none_bad
    have numbers : ∀ s ∈ batch, s.value.isNaN = false :=
      fun s inside => Bool.eq_false_iff.mpr (fun wrong => none_bad ⟨s, inside, wrong⟩)
    rw [saveSamples_eq numbers] at failed
    cases failed
  · intro bad
    exact ⟨_, saveSamples_of_notANumber bad⟩

theorem saveStations_eq (batch : List Station) (store : Store) :
    store.saveStations batch = { store with
      stations := batch.foldl (fun rows s => rows.insert s.id (.ofStation s)) store.stations } := by
  induction batch generalizing store with
  | nil => rfl
  | cons s rest ih =>
    rw [saveStations, List.foldl_cons]
    exact ih (store.putStation (.ofStation s))

/-- A call inserts what it writes; a failing call writes nothing. -/
theorem after_eq (store : Store) (call : Save) :
    call.after store =
      ⟨call.writtenStations.foldl (fun rows s => rows.insert s.id (.ofStation s)) store.stations,
        call.writtenSamples.foldl (fun rows s => rows.insert s.id (SampleRow.ofSample s).stored)
          store.samples⟩ := by
  cases call with
  | stations batch => exact saveStations_eq batch store
  | samples batch =>
    show (store.saveSamples batch).toOption.getD store = _
    cases bad : batch.any (·.value.isNaN) with
    | true =>
      rw [saveSamples_of_notANumber (List.any_eq_true.mp bad), Save.writtenSamples, bad]
      rfl
    | false =>
      have numbers : ∀ s ∈ batch, s.value.isNaN = false := by simpa using bad
      rw [saveSamples_eq numbers, Save.writtenSamples, bad]
      rfl

theorem foldl_after_eq (calls : List Save) (store : Store) :
    calls.foldl Save.after store =
      ⟨(calls.flatMap Save.writtenStations).foldl (fun rows s => rows.insert s.id (.ofStation s))
          store.stations,
        (calls.flatMap Save.writtenSamples).foldl
          (fun rows s => rows.insert s.id (SampleRow.ofSample s).stored) store.samples⟩ := by
  induction calls generalizing store with
  | nil => rfl
  | cons call rest ih =>
    rw [List.foldl_cons, ih, after_eq, List.flatMap_cons, List.flatMap_cons, List.foldl_append,
      List.foldl_append]

section AfterAll

variable (calls : List Save)

theorem getElem?_samples_afterAll (i : Int64) :
    (afterAll calls).samples[i]? =
      (lastSample? calls i).map (fun s => (SampleRow.ofSample s).stored) := by
  rw [afterAll, foldl_after_eq]
  dsimp only
  rw [KeyedFold.getElem?_foldl_insert Sample.id (fun s => (SampleRow.ofSample s).stored)]
  simp [lastSample?, empty]

theorem getElem?_stations_afterAll (id : String) :
    (afterAll calls).stations[id]? = (lastStation? calls id).map StationRow.ofStation := by
  rw [afterAll, foldl_after_eq]
  dsimp only
  rw [KeyedFold.getElem?_foldl_insert Station.id StationRow.ofStation]
  simp [lastStation?, empty]

theorem id_of_lastSample? {calls : List Save} {i : Int64} {s : Sample}
    (last : lastSample? calls i = some s) : s.id = i :=
  of_decide_eq_true (List.mem_filter.mp (List.mem_of_getLast? last)).2

theorem id_of_lastStation? {calls : List Save} {id : String} {s : Station}
    (last : lastStation? calls id = some s) : s.id = id :=
  of_decide_eq_true (List.mem_filter.mp (List.mem_of_getLast? last)).2

theorem keyed_afterAll : (afterAll calls).Keyed := by
  intro i r found
  rw [getElem?_samples_afterAll] at found
  obtain ⟨s, last, rfl⟩ := Option.map_eq_some_iff.mp found
  exact id_of_lastSample? last

theorem mem_values_afterAll {r : SampleRow} :
    r ∈ (afterAll calls).samples.values ↔
      ∃ s, lastSample? calls r.id = some s ∧ r = (SampleRow.ofSample s).stored := by
  rw [(keyed_afterAll calls).mem_values_iff, getElem?_samples_afterAll, Option.map_eq_some_iff]
  simp only [eq_comm]

theorem station_keyed_afterAll (id : String) (r : StationRow)
    (found : (afterAll calls).stations[id]? = some r) : r.id = id := by
  rw [getElem?_stations_afterAll] at found
  obtain ⟨s, last, rfl⟩ := Option.map_eq_some_iff.mp found
  exact id_of_lastStation? last

theorem mem_listStations_afterAll {s : Station} :
    s ∈ (afterAll calls).listStations ↔ lastStation? calls s.id = some s := by
  rw [listStations, List.mem_map]
  simp only [KeyedFold.mem_values_of_keyed (station_keyed_afterAll calls),
    getElem?_stations_afterAll, Option.map_eq_some_iff]
  constructor
  · intro h
    obtain ⟨_, ⟨x, last, rfl⟩, rfl⟩ := h
    rw [StationRow.station_ofStation]
    exact last
  · intro last
    exact ⟨.ofStation s, ⟨s, last, rfl⟩, StationRow.station_ofStation s⟩

theorem listStations_ascending :
    (afterAll calls).listStations.Pairwise (fun a b => Text.bytes a.id < Text.bytes b.id) := by
  rw [listStations, List.pairwise_map]
  refine (KeyedFold.values_ascending_of_keyed (station_keyed_afterAll calls)).imp ?_
  intro a b before
  exact Text.bytes_lt_of_lt (compareOfLessAndEq_eq_lt.mp before)

/-- With room for all rows, a read of the greatest ids gives every written id's last sample. -/
theorem recentSamples_afterAll {limit : UInt32}
    (room : (afterAll calls).samples.size ≤ limit.toNat) :
    ∃ samples, (afterAll calls).recentSamples limit = .ok samples ∧
      samples.Pairwise (fun a b => a.id < b.id) ∧
      ∀ x, x ∈ samples ↔ ∃ s, lastSample? calls x.id = some s ∧ x = s.kept := by
  have decoded : ∀ r ∈ (afterAll calls).samples.values,
      ∃ s, lastSample? calls r.id = some s ∧ r.ReadsAs s.kept := by
    intro r member
    obtain ⟨s, last, stored⟩ := (mem_values_afterAll calls).mp member
    exact ⟨s, last, stored ▸ SampleRow.readsAs_stored s⟩
  have length : (afterAll calls).samples.values.length ≤ limit.toNat := by
    rw [KeyedFold.values_eq_map_toList, List.length_map, Std.TreeMap.length_toList]
    exact room
  refine ⟨(afterAll calls).samples.values.map SampleRow.decoded, ?_, ?_, ?_⟩
  · rw [recentSamples_eq_ok_iff, List.rtake, Nat.sub_eq_zero_of_le length, List.drop_zero,
      List.forall₂_map_right_iff, List.forall₂_same]
    intro r member
    obtain ⟨s, _, reads⟩ := decoded r member
    rw [SampleRow.decoded_of_readsAs reads]
    exact reads
  · exact List.pairwise_map.mpr (keyed_afterAll calls).values_ascending
  · intro x
    rw [List.mem_map]
    constructor
    · intro h
      obtain ⟨r, member, rfl⟩ := h
      obtain ⟨s, last, reads⟩ := decoded r member
      exact ⟨s, last, SampleRow.decoded_of_readsAs reads⟩
    · intro h
      obtain ⟨s, last, rfl⟩ := h
      refine ⟨(SampleRow.ofSample s).stored, ?_,
        SampleRow.decoded_of_readsAs (SampleRow.readsAs_stored s)⟩
      exact (mem_values_afterAll calls).mpr ⟨s, last, rfl⟩

theorem holdsLast_afterAll : (afterAll calls).HoldsLast calls where
  rows := by
    intro r
    rw [mem_values_afterAll]
    constructor
    · intro h
      obtain ⟨s, last, stored⟩ := h
      have reads : r.ReadsAs s.kept := stored ▸ SampleRow.readsAs_stored s
      exact ⟨s, last, SampleRow.sample_eq_ok_iff.mpr reads, stored⟩
    · intro h
      obtain ⟨s, last, _, stored⟩ := h
      exact ⟨s, last, stored⟩
  ids := (keyed_afterAll calls).values_ascending
  answers := fun _ room => recentSamples_afterAll calls room
  stations := fun _ => mem_listStations_afterAll calls
  order := listStations_ascending calls

end AfterAll

/-- Every history leaves the last of what its successful calls wrote. The calls that fail are those
with a value that is not a number, and the history without one of them leaves the same store. -/
theorem histories_keep_last :
    (∀ (store : Store) (batch : List Sample),
      (∃ e, store.saveSamples batch = .error e) ↔ ∃ s ∈ batch, s.value.isNaN = true) ∧
    (∀ (before rest : List Save) (call : Save),
      (∃ e, call.apply (afterAll before) = .error e) →
        afterAll (before ++ call :: rest) = afterAll (before ++ rest)) ∧
    ∀ calls : List Save, (afterAll calls).HoldsLast calls := by
  refine ⟨fun store batch => saveSamples_fails_iff, ?_, holdsLast_afterAll⟩
  intro before rest call h
  obtain ⟨e, failed⟩ := h
  have unchanged : call.after (afterAll before) = afterAll before := by
    rw [Save.after, failed]
    rfl
  calc afterAll (before ++ call :: rest)
      = rest.foldl Save.after (call.after (afterAll before)) := List.foldl_append
    _ = rest.foldl Save.after (afterAll before) := by rw [unchanged]
    _ = afterAll (before ++ rest) := List.foldl_append.symm

/- The second call would write one sample before it meets the value that is not a number. -/
theorem histories_keep_last_of_refused_batch :
    let first := Save.samples [⟨1, "bs-1", .latency, 12.0, none, none⟩]
    let refused := Save.samples [⟨1, "bs-1", .latency, 30.0, none, none⟩,
      ⟨2, "bs-1", .uptime, 0.0 / 0.0, none, none⟩]
    let last := Save.samples [⟨2, "bs-2", .unknown, -0.0, none, some "dB"⟩]
    (∃ e, refused.apply (afterAll [first]) = .error e) ∧
      afterAll [first, refused, last] = afterAll [first, last] ∧
      (afterAll [first, refused, last]).HoldsLast [first, refused, last] := by
  intro first refused last
  obtain ⟨fails, leaves, holds⟩ := histories_keep_last
  have failed : ∃ e, refused.apply (afterAll [first]) = .error e :=
    (fails _ _).mpr ⟨⟨2, "bs-1", .uptime, 0.0 / 0.0, none, none⟩, by simp, by decide⟩
  exact ⟨failed, leaves [first] [last] refused failed, holds _⟩

end Store
end FleetHealth
