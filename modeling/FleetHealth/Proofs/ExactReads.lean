import Mathlib.Data.List.DropRight
import FleetHealth.Proofs.StoredRows
/-!
What the reads of a store answer. A window read never fails and answers the first rows of its
window by time, those of one time by id. A read of the greatest ids fails exactly if it meets a time
that is no representable moment.
-/
namespace FleetHealth

theorem Instant.millis_injective {t u : Instant} (same : t.millis = u.millis) : t = u := by
  cases t
  cases u
  simpa using same

namespace SampleRow

/-- The sample has the row's fields, its metric as the row's text reads. -/
structure ReadsAs (r : SampleRow) (s : Sample) : Prop where
  id : s.id = r.id
  stationId : s.stationId = r.stationId
  metric : s.metric = .ofText r.metricText
  value : s.value = r.value
  millis : s.timestamp.map Instant.millis = r.millis.map Int64.toInt
  unit : s.unit = r.unit

/-- The row has a time that is no representable moment. -/
def OutOfRange (r : SampleRow) : Prop :=
  ∃ n, r.millis = some n ∧ (n.toInt < -8334601228800000 ∨ 8210266876799999 < n.toInt)

/-- The row has a time, from the window's start on and before its stop. -/
def LiesIn (w : Window) (r : SampleRow) : Prop :=
  ∃ n, r.millis = some n ∧ w.start.millis ≤ n.toInt ∧ n.toInt < w.stop.millis

/-- An earlier time, or of equal times the lesser id. -/
def Before (a b : SampleRow) : Prop :=
  ∃ m n, a.millis = some m ∧ b.millis = some n ∧ (m < n ∨ m = n ∧ a.id < b.id)

section Decoding

variable {r : SampleRow} {s : Sample} {w : Window}

theorem timestamp_eq_ok_iff {t : Option Instant} :
    r.timestamp = .ok t ↔ t.map Instant.millis = r.millis.map Int64.toInt := by
  unfold timestamp
  cases r.millis with
  | none => cases t <;> simp
  | some n =>
    dsimp only
    cases moment : Instant.ofMillis? n.toInt with
    | none =>
      have absent : t.map Instant.millis ≠ some n.toInt := by
        intro same
        obtain ⟨u, _, same⟩ := Option.map_eq_some_iff.mp same
        rw [Instant.ofMillis?_eq_some_iff.mpr same] at moment
        cases moment
      simp [absent]
    | some u =>
      have same := Instant.ofMillis?_eq_some_iff.mp moment
      rw [Except.ok.injEq, Option.map_some, ← same]
      constructor
      · intro h
        rw [← h, Option.map_some]
      · intro h
        obtain ⟨v, found, equal⟩ := Option.map_eq_some_iff.mp h
        rw [found, Instant.millis_injective equal]

theorem timestamp_fails_iff : (∃ e, r.timestamp = .error e) ↔ r.OutOfRange := by
  unfold timestamp OutOfRange
  cases r.millis with
  | none => simp
  | some n =>
    have moment : Instant.ofMillis? n.toInt = none ↔
        n.toInt < -8334601228800000 ∨ 8210266876799999 < n.toInt := by
      unfold Instant.ofMillis?
      split
      · simp only [reduceCtorEq, false_iff]
        omega
      · simp only [true_iff]
        omega
    simp only [Option.some.injEq, exists_eq_left', ← moment]
    cases Instant.ofMillis? n.toInt <;> simp

theorem sample_eq_ok_iff : r.sample = .ok s ↔ r.ReadsAs s := by
  have opened : r.sample = .ok s ↔ ∃ t, r.timestamp = .ok t ∧
      (⟨r.id, r.stationId, .ofText r.metricText, r.value, t, r.unit⟩ : Sample) = s := by
    unfold sample
    cases r.timestamp with
    | error e => simp [Except.map]
    | ok t => simp [Except.map]
  rw [opened]
  constructor
  · intro h
    obtain ⟨t, moment, rfl⟩ := h
    exact ⟨rfl, rfl, rfl, rfl, timestamp_eq_ok_iff.mp moment, rfl⟩
  · intro reads
    obtain ⟨id, station, metric, value, moment, unit⟩ := reads
    refine ⟨s.timestamp, timestamp_eq_ok_iff.mpr moment, ?_⟩
    rw [← id, ← station, ← metric, ← value, ← unit]

theorem sample_fails_iff : (∃ e, r.sample = .error e) ↔ r.OutOfRange := by
  rw [← timestamp_fails_iff]
  unfold sample
  cases r.timestamp with
  | error e => simp [Except.map]
  | ok t => simp [Except.map]

theorem isWithin_iff : r.isWithin w = true ↔ r.LiesIn w := by
  unfold isWithin LiesIn
  cases r.millis with
  | none => simp
  | some n => simp

theorem liesIn_iff_contains : r.LiesIn w ↔ ∃ t, r.timestamp = .ok (some t) ∧ w.Contains t := by
  constructor
  · intro lies
    obtain ⟨n, t, millis, moment, inside⟩ := exists_instant (isWithin_iff.mpr lies)
    refine ⟨t, timestamp_eq_ok_iff.mpr ?_, inside⟩
    rw [millis, Option.map_some, Option.map_some, Instant.ofMillis?_eq_some_iff.mp moment]
  · intro h
    obtain ⟨t, stamp, after, before⟩ := h
    obtain ⟨n, millis, same⟩ := Option.map_eq_some_iff.mp (timestamp_eq_ok_iff.mp stamp).symm
    refine ⟨n, millis, ?_, ?_⟩
    · rw [same]
      exact after
    · rw [same]
      exact before

theorem decoded_of_readsAs (reads : r.ReadsAs s) : r.decoded = s := by
  obtain ⟨id, station, metric, value, moment, unit⟩ := reads
  have same : r.millis.bind (fun n => Instant.ofMillis? n.toInt) = s.timestamp := by
    cases stamp : s.timestamp with
    | none =>
      rw [stamp, Option.map_none, eq_comm, Option.map_eq_none_iff] at moment
      rw [moment, Option.bind_none]
    | some t =>
      rw [stamp, Option.map_some, eq_comm] at moment
      obtain ⟨n, millis, equal⟩ := Option.map_eq_some_iff.mp moment
      rw [millis, Option.bind_some, equal, Instant.ofMillis?_millis]
  rw [decoded, same, ← id, ← station, ← metric, ← value, ← unit]

theorem readsAs_decoded (lies : r.LiesIn w) : r.ReadsAs r.decoded :=
  sample_eq_ok_iff.mp (sample_of_isWithin (isWithin_iff.mpr lies))

end Decoding

section Order

variable {a b : SampleRow}

theorem Before.asymm (before : a.Before b) : ¬ b.Before a := by
  intro after
  obtain ⟨m, n, ma, mb, order⟩ := before
  obtain ⟨n', m', mb', ma', order'⟩ := after
  obtain rfl : m = m' := Option.some.inj (ma.symm.trans ma')
  obtain rfl : n = n' := Option.some.inj (mb.symm.trans mb')
  simp only [Int64.lt_iff_toInt_lt, ← Int64.toInt_inj] at order order'
  omega

theorem le_ascending_iff {m n : Int64} (ma : a.millis = some m) (mb : b.millis = some n) :
    SortOrder.ascending.le a b = true ↔ m < n ∨ m = n ∧ a.id ≤ b.id := by
  have lex : SortOrder.ascending.le a b =
      ((compare a.millis b.millis).then (compare a.id b.id)).isLE := rfl
  have moments : compare (some m) (some n) = compare m n := rfl
  rw [lex, Ordering.isLE_then_iff_or, ma, mb, moments, Std.compare_eq_lt,
    Std.LawfulEqOrd.compare_eq_iff_eq, Std.LawfulOrderOrd.isLE_compare]

/-- Rows with times and different ids that a sort leaves in this order stand strictly in it. -/
theorem before_of_le {w : Window} (la : a.LiesIn w) (lb : b.LiesIn w) (apart : a.id ≠ b.id)
    (le : SortOrder.ascending.le a b = true) : a.Before b := by
  obtain ⟨m, ma, _⟩ := la
  obtain ⟨n, mb, _⟩ := lb
  refine ⟨m, n, ma, mb, ?_⟩
  rcases (le_ascending_iff ma mb).mp le with earlier | ⟨same, less⟩
  · exact .inl earlier
  · exact .inr ⟨same, Int64.lt_of_le_of_ne less apart⟩

end Order
end SampleRow

namespace SortOrder

theorem le_trans (order : SortOrder) (a b c : SampleRow) (ab : order.le a b = true)
    (bc : order.le b c = true) : order.le a c = true := by
  cases order with
  | ascending => exact Std.TransCmp.isLE_trans ab bc
  | descending => exact Std.TransCmp.isLE_trans bc ab

theorem le_total (order : SortOrder) (a b : SampleRow) :
    (order.le a b || order.le b a) = true := by
  have total : ∀ a b : SampleRow, SortOrder.ascending.le a b = false →
      SortOrder.ascending.le b a = true := by
    intro a b later
    have swapped := Std.OrientedCmp.lt_of_gt (Ordering.isLE_eq_false.mp later)
    exact Ordering.isLE_of_eq_lt swapped
  rw [Bool.or_eq_true]
  cases h : order.le a b with
  | true => exact .inl rfl
  | false =>
    cases order with
    | ascending => exact .inr (total a b h)
    | descending => exact .inr (total b a h)

end SortOrder

namespace Store

variable {store : Store}

theorem Keyed.mem_rowsWithin_iff (keyed : store.Keyed) {w : Window} {order : SortOrder}
    {r : SampleRow} :
    r ∈ store.rowsWithin w order ↔ store.samples[r.id]? = some r ∧ r.LiesIn w := by
  rw [mem_rowsWithin, ← KeyedFold.mem_values, keyed.mem_values_iff, SampleRow.isWithin_iff]

theorem rowsWithin_sorted (keyed : store.Keyed) (w : Window) (order : SortOrder) :
    (store.rowsWithin w order).Pairwise (fun a b =>
      a.LiesIn w ∧ b.LiesIn w ∧ a.id ≠ b.id ∧ order.le a b = true) := by
  have sorted : (store.rowsWithin w order).Pairwise (fun a b => order.le a b = true) :=
    List.pairwise_mergeSort order.le_trans order.le_total _
  have apart : (store.rowsWithin w order).Pairwise (fun a b => a.id ≠ b.id) :=
    List.pairwise_map.mp (rowsWithin_ids_nodup keyed w order)
  refine (sorted.and apart).imp_of_mem ?_
  intro a b ma mb both
  exact ⟨(keyed.mem_rowsWithin_iff.mp ma).2, (keyed.mem_rowsWithin_iff.mp mb).2, both.2, both.1⟩

theorem rowsWithin_ascending (keyed : store.Keyed) (w : Window) :
    (store.rowsWithin w .ascending).Pairwise SampleRow.Before := by
  refine (rowsWithin_sorted keyed w .ascending).imp ?_
  intro a b h
  obtain ⟨la, lb, apart, le⟩ := h
  exact SampleRow.before_of_le la lb apart le

theorem rowsWithin_newest_first (keyed : store.Keyed) (w : Window) :
    (store.rowsWithin w .descending).Pairwise (fun a b => b.Before a) := by
  refine (rowsWithin_sorted keyed w .descending).imp ?_
  intro a b h
  obtain ⟨la, lb, apart, le⟩ := h
  exact SampleRow.before_of_le lb la apart.symm le

/-- Newest first is oldest first read backwards. -/
theorem rowsWithin_descending (keyed : store.Keyed) (w : Window) :
    store.rowsWithin w .descending = (store.rowsWithin w .ascending).reverse := by
  have backwards : (store.rowsWithin w .ascending).reverse.Pairwise (fun a b => b.Before a) :=
    List.pairwise_reverse.mpr (rowsWithin_ascending keyed w)
  have perm : (store.rowsWithin w .descending).Perm (store.rowsWithin w .ascending).reverse :=
    (List.mergeSort_perm _ _).trans
      ((List.mergeSort_perm _ _).symm.trans (List.reverse_perm _).symm)
  refine perm.eq_of_pairwise ?_ (rowsWithin_newest_first keyed w) backwards
  intro a b _ _ after before
  exact absurd before after.asymm

theorem readSamples_ok (keyed : store.Keyed) (w : Window) (limit : UInt32) (order : SortOrder) :
    ∃ samples, store.readSamples w limit order = .ok samples ∧
      List.Forall₂ SampleRow.ReadsAs ((store.rowsWithin w order).take limit.toNat) samples := by
  refine ⟨_, readSamples_eq store w limit order, ?_⟩
  rw [List.forall₂_map_right_iff, List.forall₂_same]
  intro r taken
  exact SampleRow.readsAs_decoded (keyed.mem_rowsWithin_iff.mp (List.mem_of_mem_take taken)).2

theorem recentSamples_eq (store : Store) (limit : UInt32) :
    store.recentSamples limit =
      ((store.samples.values.rtake limit.toNat).reverse.mapM SampleRow.sample).map List.reverse := by
  rw [recentSamples, List.rtake_eq_reverse_take_reverse, List.reverse_reverse]

theorem recentSamples_fails_iff {limit : UInt32} :
    (∃ e, store.recentSamples limit = .error e) ↔
      ∃ r ∈ store.samples.values.rtake limit.toNat, r.OutOfRange := by
  have stops : (∃ e, store.recentSamples limit = .error e) ↔
      ∃ e, (store.samples.values.rtake limit.toNat).reverse.mapM SampleRow.sample = .error e := by
    rw [recentSamples_eq]
    cases (store.samples.values.rtake limit.toNat).reverse.mapM SampleRow.sample with
    | error e => simp [Except.map]
    | ok samples => simp [Except.map]
  rw [stops, mapM_fails_iff]
  simp only [List.mem_reverse, SampleRow.sample_fails_iff]

theorem recentSamples_eq_ok_iff {limit : UInt32} {samples : List Sample} :
    store.recentSamples limit = .ok samples ↔
      List.Forall₂ SampleRow.ReadsAs (store.samples.values.rtake limit.toNat) samples := by
  have newest : store.recentSamples limit = .ok samples ↔
      (store.samples.values.rtake limit.toNat).reverse.mapM SampleRow.sample =
        .ok samples.reverse := by
    rw [recentSamples_eq]
    cases (store.samples.values.rtake limit.toNat).reverse.mapM SampleRow.sample with
    | error e => simp [Except.map]
    | ok read => simp [Except.map, List.reverse_eq_iff]
  rw [newest, mapM_eq_ok_iff, List.forall₂_reverse_iff]
  simp only [SampleRow.sample_eq_ok_iff]

/-- Every window is read without failure as the limit's first rows of it, from either end; and the
greatest ids are read as they are or, if a time among them is no moment, not at all. -/
theorem reads_exact (keyed : store.Keyed) :
    (∀ w : Window, ∃ rows : List SampleRow,
      (∀ r, r ∈ rows ↔ store.samples[r.id]? = some r ∧ r.LiesIn w) ∧
      rows.Pairwise SampleRow.Before ∧
      ∀ limit : UInt32, ∃ oldest newest,
        store.readSamples w limit .ascending = .ok oldest ∧
        store.readSamples w limit .descending = .ok newest ∧
        List.Forall₂ SampleRow.ReadsAs (rows.take limit.toNat) oldest ∧
        List.Forall₂ SampleRow.ReadsAs (rows.reverse.take limit.toNat) newest ∧
        (rows.length ≤ limit.toNat → newest = oldest.reverse)) ∧
    (∀ (w : Window) (r : SampleRow),
      r.LiesIn w ↔ ∃ t, r.timestamp = .ok (some t) ∧ w.Contains t) ∧
    (∃ rows : List SampleRow,
      (∀ r, r ∈ rows ↔ store.samples[r.id]? = some r) ∧
      rows.Pairwise (fun a b => a.id < b.id) ∧
      ∀ limit : UInt32,
        ((∃ e, store.recentSamples limit = .error e) ↔
          ∃ r ∈ rows.rtake limit.toNat, r.OutOfRange) ∧
        ∀ samples, store.recentSamples limit = .ok samples ↔
          List.Forall₂ SampleRow.ReadsAs (rows.rtake limit.toNat) samples) := by
  refine ⟨?_, fun w r => SampleRow.liesIn_iff_contains, ?_⟩
  · intro w
    refine ⟨store.rowsWithin w .ascending, fun r => keyed.mem_rowsWithin_iff,
      rowsWithin_ascending keyed w, ?_⟩
    intro limit
    obtain ⟨oldest, up, oldest_rows⟩ := readSamples_ok keyed w limit .ascending
    obtain ⟨newest, down, newest_rows⟩ := readSamples_ok keyed w limit .descending
    rw [rowsWithin_descending keyed w] at newest_rows
    refine ⟨oldest, newest, up, down, oldest_rows, newest_rows, ?_⟩
    intro all
    rw [readSamples_eq, Except.ok.injEq] at up down
    rw [← up, ← down, rowsWithin_descending keyed w, List.take_of_length_le all,
      List.take_of_length_le (by rwa [List.length_reverse]), List.map_reverse]
  · exact ⟨store.samples.values, fun r => keyed.mem_values_iff, keyed.values_ascending,
      fun limit => ⟨recentSamples_fails_iff, fun samples => recentSamples_eq_ok_iff⟩⟩

end Store

namespace ForeignRows

/- Two rows of one time, one without a time, and one with a time that is no moment. -/
def rows : List SampleRow :=
  [⟨2, "bs-1", "latency", 12.0, some 1000, none⟩,
    ⟨1, "bs-1", " CPU_LOAD ", 40.0, some 1000, some "%"⟩,
    ⟨3, "bs-2", "fan_speed", 7.0, none, none⟩,
    ⟨4, "bs-2", "uptime", 99.0, some Int64.maxValue, none⟩]

def store : Store := ⟨∅, rows.foldl (fun held r => held.insert r.id r) ∅⟩

def window : Window := ⟨⟨1000, by decide⟩, ⟨1001, by decide⟩⟩

theorem keyed : store.Keyed :=
  (((Store.keyed_empty.insert _).insert _).insert _).insert _

end ForeignRows

open ForeignRows in
theorem reads_exact_of_foreign_rows :
    store.Keyed ∧ (∃ oldest newest, store.readSamples window 1 .ascending = .ok oldest ∧
      store.readSamples window 1 .descending = .ok newest) ∧
    store.recentSamples 2 = .error (.timestampOutOfRange Int64.maxValue) ∧
    ∃ rows : List SampleRow, ∃ r ∈ rows.rtake 2, store.samples[r.id]? = some r ∧ r.OutOfRange := by
  obtain ⟨windows, _, rows, members, _, recent⟩ := Store.reads_exact keyed
  obtain ⟨_, _, _, reads⟩ := windows window
  obtain ⟨oldest, newest, up, down, _⟩ := reads 1
  obtain ⟨fails, _⟩ := recent 2
  have stops : store.recentSamples 2 = .error (.timestampOutOfRange Int64.maxValue) := by rfl
  obtain ⟨r, taken, late⟩ := fails.mp ⟨_, stops⟩
  have held : r ∈ rows := List.mem_of_mem_drop taken
  exact ⟨keyed, ⟨oldest, newest, up, down⟩, stops, rows, r, taken, (members r).mp held, late⟩

end FleetHealth
