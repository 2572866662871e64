import FleetHealth.Refresh
import FleetHealth.Proofs.ExactReads
import FleetHealth.Proofs.Merge
import FleetHealth.Proofs.Windows
/-!
What the batches hold after both refreshes from one store. The long window is read from its oldest
row and the short one from its newest; merged, they show no row twice, every row as it is stored,
and miss a row of the short window only where later ones have filled its limit.
-/
namespace FleetHealth

namespace Store

variable {store : Store} {v w : Window}

theorem liesIn_of_shorter {r : SampleRow}
    (nested : w.start.millis ≤ v.start.millis ∧ v.stop.millis = w.stop.millis)
    (lies : r.LiesIn v) : r.LiesIn w := by
  obtain ⟨n, millis, after, before⟩ := lies
  exact ⟨n, millis, by omega, by omega⟩

/-- The rows a refresh reads from a window. -/
def rowsRead (store : Store) (w : Window) (limit : UInt32) (order : SortOrder) : List SampleRow :=
  (store.rowsWithin w order).take limit.toNat

/-- The samples of the rows a refresh reads. -/
def readout (store : Store) (w : Window) (limit : UInt32) (order : SortOrder) : List Sample :=
  (store.rowsRead w limit order).map SampleRow.decoded

theorem source_samples (store : Store) (w : Window) (limit : UInt32) (order : SortOrder) :
    store.source.samples w limit order = some (store.readout w limit order) := by
  show (store.readSamples w limit order).toOption = _
  rw [readSamples_eq]
  rfl

section Reads

variable {limit : UInt32} {order : SortOrder}

theorem of_mem_rowsRead (keyed : store.Keyed) {r : SampleRow}
    (taken : r ∈ store.rowsRead w limit order) : store.samples[r.id]? = some r ∧ r.LiesIn w :=
  keyed.mem_rowsWithin_iff.mp (List.mem_of_mem_take taken)

theorem rowsRead_of_complete (complete : (store.rowsWithin w order).length ≤ limit.toNat) :
    store.rowsRead w limit order = store.rowsWithin w order :=
  List.take_of_length_le complete

variable (w limit order) in
theorem rowsRead_ids_nodup (keyed : store.Keyed) :
    ((store.rowsRead w limit order).map SampleRow.id).Nodup :=
  (rowsWithin_ids_nodup keyed w order).sublist ((List.take_sublist _ _).map SampleRow.id)

variable (w limit order) in
theorem readout_ids_nodup (keyed : store.Keyed) :
    ((store.readout w limit order).map Sample.id).Nodup := by
  rw [readout, List.map_map]
  exact rowsRead_ids_nodup w limit order keyed

/-- Rows have an id in common only if they are one. -/
theorem mem_of_id_mem (keyed : store.Keyed) {r : SampleRow}
    (held : store.samples[r.id]? = some r)
    (known : r.id ∈ (store.readout w limit order).map Sample.id) :
    r ∈ store.rowsRead w limit order := by
  rw [readout, List.map_map] at known
  obtain ⟨x, taken, same⟩ := List.mem_map.mp known
  obtain ⟨held', _⟩ := of_mem_rowsRead keyed taken
  have ids : x.id = r.id := same
  rw [ids, held, Option.some.injEq] at held'
  exact held' ▸ taken

/-- What a limit cuts off stands behind everything that is read. -/
theorem behind_of_cut {behind : SampleRow → SampleRow → Prop} {r : SampleRow}
    (sorted : (store.rowsWithin w order).Pairwise behind) (listed : r ∈ store.rowsWithin w order)
    (cut : r ∉ store.rowsRead w limit order) :
    (store.rowsRead w limit order).length = limit.toNat ∧
      ∀ x ∈ store.rowsRead w limit order, behind x r := by
  unfold rowsRead at cut ⊢
  rw [← List.take_append_drop limit.toNat (store.rowsWithin w order)] at listed sorted
  have dropped : r ∈ (store.rowsWithin w order).drop limit.toNat :=
    (List.mem_append.mp listed).resolve_left cut
  constructor
  · have more := List.length_pos_of_mem dropped
    rw [List.length_drop] at more
    rw [List.length_take]
    omega
  · intro x taken
    exact (List.pairwise_append.mp sorted).2.2 x taken r dropped

end Reads

/-- Once all rows of the long window are read, a live read within it adds nothing. -/
theorem merge_of_complete (keyed : store.Keyed)
    (nested : w.start.millis ≤ v.start.millis ∧ v.stop.millis = w.stop.millis) {limit : UInt32}
    (complete : (store.rowsWithin w .ascending).length ≤ limit.toNat) (liveLimit : UInt32) :
    Sample.merge (store.readout w limit .ascending) (store.readout v liveLimit .descending) =
      store.readout w limit .ascending := by
  refine Sample.merge_of_known (readout_ids_nodup w limit .ascending keyed) ?_
  intro s member
  obtain ⟨r, taken, rfl⟩ := List.mem_map.mp member
  obtain ⟨held, lies⟩ := of_mem_rowsRead keyed taken
  have row : r ∈ store.rowsWithin w .ascending :=
    keyed.mem_rowsWithin_iff.mpr ⟨held, liesIn_of_shorter nested lies⟩
  rw [readout, rowsRead_of_complete complete]
  exact List.mem_map_of_mem (List.mem_map_of_mem row)

/-- The rows of a live read that an earlier read of the long window has not brought. -/
def rowsAdded (store : Store) (w v : Window) (limit liveLimit : UInt32) : List SampleRow :=
  (store.rowsRead v liveLimit .descending).filter
    (fun r => r ∉ store.rowsRead w limit .ascending)

theorem merge_readouts (keyed : store.Keyed) (w v : Window) (limit liveLimit : UInt32) :
    Sample.merge (store.readout w limit .ascending) (store.readout v liveLimit .descending) =
      (store.rowsRead w limit .ascending ++ store.rowsAdded w v limit liveLimit).map
        SampleRow.decoded := by
  rw [Sample.merge_of_distinct (readout_ids_nodup w limit .ascending keyed)
    (readout_ids_nodup v liveLimit .descending keyed), List.map_append, rowsAdded, readout, readout,
    List.filter_map]
  congr 2
  refine List.filter_congr (fun r taken => ?_)
  obtain ⟨held, _⟩ := of_mem_rowsRead keyed taken
  simp only [Function.comp_apply, decide_eq_decide, not_iff_not]
  exact ⟨mem_of_id_mem keyed held, fun old => List.mem_map_of_mem (List.mem_map_of_mem old)⟩

end Store

section Refreshes

variable {store : Store} {plan : RefreshPlan} {now : Instant} {v w : Window}

theorem Batches.refreshHistorical?_of_store (b : Batches)
    (long : Window.endingAt? now plan.historicalWindow = some w) :
    b.refreshHistorical? store.source plan now =
      some ⟨store.listStations, store.readout w plan.historicalLimit .ascending, b.live⟩ := by
  rw [refreshHistorical?, long, Option.map_some, Store.source_samples]
  rfl

theorem Batches.refreshLive?_of_store (b : Batches)
    (short : Window.endingAt? now plan.liveWindow = some v) :
    b.refreshLive? store.source plan now =
      some ⟨b.stations, b.historical, store.readout v plan.liveLimit .descending⟩ := by
  rw [refreshLive?, short, Option.map_some, Store.source_samples]
  rfl

/-- Merged batches of a long window w, read from its oldest row, and of a short window v, read from
its newest: the oldest rows of w up to the limit, then, newest first, what the live read adds. -/
structure Store.MergedReads (store : Store) (plan : RefreshPlan) (v w : Window)
    (merged : List Sample) : Prop where
  ids : (merged.map Sample.id).Nodup
  stored : ∀ s ∈ merged, ∃ r, store.samples[s.id]? = some r ∧ r.ReadsAs s
  newest : ∀ r : SampleRow, store.samples[r.id]? = some r → r.LiesIn v →
    (∃ s ∈ merged, r.ReadsAs s) ∨ ∃ later : List SampleRow,
      plan.liveLimit.toNat ≤ later.length ∧ later.Nodup ∧
      ∀ x ∈ later, store.samples[x.id]? = some x ∧ x.LiesIn v ∧ r.Before x ∧
        ∃ s ∈ merged, x.ReadsAs s
  batches : ∃ historical live,
    store.readSamples w plan.historicalLimit .ascending = .ok historical ∧
    store.readSamples v plan.liveLimit .descending = .ok live ∧
    merged = historical ++ live.filter (fun s => s.id ∉ historical.map Sample.id) ∧
    ((store.rowsWithin w .ascending).length ≤ plan.historicalLimit.toNat → merged = historical)
  order : ∃ oldest added : List SampleRow,
    List.Forall₂ SampleRow.ReadsAs (oldest ++ added) merged ∧
    oldest.Pairwise SampleRow.Before ∧ added.Pairwise (fun a b => b.Before a) ∧
    ∀ r : SampleRow, store.samples[r.id]? = some r → r.LiesIn w → r ∉ oldest →
      oldest.length = plan.historicalLimit.toNat ∧ ∀ x ∈ oldest, x.Before r

namespace Store

theorem of_mem_merged (keyed : store.Keyed) {limit liveLimit : UInt32} {r : SampleRow}
    (member : r ∈ store.rowsRead w limit .ascending ++ store.rowsAdded w v limit liveLimit) :
    store.samples[r.id]? = some r ∧ r.ReadsAs r.decoded := by
  rcases List.mem_append.mp member with old | new
  · obtain ⟨held, lies⟩ := of_mem_rowsRead keyed old
    exact ⟨held, SampleRow.readsAs_decoded lies⟩
  · obtain ⟨held, lies⟩ := of_mem_rowsRead keyed (List.mem_of_mem_filter new)
    exact ⟨held, SampleRow.readsAs_decoded lies⟩

theorem exists_mem_merge (keyed : store.Keyed) {limit liveLimit : UInt32} {r : SampleRow}
    (taken : r ∈ store.rowsRead v liveLimit .descending) :
    ∃ s ∈ Sample.merge (store.readout w limit .ascending) (store.readout v liveLimit .descending),
      r.ReadsAs s := by
  have member : r ∈ store.rowsRead w limit .ascending ++ store.rowsAdded w v limit liveLimit := by
    rw [List.mem_append, rowsAdded, List.mem_filter, decide_eq_true_iff]
    exact (Classical.em _).imp_right (fun new => ⟨taken, new⟩)
  rw [merge_readouts keyed]
  exact ⟨r.decoded, List.mem_map_of_mem member, (of_mem_merged keyed member).2⟩

theorem mergedReads_merge (keyed : store.Keyed)
    (nested : w.start.millis ≤ v.start.millis ∧ v.stop.millis = w.stop.millis) :
    store.MergedReads plan v w (Sample.merge (store.readout w plan.historicalLimit .ascending)
      (store.readout v plan.liveLimit .descending)) where
  ids := Sample.merge_ids_nodup _ _
  stored := by
    intro s member
    rw [merge_readouts keyed] at member
    obtain ⟨r, inside, rfl⟩ := List.mem_map.mp member
    exact ⟨r, of_mem_merged keyed inside⟩
  newest := by
    intro r held lies
    by_cases taken : r ∈ store.rowsRead v plan.liveLimit .descending
    · exact .inl (exists_mem_merge keyed taken)
    · obtain ⟨full, later⟩ := behind_of_cut (rowsWithin_newest_first keyed v)
        (keyed.mem_rowsWithin_iff.mpr ⟨held, lies⟩) taken
      have apart := List.pairwise_map.mp (rowsRead_ids_nodup v plan.liveLimit .descending keyed)
      have distinct := apart.imp (fun differ same => differ (congrArg SampleRow.id same))
      refine .inr ⟨_, Nat.le_of_eq full.symm, distinct, ?_⟩
      intro x inside
      obtain ⟨held', lies'⟩ := of_mem_rowsRead keyed inside
      exact ⟨held', lies', later x inside, exists_mem_merge keyed inside⟩
  batches := by
    refine ⟨_, _, readSamples_eq store w _ _, readSamples_eq store v _ _, ?_, ?_⟩
    · exact Sample.merge_of_distinct (readout_ids_nodup w _ _ keyed) (readout_ids_nodup v _ _ keyed)
    · exact fun complete => merge_of_complete keyed nested complete plan.liveLimit
  order := by
    refine ⟨store.rowsRead w plan.historicalLimit .ascending,
      store.rowsAdded w v plan.historicalLimit plan.liveLimit, ?_, ?_, ?_, ?_⟩
    · rw [merge_readouts keyed, List.forall₂_map_right_iff, List.forall₂_same]
      exact fun r inside => (of_mem_merged keyed inside).2
    · exact (rowsWithin_ascending keyed w).sublist (List.take_sublist _ _)
    · exact (rowsWithin_newest_first keyed v).sublist
        (List.filter_sublist.trans (List.take_sublist _ _))
    · intro r held lies cut
      exact behind_of_cut (rowsWithin_ascending keyed w)
        (keyed.mem_rowsWithin_iff.mpr ⟨held, lies⟩) cut

/-- Both refreshes of a store at one moment, in either order and whatever was held before, complete
with the same merged batches. -/
theorem refreshed_batches (keyed : store.Keyed) (shorter : plan.liveWindow ≤ plan.historicalWindow)
    (short : Window.endingAt? now plan.liveWindow = some v)
    (long : Window.endingAt? now plan.historicalWindow = some w) (prior : Batches) :
    ∃ b : Batches,
      (prior.refreshHistorical? store.source plan now).bind
        (fun b => b.refreshLive? store.source plan now) = some b ∧
      (prior.refreshLive? store.source plan now).bind
        (fun b => b.refreshHistorical? store.source plan now) = some b ∧
      store.MergedReads plan v w b.merged := by
  have nested := Window.contains_of_shorter (Int.ofNat_le.mpr shorter) short long
  refine ⟨⟨store.listStations, store.readout w plan.historicalLimit .ascending,
    store.readout v plan.liveLimit .descending⟩, ?_, ?_, mergedReads_merge keyed nested⟩
  · rw [Batches.refreshHistorical?_of_store prior long, Option.bind_some,
      Batches.refreshLive?_of_store _ short]
  · rw [Batches.refreshLive?_of_store prior short, Option.bind_some,
      Batches.refreshHistorical?_of_store _ long]

end Store
end Refreshes

namespace CutReads

/- Both limits are one, so that the middle row is in neither batch. -/
def rows : List SampleRow :=
  [⟨1, "bs-1", "latency", 12.0, some 1000, none⟩,
    ⟨2, "bs-1", "latency", 14.0, some 5000, none⟩,
    ⟨3, "bs-2", "cpu_load", 40.0, some 6000, some "%"⟩]

def store : Store := ⟨∅, rows.foldl (fun held r => held.insert r.id r) ∅⟩

def plan : RefreshPlan := ⟨60000, 10000, 1, 1000, 2000, 1, true, 60000⟩

def now : Instant := ⟨6000, by decide⟩

def live : Window := ⟨⟨4000, by decide⟩, ⟨6001, by decide⟩⟩

def historical : Window := ⟨⟨-4000, by decide⟩, ⟨6001, by decide⟩⟩

/- Samples no row of the store agrees with. -/
def prior : Batches :=
  ⟨[], [⟨2, "bs-9", .uptime, 1.0, none, none⟩], [⟨7, "bs-9", .uptime, 2.0, none, none⟩]⟩

theorem keyed : store.Keyed := ((Store.keyed_empty.insert _).insert _).insert _

end CutReads

open CutReads in
theorem refreshed_batches_of_cut_reads :
    store.Keyed ∧ plan.liveWindow ≤ plan.historicalWindow ∧
      Window.endingAt? now plan.liveWindow = some live ∧
      Window.endingAt? now plan.historicalWindow = some historical ∧
      ∃ b : Batches,
        (prior.refreshHistorical? store.source plan now).bind
          (fun b => b.refreshLive? store.source plan now) = some b ∧
        (prior.refreshLive? store.source plan now).bind
          (fun b => b.refreshHistorical? store.source plan now) = some b ∧
        store.MergedReads plan live historical b.merged := by
  have shorter : plan.liveWindow ≤ plan.historicalWindow := by decide
  have short : Window.endingAt? now plan.liveWindow = some live := rfl
  have long : Window.endingAt? now plan.historicalWindow = some historical := rfl
  exact ⟨keyed, shorter, short, long, Store.refreshed_batches keyed shorter short long prior⟩

end FleetHealth
