import FleetHealth.Proofs.NestedRollups
import FleetHealth.Proofs.SnapshotCounts
import FleetHealth.Proofs.StationFields
/-!
Two batches over one directory, the second with readings at least as good throughout. Nothing that
is composed of the readings gets worse: fields, bands, stations, the shares of healthy ones and what
is classified by them.
-/
namespace FleetHealth

/-- A field reads at least as good as before by the rule of its metric. What is not a number does
not. -/
def Thresholds.AsGood (t : Thresholds) (before after : Field) : Prop :=
  ∀ rule, t.metrics before.metric = some rule →
    rule.direction.Ordered after.current before.current

instance (t : Thresholds) (before after : Field) : Decidable (t.AsGood before after) :=
  match ruled : t.metrics before.metric with
  | none => isTrue (fun rule own => by rw [ruled] at own; cases own)
  | some rule =>
    decidable_of_iff (rule.direction.Ordered after.current before.current)
      ⟨fun better own same => by rw [ruled] at same; cases same; exact better,
        fun better => better rule ruled⟩

namespace Catalog

variable {c : Catalog} {aggregates aggregates' : Aggregates} {stationId : String}
  {stations : List Station}

/- Every field of a view is of a metric the catalog reads. -/
def viewed (c : Catalog) : List Metric := c.bands.flatMap (·.metrics) ++ stationWideMetrics

theorem bandRecord_fields (p : BandPlan) :
    (c.bandRecord aggregates stationId p).fields =
      p.metrics.map (c.field aggregates stationId) := by
  obtain ⟨_, _, _, signalPower, signalQuality⟩ := p
  cases signalPower <;> cases signalQuality <;> rfl

theorem bandRecord_status (p : BandPlan) :
    (c.bandRecord aggregates stationId p).status =
      Health.worst (p.metrics.map (fun m => (c.field aggregates stationId m).status)) := by
  obtain ⟨_, _, _, signalPower, signalQuality⟩ := p
  cases signalPower <;> cases signalQuality <;> rfl

theorem view_fields (s : Station) :
    (c.view aggregates s).fields = c.viewed.map (c.field aggregates s.id) := by
  have bands : (c.view aggregates s).bands.flatMap (·.fields) =
      (c.bands.flatMap (·.metrics)).map (c.field aggregates s.id) := by
    show (c.bands.map (c.bandRecord aggregates s.id)).flatMap (·.fields) = _
    rw [List.flatMap_map, List.map_flatMap]
    simp only [bandRecord_fields]
  rw [StationView.fields, bands, viewed, List.map_append]
  rfl

theorem field_metric (m : Metric) : (c.field aggregates stationId m).metric = m := by
  unfold field
  cases aggregates[(⟨some stationId, m⟩ : AggregateKey)]? <;> rfl

theorem field_status (m : Metric) : (c.field aggregates stationId m).status =
    c.thresholds.classify m (c.field aggregates stationId m).current none := by
  unfold field
  cases aggregates[(⟨some stationId, m⟩ : AggregateKey)]? <;> rfl

/- The readings of one station are as good in the one batch as in the other. -/
def ReadsAsGood (c : Catalog) (aggregates aggregates' : Aggregates) (stationId : String) : Prop :=
  ∀ m ∈ c.viewed,
    c.thresholds.AsGood (c.field aggregates stationId m) (c.field aggregates' stationId m)

theorem readsAsGood_iff (s : Station) :
    c.ReadsAsGood aggregates aggregates' s.id ↔ List.Forall₂ c.thresholds.AsGood
      (c.view aggregates s).fields (c.view aggregates' s).fields := by
  rw [view_fields, view_fields, forall₂_map_map_iff]
  rfl

section

variable (sound : c.Sound) (better : c.ReadsAsGood aggregates aggregates' stationId)

include sound better

theorem field_status_le {m : Metric} (listed : m ∈ c.viewed) :
    (c.field aggregates' stationId m).status ≤ (c.field aggregates stationId m).status := by
  rw [field_status, field_status]
  have reads := better m listed
  unfold Thresholds.AsGood at reads
  rw [field_metric] at reads
  exact sound.classify_le_classify reads

theorem bandRecord_status_mono {p : BandPlan} (listed : p ∈ c.bands) :
    (c.bandRecord aggregates' stationId p).status ≤
      (c.bandRecord aggregates stationId p).status := by
  rw [bandRecord_status, bandRecord_status]
  apply Health.worst_le_worst
  refine forall₂_map_map_iff.mpr (fun m inside => ?_)
  exact field_status_le sound better
    (List.mem_append_left _ (List.mem_flatMap.mpr ⟨p, listed, inside⟩))

end

theorem view_status_le (sound : c.Sound) {s : Station}
    (better : c.ReadsAsGood aggregates aggregates' s.id) :
    (c.view aggregates' s).status ≤ (c.view aggregates s).status := by
  have wide : ∀ m ∈ stationWideMetrics,
      (c.field aggregates' s.id m).status ≤ (c.field aggregates s.id m).status :=
    fun m inside => field_status_le sound better (List.mem_append_right _ inside)
  apply Health.worst_le_worst
  refine List.rel_append ?_ (.cons (wide _ (by decide)) (.cons (wide _ (by decide)) .nil))
  rw [List.map_map, List.map_map]
  exact forall₂_map_map_iff.mpr (fun p listed => bandRecord_status_mono sound better listed)

/-- Of two groups of one size, the one no member of which is worse is classified no worse. -/
theorem classifyPopulation_shareOf_le (t : Thresholds) (p : Population) {tiers tiers' : List Health}
    (better : List.Forall₂ (fun before after => after ≤ before) tiers tiers')
    (few : tiers.length < 2 ^ 32) :
    t.classifyPopulation p (shareOf tiers') ≤ t.classifyPopulation p (shareOf tiers) := by
  have size := better.length_eq
  obtain ⟨healthy, _⟩ := shareOf_toNat few
  obtain ⟨healthy', _⟩ := shareOf_toNat (size ▸ few)
  have more : (shareOf tiers).healthy.toNat ≤ (shareOf tiers').healthy.toNat := by
    rw [healthy, healthy']
    exact Health.count_healthy_le better
  have total : shareOf tiers' = ⟨(shareOf tiers').healthy, (shareOf tiers).total⟩ := by
    rw [shareOf, shareOf, size]
  rw [total]
  exact Rule.classify_share_le _ 0.0 _ more

section

variable (sound : c.Sound)
  (better : ∀ s ∈ activeOf stations, c.ReadsAsGood aggregates aggregates' s.id)

include sound better

theorem stationTiers_mono : List.Forall₂ (fun before after => after ≤ before)
    (c.stationTiers aggregates stations) (c.stationTiers aggregates' stations) :=
  forall₂_map_map_iff.mpr (fun s inside => view_status_le sound (better s inside))

theorem bandTiers_mono {q : BandPlan} (listed : q ∈ c.bands) :
    List.Forall₂ (fun before after => after ≤ before)
      (c.bandTiers aggregates stations q) (c.bandTiers aggregates' stations q) :=
  forall₂_map_map_iff.mpr (fun s inside => bandRecord_status_mono sound (better s inside) listed)

theorem summarizeBand_status_le (few : (activeOf stations).length < 2 ^ 32) {p : BandPlan}
    (listed : p ∈ c.bands) (t : Thresholds) :
    (summarizeBand t (stations.map (c.view aggregates')) p.band).status ≤
      (summarizeBand t (stations.map (c.view aggregates)) p.band).status := by
  obtain ⟨q, listed', summary⟩ := exists_summarizeBand listed
  rw [(summary t aggregates stations).2, (summary t aggregates' stations).2]
  exact classifyPopulation_shareOf_le t _ (bandTiers_mono sound better listed')
    (length_bandTiers.trans_lt few)

end

/-- Under an accepted catalog, readings at least as good of every active station leave its bands and
itself no worse, nor the worst of them; while the active stations fit into 32 bits, as they are
counted in, no band and not the fleet is classified worse either. -/
theorem better_readings_never_worsen (accepted : c.validate = .ok ()) (now now' : Instant)
    {samples samples' : List Sample}
    (better : List.Forall₂ (fun before after : StationView => before.lifecycle.isActive = true →
        List.Forall₂ c.thresholds.AsGood before.fields after.fields)
      (c.evaluate now stations samples).stations (c.evaluate now' stations samples').stations) :
    let before := c.evaluate now stations samples
    let after := c.evaluate now' stations samples'
    List.Forall₂ (fun v v' : StationView => v.lifecycle.isActive = true →
        List.Forall₂ (fun r r' : BandRecord => r'.status ≤ r.status) v.bands v'.bands ∧
          v'.status ≤ v.status)
      before.stations after.stations ∧
    after.fleet.worstStation ≤ before.fleet.worstStation ∧
    ((activeViews before.stations).length < 2 ^ 32 →
      List.Forall₂ (fun b b' : BandSummary => b'.status ≤ b.status) before.bands after.bands ∧
        after.fleet.status ≤ before.fleet.status) := by
  intro before after
  let aggregates := aggregate c.thresholds .station samples
  let aggregates' := aggregate c.thresholds .station samples'
  have sound := validate_eq_ok_iff.mp accepted
  have reads : ∀ s ∈ stations, s.lifecycle.isActive = true →
      c.ReadsAsGood aggregates aggregates' s.id := by
    intro s listed active
    exact (readsAsGood_iff s).mpr (forall₂_map_map_iff.mp better s listed active)
  have reads_active : ∀ s ∈ activeOf stations, c.ReadsAsGood aggregates aggregates' s.id := by
    intro s inside
    obtain ⟨listed, active⟩ := List.mem_filter.mp inside
    exact reads s listed active
  have tiers := stationTiers_mono sound reads_active
  have fleet : before.fleet = _ := summarizeFleet_eq c.thresholds aggregates
  have fleet' : after.fleet = _ := summarizeFleet_eq c.thresholds aggregates'
  rw [fleet, fleet']
  refine ⟨?_, Health.worst_le_worst tiers, ?_⟩
  · refine forall₂_map_map_iff.mpr (fun s listed active => ?_)
    have better := reads s listed active
    refine ⟨?_, view_status_le sound better⟩
    exact forall₂_map_map_iff.mpr (fun p listed => bandRecord_status_mono sound better listed)
  · intro few
    have views : before.stations = stations.map (c.view aggregates) := rfl
    rw [views, activeViews_map_view, List.length_map] at few
    refine ⟨?_, classifyPopulation_shareOf_le _ _ tiers (length_stationTiers.trans_lt few)⟩
    exact forall₂_map_map_iff.mpr (fun p listed =>
      summarizeBand_status_le sound reads_active few listed c.thresholds)

/- One reading gets better, on the boundary of its tier; the station whose reading gets worse is not
active. -/
theorem better_readings_never_worsen_of_two :
    let stations := [Station.mk "bs-1" "North" "Roof" .active,
      Station.mk "bs-2" "South" "Mast" .offline]
    let samples := [Sample.mk 1 "bs-1" .latency 50.0 none none,
      Sample.mk 2 "bs-2" .latency 10.0 none none]
    let samples' := [Sample.mk 3 "bs-1" .latency 20.0 none none,
      Sample.mk 4 "bs-2" .latency 90.0 none none]
    let before := builtin.evaluate .epoch stations samples
    let after := builtin.evaluate .epoch stations samples'
    builtin.validate = .ok () ∧ after.fleet.worstStation ≤ before.fleet.worstStation ∧
      List.Forall₂ (fun b b' : BandSummary => b'.status ≤ b.status) before.bands after.bands ∧
        after.fleet.status ≤ before.fleet.status := by
  intro stations samples samples' before after
  have accepted : builtin.validate = .ok () := by decide +kernel
  have better : List.Forall₂ (fun v v' : StationView => v.lifecycle.isActive = true →
      List.Forall₂ builtin.thresholds.AsGood v.fields v'.fields)
        before.stations after.stations := by decide +kernel
  have never_worse := better_readings_never_worsen accepted .epoch .epoch better
  exact ⟨accepted, never_worse.2.1, never_worse.2.2 (by decide +kernel)⟩

namespace Crowd

/- Stand-ins are good, so a silent station is healthy. -/
def catalog : Catalog :=
  { builtin with missing := fun m => some (if m ∈ stationWideMetrics then 0.0 else 1000.0) }

/- The stations' ids are so many strokes. -/
def station (i : Nat) : Station := ⟨String.ofList (List.replicate i '|'), "North", "Roof", .active⟩

def directory (n : Nat) : List Station := (List.range' 1 n).map station

/- Of the first two stations alone there is a sample, and that of the second is bad. -/
def samples (first : Float) : List Sample :=
  [⟨1, "|", .latency, first, none, none⟩, ⟨2, "||", .latency, 90.0, none, none⟩]

def readings (first : Float) : Aggregates :=
  aggregate catalog.thresholds .station (samples first)

theorem id_injective : Function.Injective (fun i => (station i).id) := by
  intro i j same
  have strokes := String.ofList_injective same
  simpa using congrArg List.length strokes

theorem silent_of_later {i : Nat} (later : 3 ≤ i) (first : Float) (m : Metric) :
    Silent (samples first) (station i).id m := by
  intro s inside own
  have early : (station 1).id = (station i).id ∨ (station 2).id = (station i).id := by
    simp only [samples, List.mem_cons, List.not_mem_nil, or_false] at inside
    rcases inside with rfl | rfl
    · exact .inl own.1
    · exact .inr own.1
  rcases early with same | same
  · have := id_injective same
    omega
  · have := id_injective same
    omega

theorem view_healthy {i : Nat} (later : 3 ≤ i) (first : Float) :
    (catalog.view (readings first) (station i)).status = .healthy := by
  have well : ∀ m ∈ catalog.viewed,
      catalog.thresholds.classify m (catalog.missing.valueFor m) none = .healthy := by
    decide +kernel
  rw [view_status, view_fields, List.map_map, Health.worst_eq_healthy_iff]
  intro tier inside
  obtain ⟨m, listed, rfl⟩ := List.mem_map.mp inside
  rw [Function.comp_apply, readings, field_of_silent (silent_of_later later first m)]
  exact well m listed

/-- All stations but the first two are healthy. -/
theorem stationTiers_eq (first : Float) (n : Nat) :
    catalog.stationTiers (readings first) (directory (n + 2)) =
      (catalog.view (readings first) (station 1)).status ::
        (catalog.view (readings first) (station 2)).status :: List.replicate n .healthy := by
  have all : activeOf (directory (n + 2)) = directory (n + 2) := by
    rw [activeOf, List.filter_eq_self]
    intro s listed
    obtain ⟨i, _, rfl⟩ := List.mem_map.mp listed
    rfl
  have rest : (List.range' 3 n).map (fun i => (catalog.view (readings first) (station i)).status) =
      List.replicate n .healthy := by
    refine List.eq_replicate_iff.mpr ⟨by simp, ?_⟩
    intro tier inside
    obtain ⟨i, later, rfl⟩ := List.mem_map.mp inside
    exact view_healthy (List.mem_range'_1.mp later).1 first
  rw [stationTiers, all, directory, List.map_map, ← rest]
  rfl

theorem fleet_status_eq (first : Float) (n : Nat) :
    (catalog.evaluate .epoch (directory (n + 2)) (samples first)).fleet.status =
      catalog.thresholds.classifyPopulation .fleet (shareOf
        ((catalog.view (readings first) (station 1)).status ::
          (catalog.view (readings first) (station 2)).status :: List.replicate n .healthy)) := by
  rw [← stationTiers_eq]
  exact congrArg FleetSummary.status (summarizeFleet_eq catalog.thresholds (readings first))

theorem shareOf_crowd (first second : Health) (n : Nat) :
    shareOf (first :: second :: List.replicate n .healthy) =
      ⟨([first, second].count .healthy + n).toUInt32, (n + 2).toUInt32⟩ := by
  have healthy : (first :: second :: List.replicate n .healthy).count .healthy =
      [first, second].count .healthy + n := by
    have split : first :: second :: List.replicate n .healthy =
        [first, second] ++ List.replicate n .healthy := rfl
    rw [split, List.count_append, List.count_replicate_self]
  rw [shareOf, Health.countHealthy, healthy, List.length_cons, List.length_cons,
    List.length_replicate]

theorem readings_as_good (n : Nat) :
    List.Forall₂ (fun before after : StationView => before.lifecycle.isActive = true →
        List.Forall₂ catalog.thresholds.AsGood before.fields after.fields)
      (catalog.evaluate .epoch (directory n) (samples 1000.0)).stations
      (catalog.evaluate .epoch (directory n) (samples 5.0)).stations := by
  have alike : ∀ m ∈ catalog.viewed, catalog.thresholds.AsGood
      ⟨m, catalog.missing.valueFor m, catalog.missing.valueFor m, true,
        catalog.thresholds.classify m (catalog.missing.valueFor m) none⟩
      ⟨m, catalog.missing.valueFor m, catalog.missing.valueFor m, true,
        catalog.thresholds.classify m (catalog.missing.valueFor m) none⟩ := by decide +kernel
  have early : ∀ i, i = 1 ∨ i = 2 →
      catalog.ReadsAsGood (readings 1000.0) (readings 5.0) (station i).id := by
    intro i h
    unfold ReadsAsGood
    rcases h with rfl | rfl
    · decide +kernel
    · decide +kernel
  refine forall₂_map_map_iff.mpr (fun s listed _ => (readsAsGood_iff s).mp ?_)
  obtain ⟨i, inside, rfl⟩ := List.mem_map.mp listed
  obtain ⟨start, _⟩ := List.mem_range'_1.mp inside
  by_cases later : 3 ≤ i
  · intro m read
    rw [field_of_silent (silent_of_later later _ m), field_of_silent (silent_of_later later _ m)]
    exact alike m read
  · exact early i (by omega)

end Crowd

open Crowd in
/- With one more station than 32 bits count and all but two of them healthy, one of the two gets
healthy: the number of healthy ones goes from its greatest value to zero. -/
theorem better_reading_worsens_crowd :
    let before := catalog.evaluate .epoch (directory 4294967297) (samples 1000.0)
    let after := catalog.evaluate .epoch (directory 4294967297) (samples 5.0)
    catalog.validate = .ok () ∧ ((directory 4294967297).map (·.id)).Nodup ∧
      List.Forall₂ (fun v v' : StationView => v.lifecycle.isActive = true →
        List.Forall₂ catalog.thresholds.AsGood v.fields v'.fields) before.stations after.stations ∧
      before.fleet.status = .healthy ∧ after.fleet.status = .critical := by
  intro before after
  refine ⟨by decide +kernel, ?_, readings_as_good 4294967297, ?_, ?_⟩
  · rw [directory, List.map_map]
    exact (List.nodup_range' 1).map id_injective
  · have status : before.fleet.status = _ := fleet_status_eq 1000.0 4294967295
    rw [status, shareOf_crowd]
    decide +kernel
  · have status : after.fleet.status = _ := fleet_status_eq 5.0 4294967295
    rw [status, shareOf_crowd]
    decide +kernel

end Catalog
end FleetHealth
