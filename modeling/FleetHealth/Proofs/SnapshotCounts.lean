import FleetHealth.Dashboard
import FleetHealth.Proofs.Classification
/-!
How the levels of a dashboard fit together: the inventory counts every station once, a band has no
fewer healthy stations than the fleet, and a fleet of healthy stations is healthy at every level.
-/
namespace FleetHealth

def activeOf (stations : List Station) : List Station :=
  stations.filter (fun s => s.lifecycle.isActive)

namespace Catalog

variable {c : Catalog} {aggregates : Aggregates} {stations : List Station}

theorem activeViews_map_view :
    activeViews (stations.map (c.view aggregates)) = (activeOf stations).map (c.view aggregates) :=
  List.filter_map

theorem band?_view (c : Catalog) (aggregates : Aggregates) (s : Station) (b : Band) :
    (c.view aggregates s).band? b =
      (c.bands.find? (fun p => p.band = b)).map (c.bandRecord aggregates s.id) :=
  List.find?_map ..

/- Of the plans for one band, the first is the one every view answers by. -/
theorem bandRecords_eq {b : Band} {q : BandPlan}
    (found : c.bands.find? (fun p => p.band = b) = some q) (aggregates : Aggregates)
    (stations : List Station) :
    (activeViews (stations.map (c.view aggregates))).filterMap (fun v => v.band? b) =
      (activeOf stations).map (fun s => c.bandRecord aggregates s.id q) := by
  rw [activeViews_map_view, List.filterMap_map]
  have answered : ((fun v : StationView => v.band? b) ∘ c.view aggregates) =
      fun s => some (c.bandRecord aggregates s.id q) := by
    funext s
    rw [Function.comp_apply, band?_view, found]
    rfl
  rw [answered, List.filterMap_eq_map']

/- The tiers the fleet and a band are counted by. -/
def stationTiers (c : Catalog) (aggregates : Aggregates) (stations : List Station) : List Health :=
  (activeOf stations).map (fun s => (c.view aggregates s).status)

def bandTiers (c : Catalog) (aggregates : Aggregates) (stations : List Station) (q : BandPlan) :
    List Health :=
  (activeOf stations).map (fun s => (c.bandRecord aggregates s.id q).status)

theorem length_stationTiers :
    (c.stationTiers aggregates stations).length = (activeOf stations).length := List.length_map _

theorem length_bandTiers {q : BandPlan} :
    (c.bandTiers aggregates stations q).length = (activeOf stations).length := List.length_map _

theorem bandRecord_status_le {q : BandPlan} (listed : q ∈ c.bands) (s : Station) :
    (c.bandRecord aggregates s.id q).status ≤ (c.view aggregates s).status := by
  refine Health.le_worst (List.mem_append_left _ ?_)
  rw [List.map_map]
  exact List.mem_map_of_mem listed

/-- Whichever band is counted, no station is healthier than its record for it. -/
theorem bandTiers_le {q : BandPlan} (listed : q ∈ c.bands) :
    List.Forall₂ (fun station record => record ≤ station) (c.stationTiers aggregates stations)
      (c.bandTiers aggregates stations q) :=
  forall₂_map_map_iff.mpr (fun s _ => bandRecord_status_le listed s)

/- What a share of some tiers is. -/
def shareOf (tiers : List Health) : Share := ⟨Health.countHealthy tiers, tiers.length.toUInt32⟩

theorem summarizeFleet_eq (t : Thresholds) (aggregates : Aggregates) :
    let views := stations.map (c.view aggregates)
    summarizeFleet t views =
      { total := stations.length.toUInt32
        active := (shareOf (c.stationTiers aggregates stations)).total
        offline := countLifecycle views .offline
        maintenance := countLifecycle views .maintenance
        healthyActive := (shareOf (c.stationTiers aggregates stations)).healthy
        worstStation := Health.worst (c.stationTiers aggregates stations)
        status := t.classifyPopulation .fleet (shareOf (c.stationTiers aggregates stations)) } := by
  have tiers : (activeViews (stations.map (c.view aggregates))).map (·.status) =
      c.stationTiers aggregates stations := by
    rw [activeViews_map_view, List.map_map]
    rfl
  unfold summarizeFleet
  dsimp only
  rw [tiers, List.length_map]
  rfl

theorem summarizeBand_eq {b : Band} {q : BandPlan}
    (found : c.bands.find? (fun p => p.band = b) = some q) (t : Thresholds)
    (aggregates : Aggregates) (stations : List Station) :
    let summary := summarizeBand t (stations.map (c.view aggregates)) b
    ⟨summary.healthyStations, summary.activeStations⟩ = shareOf (c.bandTiers aggregates stations q) ∧
      summary.status = t.classifyPopulation (.ofBand b)
        (shareOf (c.bandTiers aggregates stations q)) := by
  let records := (activeOf stations).map (fun s => c.bandRecord aggregates s.id q)
  have share : (⟨Health.countHealthy (records.map (·.status)), records.length.toUInt32⟩ : Share) =
      shareOf (c.bandTiers aggregates stations q) := by
    rw [List.map_map, List.length_map, shareOf, length_bandTiers]
    rfl
  unfold summarizeBand
  dsimp only
  rw [bandRecords_eq found, share]
  exact ⟨rfl, rfl⟩

theorem exists_summarizeBand {p : BandPlan} (listed : p ∈ c.bands) :
    ∃ q ∈ c.bands, ∀ t aggregates stations,
      let b := summarizeBand t (stations.map (c.view aggregates)) p.band
      ⟨b.healthyStations, b.activeStations⟩ = shareOf (c.bandTiers aggregates stations q) ∧
        b.status = t.classifyPopulation (.ofBand p.band)
          (shareOf (c.bandTiers aggregates stations q)) := by
  have found : (c.bands.find? (fun q => q.band = p.band)).isSome = true :=
    List.find?_isSome.mpr ⟨p, listed, decide_eq_true rfl⟩
  obtain ⟨q, found⟩ := Option.isSome_iff_exists.mp found
  exact ⟨q, List.mem_of_find?_eq_some found, summarizeBand_eq found⟩

theorem countLifecycle_map_view (l : Lifecycle) :
    countLifecycle (stations.map (c.view aggregates)) l =
      (stations.countP (fun s => s.lifecycle = l)).toUInt32 := by
  rw [countLifecycle, List.countP_map]
  rfl

theorem length_by_lifecycle (stations : List Station) :
    stations.length = (activeOf stations).length +
      stations.countP (fun s => s.lifecycle = .offline) +
        stations.countP (fun s => s.lifecycle = .maintenance) := by
  induction stations with
  | nil => rfl
  | cons s rest ih =>
    rw [activeOf] at ih ⊢
    rw [List.length_cons, ih, List.filter_cons, List.countP_cons, List.countP_cons]
    cases s.lifecycle <;> simp [Lifecycle.isActive] <;> omega

theorem toNat_count {n bound : ℕ} (within : n ≤ bound) (few : bound < 2 ^ 32) :
    n.toUInt32.toNat = n := Nat.mod_eq_of_lt (within.trans_lt few)

theorem shareOf_toNat {tiers : List Health} (few : tiers.length < 2 ^ 32) :
    (shareOf tiers).healthy.toNat = tiers.count .healthy ∧
      (shareOf tiers).total.toNat = tiers.length :=
  ⟨toNat_count List.count_le_length few, toNat_count le_rfl few⟩

/-- A share is the whole exactly if nobody is less than healthy. -/
theorem shareOf_whole_iff {tiers : List Health} (few : tiers.length < 2 ^ 32) :
    (shareOf tiers).healthy = (shareOf tiers).total ↔ Health.worst tiers = .healthy := by
  obtain ⟨healthy, total⟩ := shareOf_toNat few
  rw [← UInt32.toNat_inj, healthy, total, List.count_eq_length, Health.worst_eq_healthy_iff]
  simp only [eq_comm]

theorem shareOf_bandTiers (aggregates : Aggregates) {q : BandPlan} (listed : q ∈ c.bands)
    (few : (activeOf stations).length < 2 ^ 32) :
    let fleet := shareOf (c.stationTiers aggregates stations)
    let band := shareOf (c.bandTiers aggregates stations q)
    fleet.healthy ≤ band.healthy ∧ band.healthy ≤ band.total ∧ band.total = fleet.total := by
  have few_stations : (c.stationTiers aggregates stations).length < 2 ^ 32 :=
    length_stationTiers.trans_lt few
  have few_records : (c.bandTiers aggregates stations q).length < 2 ^ 32 :=
    length_bandTiers.trans_lt few
  obtain ⟨fleet_healthy, _⟩ := shareOf_toNat few_stations
  obtain ⟨band_healthy, band_total⟩ := shareOf_toNat few_records
  refine ⟨?_, ?_, ?_⟩
  · rw [UInt32.le_iff_toNat_le, fleet_healthy, band_healthy]
    exact Health.count_healthy_le (bandTiers_le listed)
  · rw [UInt32.le_iff_toNat_le, band_healthy, band_total]
    exact List.count_le_length
  · rw [shareOf, shareOf, length_bandTiers, length_stationTiers]

/- What a summary says by its share. -/
theorem exists_share_of_mem_bands {samples : List Sample} {now : Instant} {b : BandSummary}
    (inside : b ∈ (c.evaluate now stations samples).bands) :
    ∃ p : Population, ∃ q ∈ c.bands,
      let share := shareOf (c.bandTiers (aggregate c.thresholds .station samples) stations q)
      b.healthyStations = share.healthy ∧ b.activeStations = share.total ∧
        b.status = c.thresholds.classifyPopulation p share := by
  obtain ⟨p, listed, rfl⟩ := List.mem_map.mp inside
  obtain ⟨q, listed', summary⟩ := exists_summarizeBand listed
  obtain ⟨share, status⟩ := summary c.thresholds (aggregate c.thresholds .station samples) stations
  exact ⟨.ofBand p.band, q, listed', congrArg Share.healthy share, congrArg Share.total share,
    status⟩

/-- In a dashboard of fewer than 2^32 stations the inventory adds up, every band has as many active
stations as the fleet and no fewer healthy ones, and the worst station is healthy exactly if all
are; under an accepted catalog the fleet and its bands are then healthy, too. -/
theorem dashboard_levels_agree (c : Catalog) (now : Instant) {stations : List Station}
    (few : stations.length < 2 ^ 32) (samples : List Sample) :
    let d := c.evaluate now stations samples
    (d.fleet.total.toNat = stations.length ∧ d.fleet.total.toNat =
      d.fleet.active.toNat + d.fleet.offline.toNat + d.fleet.maintenance.toNat) ∧
    (∀ b ∈ d.bands, d.fleet.healthyActive ≤ b.healthyStations ∧
      b.healthyStations ≤ b.activeStations ∧ b.activeStations = d.fleet.active) ∧
    (d.fleet.worstStation = .healthy ↔ d.fleet.healthyActive = d.fleet.active) ∧
    (c.validate = .ok () → d.fleet.worstStation = .healthy →
      d.fleet.status = .healthy ∧ ∀ b ∈ d.bands, b.status = .healthy) := by
  intro d
  let aggregates := aggregate c.thresholds .station samples
  let tiers := c.stationTiers aggregates stations
  have fleet : d.fleet = _ := summarizeFleet_eq c.thresholds aggregates
  have lifecycles := length_by_lifecycle stations
  have few_active : (activeOf stations).length < 2 ^ 32 := by omega
  have few_tiers : tiers.length < 2 ^ 32 := length_stationTiers.trans_lt few_active
  rw [fleet]
  refine ⟨⟨toNat_count le_rfl few, ?_⟩, ?_, (shareOf_whole_iff few_tiers).symm, ?_⟩
  · have total := toNat_count (n := stations.length) le_rfl few
    have active := (shareOf_toNat few_tiers).2.trans length_stationTiers
    dsimp only
    rw [countLifecycle_map_view, countLifecycle_map_view, total, active, toNat_count _ few,
      toNat_count _ few]
    · exact lifecycles
    · exact List.countP_le_length
    · exact List.countP_le_length
  · intro b inside
    obtain ⟨_, q, listed, healthy, active, _⟩ := exists_share_of_mem_bands inside
    rw [healthy, active]
    exact shareOf_bandTiers aggregates listed few_active
  · intro accepted worst
    have sound := validate_eq_ok_iff.mp accepted
    have whole := (shareOf_whole_iff few_tiers).mpr worst
    refine ⟨sound.classifyPopulation_whole .fleet whole, ?_⟩
    intro b inside
    obtain ⟨p, q, listed, _, _, status⟩ := exists_share_of_mem_bands inside
    obtain ⟨more, within, same⟩ := shareOf_bandTiers aggregates listed few_active
    -- a band has no fewer healthy stations than a fleet of healthy ones
    have band_whole := UInt32.le_antisymm within (by rwa [same, ← whole])
    rw [status]
    exact sound.classifyPopulation_whole p band_whole

/- A healthy station, two that are not active, and every band listed twice. -/
theorem dashboard_levels_agree_of_three :
    let c := { builtin with bands := BandPlan.builtin ++ BandPlan.builtin }
    let stations := [Station.mk "bs-1" "North" "Roof" .active,
      Station.mk "bs-2" "South" "Mast" .maintenance, Station.mk "bs-3" "West" "Mast" .offline]
    let samples := [Sample.mk 1 "bs-1" .nrDownlink 900.0 none none,
      Sample.mk 2 "bs-1" .nrUplink 150.0 none none, Sample.mk 3 "bs-1" .nrPower (-80.0) none none,
      Sample.mk 4 "bs-1" .nrQuality 20.0 none none, Sample.mk 5 "bs-1" .lteDownlink 140.0 none none,
      Sample.mk 6 "bs-1" .lteUplink 45.0 none none, Sample.mk 7 "bs-1" .latency 10.0 none none,
      Sample.mk 8 "bs-1" .txImbalance 1.0 none none]
    let d := c.evaluate .epoch stations samples
    stations.length < 2 ^ 32 ∧ c.validate = .ok () ∧ d.fleet.worstStation = .healthy ∧
      d.fleet.status = .healthy ∧ ∀ b ∈ d.bands, b.status = .healthy := by
  intro c stations samples d
  have few : stations.length < 2 ^ 32 := by decide
  have accepted : c.validate = .ok () := by decide +kernel
  have worst : d.fleet.worstStation = .healthy := by decide +kernel
  have agree := dashboard_levels_agree c .epoch few samples
  exact ⟨few, accepted, worst, agree.2.2.2 accepted worst⟩

end Catalog
end FleetHealth
