import FleetHealth.Proofs.StationFields
/-!
What the parts of a dashboard depend on. A view is made from the samples of its own station, the
summaries from those of the listed stations, and the fleet-wide figures from all samples whatever
the directory lists.
-/
namespace FleetHealth

/-- The samples of one station, in their order. -/
def ownSamples (samples : List Sample) (stationId : String) : List Sample :=
  samples.filter (fun s => s.stationId = stationId)

/-- The samples of the stations a directory lists, in their order. -/
def listedSamples (samples : List Sample) (stations : List Station) : List Sample :=
  samples.filter (fun s => s.stationId ∈ stations.map Station.id)

theorem samplesOf_ownSamples (samples : List Sample) (stationId : String) (m : Metric) :
    samplesOf (ownSamples samples stationId) stationId m = samplesOf samples stationId m := by
  rw [samplesOf, ownSamples, List.filter_filter, samplesOf]
  refine List.filter_congr (fun s _ => ?_)
  by_cases own : s.stationId = stationId <;> simp [own]

theorem ownSamples_listedSamples (samples : List Sample) {stations : List Station} {s : Station}
    (listed : s ∈ stations) :
    ownSamples (listedSamples samples stations) s.id = ownSamples samples s.id := by
  rw [ownSamples, listedSamples, List.filter_filter, ownSamples]
  refine List.filter_congr (fun x _ => ?_)
  by_cases own : x.stationId = s.id
  · have inside : s.id ∈ stations.map Station.id := List.mem_map_of_mem listed
    simp [own, inside]
  · simp [own]

/-- The aggregate of a station's metric is what the station's own samples give. -/
theorem getElem?_aggregate_ownSamples (thresholds : Thresholds) (samples : List Sample)
    (stationId : String) (m : Metric) :
    (aggregate thresholds .station (ownSamples samples stationId))[
        (⟨some stationId, m⟩ : AggregateKey)]? =
      (aggregate thresholds .station samples)[(⟨some stationId, m⟩ : AggregateKey)]? := by
  cases ruled : thresholds.isCatalogued m with
  | true =>
    rw [Catalog.getElem?_aggregate_station _ stationId ruled,
      Catalog.getElem?_aggregate_station _ stationId ruled,
      samplesOf_ownSamples]
  | false =>
    rw [getElem?_aggregate_of_not_catalogued _ _ _ ruled,
      getElem?_aggregate_of_not_catalogued _ _ _ ruled]

namespace Catalog

section Views

variable (c : Catalog) {as bs : Aggregates} {stationId : String}

theorem field_congr (m : Metric)
    (same : as[(⟨some stationId, m⟩ : AggregateKey)]? = bs[(⟨some stationId, m⟩ : AggregateKey)]?) :
    c.field as stationId m = c.field bs stationId m := by
  rw [field, field, same]

theorem bandRecord_congr (plan : BandPlan)
    (same : ∀ m, as[(⟨some stationId, m⟩ : AggregateKey)]? =
      bs[(⟨some stationId, m⟩ : AggregateKey)]?) :
    c.bandRecord as stationId plan = c.bandRecord bs stationId plan := by
  have fields : c.field as stationId = c.field bs stationId :=
    funext (fun m => c.field_congr m (same m))
  rw [bandRecord, bandRecord, fields]

/-- A view looks up nothing but the aggregates of its station. -/
theorem view_congr {s : Station}
    (same : ∀ m, as[(⟨some s.id, m⟩ : AggregateKey)]? = bs[(⟨some s.id, m⟩ : AggregateKey)]?) :
    c.view as s = c.view bs s := by
  have fields : c.field as s.id = c.field bs s.id :=
    funext (fun m => c.field_congr m (same m))
  have records : c.bandRecord as s.id = c.bandRecord bs s.id :=
    funext (fun plan => c.bandRecord_congr plan same)
  rw [view, view, fields, records]

theorem view_ownSamples (s : Station) (samples : List Sample) :
    c.view (aggregate c.thresholds .station (ownSamples samples s.id)) s =
      c.view (aggregate c.thresholds .station samples) s :=
  c.view_congr (fun m => getElem?_aggregate_ownSamples c.thresholds samples s.id m)

end Views

section Dashboards

variable (c : Catalog) (now : Instant) (stations : List Station) (samples : List Sample)

theorem getElem?_evaluate_stations (i : Nat) :
    (c.evaluate now stations samples).stations[i]? =
      stations[i]?.map (fun s =>
        c.view (aggregate c.thresholds .station (ownSamples samples s.id)) s) := by
  show (stations.map (c.view (aggregate c.thresholds .station samples)))[i]? = _
  simp only [List.getElem?_map, view_ownSamples]

theorem evaluate_stations_listedSamples :
    (c.evaluate now stations (listedSamples samples stations)).stations =
      (c.evaluate now stations samples).stations := by
  show stations.map (c.view _) = stations.map (c.view _)
  refine List.map_congr_left (fun s listed => ?_)
  calc c.view (aggregate c.thresholds .station (listedSamples samples stations)) s
      = c.view (aggregate c.thresholds .station
          (ownSamples (listedSamples samples stations) s.id)) s := (c.view_ownSamples s _).symm
    _ = c.view (aggregate c.thresholds .station (ownSamples samples s.id)) s := by
      rw [ownSamples_listedSamples samples listed]
    _ = c.view (aggregate c.thresholds .station samples) s := c.view_ownSamples s _

theorem evaluate_bands :
    (c.evaluate now stations samples).bands =
      summarizeBands c.thresholds c.bands (c.evaluate now stations samples).stations := rfl

theorem evaluate_fleet :
    (c.evaluate now stations samples).fleet =
      summarizeFleet c.thresholds (c.evaluate now stations samples).stations := rfl

end Dashboards

/-- A view follows from the samples of its station alone; views and summaries from the samples of
listed stations alone; and the fleet-wide figures are the same for every directory. -/
theorem evaluate_isolates (c : Catalog) (now now' : Instant) (stations : List Station)
    (samples samples' : List Sample) :
    (∀ (i : Nat) (s : Station), stations[i]? = some s →
      ownSamples samples s.id = ownSamples samples' s.id →
        ∃ v, v.id = s.id ∧ (c.evaluate now stations samples).stations[i]? = some v ∧
          (c.evaluate now' stations samples').stations[i]? = some v) ∧
    (listedSamples samples stations = listedSamples samples' stations →
      (c.evaluate now stations samples).stations = (c.evaluate now' stations samples').stations ∧
      (c.evaluate now stations samples).bands = (c.evaluate now' stations samples').bands ∧
      (c.evaluate now stations samples).fleet = (c.evaluate now' stations samples').fleet) ∧
    (∀ stations' : List Station,
      (c.evaluate now stations samples).categories =
        (c.evaluate now' stations' samples).categories ∧
      (c.evaluate now stations samples).overall = (c.evaluate now' stations' samples).overall ∧
      (c.evaluate now stations samples).sampleCount =
        (c.evaluate now' stations' samples).sampleCount) := by
  refine ⟨?_, ?_, fun stations' => ⟨rfl, rfl, rfl⟩⟩
  · intro i s listed same
    refine ⟨c.view (aggregate c.thresholds .station (ownSamples samples s.id)) s, rfl, ?_, ?_⟩
    · rw [getElem?_evaluate_stations, listed, Option.map_some]
    · rw [getElem?_evaluate_stations, listed, Option.map_some, same]
  · intro same
    have views : (c.evaluate now stations samples).stations =
        (c.evaluate now' stations samples').stations := by
      rw [← evaluate_stations_listedSamples, ← evaluate_stations_listedSamples c now' stations, same]
      rfl
    refine ⟨views, ?_, ?_⟩
    · rw [evaluate_bands, evaluate_bands, views]
    · rw [evaluate_fleet, evaluate_fleet, views]

/- The second batch has other samples of bs-2 and of bs-9, which is not listed; the third differs from
the first in the samples of bs-9 only. -/
theorem evaluate_isolates_two_stations :
    let stations := [Station.mk "bs-1" "North" "Roof" .active,
      Station.mk "bs-2" "South" "Mast" .active]
    let own := Sample.mk 1 "bs-1" .latency 12.0 (some ⟨2000, by decide⟩) none
    let other := Sample.mk 2 "bs-2" .latency 30.0 (some ⟨2000, by decide⟩) none
    let later := Sample.mk 3 "bs-2" .latency 90.0 (some ⟨3000, by decide⟩) none
    let stray := Sample.mk 4 "bs-9" .cpuLoad 99.0 none none
    ownSamples [own, other] "bs-1" = ownSamples [stray, later, own, other] "bs-1" ∧
    listedSamples [own, other] stations = listedSamples [own, stray, other] stations ∧
    (∃ v, v.id = "bs-1" ∧
      (builtin.evaluate .epoch stations [own, other]).stations[0]? = some v ∧
      (builtin.evaluate .epoch stations [stray, later, own, other]).stations[0]? = some v) ∧
    (builtin.evaluate .epoch stations [own, other]).bands =
      (builtin.evaluate .epoch stations [own, stray, other]).bands := by
  intro stations own other later stray
  have same_own : ownSamples [own, other] "bs-1" = ownSamples [stray, later, own, other] "bs-1" := by
    decide
  have same_listed : listedSamples [own, other] stations =
      listedSamples [own, stray, other] stations := by
    decide
  obtain ⟨views, _, _⟩ := evaluate_isolates builtin .epoch .epoch stations [own, other]
    [stray, later, own, other]
  obtain ⟨_, summaries, _⟩ := evaluate_isolates builtin .epoch .epoch stations [own, other]
    [own, stray, other]
  obtain ⟨_, bands, _⟩ := summaries same_listed
  exact ⟨same_own, same_listed, views 0 ⟨"bs-1", "North", "Roof", .active⟩ rfl same_own, bands⟩

end Catalog
end FleetHealth
