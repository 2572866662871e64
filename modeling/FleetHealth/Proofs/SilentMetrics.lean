import FleetHealth.Proofs.BetterReadings
/-!
Stations that are silent on a metric. Where the stand-ins of a catalog are critical, so is whatever
is composed of a silent metric, and no count of healthy stations has the station in it.
-/
namespace FleetHealth

/-- What the summaries of a band count as healthy. -/
def Dashboard.healthyIn (d : Dashboard) (b : Band) : List UInt32 :=
  (d.bands.filter (fun summary => summary.band = b)).map (·.healthyStations)

/-- A member that is not healthy adds nothing to the healthy ones of those chosen. -/
theorem count_healthy_without {α : Type} {f : α → Health} {a : α} (ill : f a ≠ .healthy)
    (p : α → Bool) (before after : List α) :
    (((before ++ a :: after).filter p).map f).count .healthy =
      (((before ++ after).filter p).map f).count .healthy := by
  rw [List.filter_append, List.filter_append, List.filter_cons]
  split
  case isTrue =>
    rw [List.map_append, List.map_append, List.map_cons, List.count_append, List.count_append,
      List.count_cons_of_ne ill]
  case isFalse => rfl

namespace Catalog

/-- No band is listed twice, and the stand-in of every metric a view reads is critical. -/
structure Cautious (c : Catalog) : Prop where
  distinct : (c.bands.map BandPlan.band).Nodup
  critical : ∀ m ∈ c.viewed, c.thresholds.classify m (c.missing.valueFor m) none = .critical

theorem cautious_builtin : builtin.Cautious := ⟨by decide, by decide +kernel⟩

section Fields

variable {c : Catalog} {samples : List Sample} {m : Metric} {plan : BandPlan} {s : Station}

variable (cautious : c.Cautious)

include cautious

theorem field_critical (read : m ∈ c.viewed) (silent : Silent samples s.id m) :
    (c.field (aggregate c.thresholds .station samples) s.id m).status = .critical := by
  rw [field_of_silent silent]
  exact cautious.critical m read

theorem bandRecord_critical (listed : plan ∈ c.bands) (fed : m ∈ plan.metrics)
    (silent : Silent samples s.id m) :
    (c.bandRecord (aggregate c.thresholds .station samples) s.id plan).status = .critical := by
  have read : m ∈ c.viewed := List.mem_append_left _ (List.mem_flatMap.mpr ⟨plan, listed, fed⟩)
  rw [bandRecord_status]
  refine Health.worst_eq_critical (List.mem_map.mpr ⟨m, fed, ?_⟩)
  exact field_critical cautious read silent

theorem view_critical (read : m ∈ c.viewed) (silent : Silent samples s.id m) :
    (c.view (aggregate c.thresholds .station samples) s).status = .critical := by
  rw [view_status, view_fields, List.map_map]
  refine Health.worst_eq_critical (List.mem_map.mpr ⟨m, read, ?_⟩)
  exact field_critical cautious read silent

end Fields

section Counts

variable {c : Catalog} {aggregates : Aggregates} {s : Station} {plan : BandPlan}

theorem find?_band (distinct : (c.bands.map BandPlan.band).Nodup) (listed : plan ∈ c.bands) :
    c.bands.find? (fun p => p.band = plan.band) = some plan := by
  have found : (c.bands.find? (fun p => p.band = plan.band)).isSome = true :=
    List.find?_isSome.mpr ⟨plan, listed, decide_eq_true rfl⟩
  obtain ⟨q, found⟩ := Option.isSome_iff_exists.mp found
  have same := List.find?_some found
  rw [decide_eq_true_eq] at same
  rw [found, List.inj_on_of_nodup_map distinct (List.mem_of_find?_eq_some found) listed same]

theorem healthyActive_without (ill : (c.view aggregates s).status ≠ .healthy)
    (before after : List Station) :
    (summarizeFleet c.thresholds ((before ++ s :: after).map (c.view aggregates))).healthyActive =
      (summarizeFleet c.thresholds ((before ++ after).map (c.view aggregates))).healthyActive := by
  have same : (c.stationTiers aggregates (before ++ s :: after)).count .healthy =
      (c.stationTiers aggregates (before ++ after)).count .healthy :=
    count_healthy_without (f := fun s : Station => (c.view aggregates s).status) ill _ before after
  rw [summarizeFleet_eq, summarizeFleet_eq]
  exact congrArg Nat.toUInt32 same

theorem healthyStations_without (distinct : (c.bands.map BandPlan.band).Nodup)
    (listed : plan ∈ c.bands) (ill : (c.bandRecord aggregates s.id plan).status ≠ .healthy)
    (before after : List Station) :
    (summarizeBand c.thresholds ((before ++ s :: after).map (c.view aggregates))
        plan.band).healthyStations =
      (summarizeBand c.thresholds ((before ++ after).map (c.view aggregates))
        plan.band).healthyStations := by
  have found := find?_band distinct listed
  have counted := fun stations =>
    congrArg Share.healthy (summarizeBand_eq found c.thresholds aggregates stations).1
  have same : (c.bandTiers aggregates (before ++ s :: after) plan).count .healthy =
      (c.bandTiers aggregates (before ++ after) plan).count .healthy :=
    count_healthy_without (f := fun s : Station => (c.bandRecord aggregates s.id plan).status) ill _
      before after
  exact (counted _).trans ((congrArg Nat.toUInt32 same).trans (counted _).symm)

theorem healthyIn_evaluate (now : Instant) (stations : List Station) (samples : List Sample)
    (b : Band) : (c.evaluate now stations samples).healthyIn b =
      (c.bands.filter (fun p => p.band = b)).map (fun _ =>
        (summarizeBand c.thresholds
          (stations.map (c.view (aggregate c.thresholds .station samples))) b).healthyStations) := by
  let views := stations.map (c.view (aggregate c.thresholds .station samples))
  show ((c.bands.map (fun p => summarizeBand c.thresholds views p.band)).filter
    (fun summary => summary.band = b)).map (·.healthyStations) = _
  rw [List.filter_map, List.map_map]
  refine List.map_congr_left (fun p chosen => ?_)
  have band : p.band = b := of_decide_eq_true (List.mem_filter.mp chosen).2
  rw [Function.comp_apply, band]

theorem healthyIn_without {samples : List Sample} (distinct : (c.bands.map BandPlan.band).Nodup)
    (listed : plan ∈ c.bands)
    (ill : (c.bandRecord (aggregate c.thresholds .station samples) s.id plan).status ≠ .healthy)
    (now : Instant) (before after : List Station) :
    (c.evaluate now (before ++ s :: after) samples).healthyIn plan.band =
      (c.evaluate now (before ++ after) samples).healthyIn plan.band := by
  rw [healthyIn_evaluate, healthyIn_evaluate]
  rw [healthyStations_without distinct listed ill before after]

end Counts

/-- The built-in catalog is cautious. Under a cautious catalog a station that is silent on a metric
of a band is critical and so is its record for the band, and one silent on a station-wide metric is
critical; as healthy is counted whoever would be counted without it. -/
theorem silence_is_critical :
    builtin.Cautious ∧
    ∀ (c : Catalog), c.Cautious → ∀ (now : Instant) (before after : List Station) (s : Station)
      (samples : List Sample),
    let d := c.evaluate now (before ++ s :: after) samples
    let without := c.evaluate now (before ++ after) samples
    ∃ v, d.stations[before.length]? = some v ∧ v.id = s.id ∧
      (∀ plan ∈ c.bands, (∃ m ∈ plan.metrics, Silent samples s.id m) →
        (∃ r, v.band? plan.band = some r) ∧
        (∀ r ∈ v.bands, r.band = plan.band → r.status = .critical) ∧ v.status = .critical ∧
        d.healthyIn plan.band = without.healthyIn plan.band ∧
        d.fleet.healthyActive = without.fleet.healthyActive) ∧
      ((∃ m ∈ stationWideMetrics, Silent samples s.id m) →
        v.status = .critical ∧ d.fleet.healthyActive = without.fleet.healthyActive) := by
  refine ⟨cautious_builtin, ?_⟩
  intro c cautious now before after s samples d without
  let aggregates := aggregate c.thresholds .station samples
  let v := c.view aggregates s
  have unhealthy : v.status = .critical →
      d.fleet.healthyActive = without.fleet.healthyActive := by
    intro critical
    refine healthyActive_without ?_ before after
    show v.status ≠ .healthy
    rw [critical]
    decide
  refine ⟨v, ?_, rfl, ?_, ?_⟩
  · show ((before ++ s :: after).map (c.view aggregates))[before.length]? = some v
    rw [List.getElem?_map, List.getElem?_append_right (Nat.le_refl _), Nat.sub_self]
    rfl
  · intro plan listed silence
    obtain ⟨m, fed, silent⟩ := silence
    have found := find?_band cautious.distinct listed
    have record := bandRecord_critical cautious listed fed silent
    have read : m ∈ c.viewed := List.mem_append_left _ (List.mem_flatMap.mpr ⟨plan, listed, fed⟩)
    have critical : v.status = .critical := view_critical cautious read silent
    refine ⟨⟨c.bandRecord aggregates s.id plan, ?_⟩, ?_, critical, ?_, unhealthy critical⟩
    · rw [band?_view, found]
      rfl
    · intro r inside band
      obtain ⟨p, listed', rfl⟩ := List.mem_map.mp inside
      rw [List.inj_on_of_nodup_map cautious.distinct listed' listed band]
      exact record
    · have ill : (c.bandRecord aggregates s.id plan).status ≠ .healthy := by
        rw [record]
        decide
      exact healthyIn_without cautious.distinct listed ill now before after
  · intro silence
    obtain ⟨m, wide, silent⟩ := silence
    have critical : v.status = .critical :=
      view_critical cautious (List.mem_append_right _ wide) silent
    exact ⟨critical, unhealthy critical⟩

/- The second station reports no uplink of one band; its namesake does. -/
theorem silence_is_critical_of_missing_uplink :
    let twin := Station.mk "bs-1" "North" "Roof" .active
    let s := Station.mk "bs-2" "North" "Roof" .active
    let samples := [Sample.mk 1 "bs-1" .lteUplink 95.0 none none,
      Sample.mk 2 "bs-2" .lteDownlink 95.0 none none, Sample.mk 3 "bs-2" .latency 5.0 none none]
    let d := builtin.evaluate .epoch [twin, s] samples
    let without := builtin.evaluate .epoch [twin] samples
    builtin.Cautious ∧ Silent samples s.id .lteUplink ∧
    ∃ v, d.stations[1]? = some v ∧ v.id = s.id ∧
      (∃ r, v.band? .lte = some r) ∧ (∀ r ∈ v.bands, r.band = .lte → r.status = .critical) ∧
      v.status = .critical ∧ d.healthyIn .lte = without.healthyIn .lte ∧
      d.fleet.healthyActive = without.fleet.healthyActive := by
  intro twin s samples d without
  have silent : Silent samples s.id .lteUplink := by
    unfold Silent
    decide +kernel
  have ⟨cautious, always⟩ := silence_is_critical
  obtain ⟨v, shown, id, bands, _⟩ := always builtin cautious .epoch [twin] [] s samples
  have listed : ⟨.lte, .lteDownlink, .lteUplink, none, none⟩ ∈ builtin.bands := by decide
  exact ⟨cautious, silent, v, shown, id, bands _ listed ⟨.lteUplink, by decide, silent⟩⟩

end Catalog
end FleetHealth
