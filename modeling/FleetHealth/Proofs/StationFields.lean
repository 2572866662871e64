import Mathlib.Data.List.Forall2
import FleetHealth.Dashboard
import FleetHealth.Proofs.Acceptance
import FleetHealth.Proofs.Tallies
/-!
What a view says of its station. Under an accepted catalog a field is filled in exactly if the batch
has no sample for it, and every field is classified by a rule.
-/
namespace FleetHealth

/-- The samples of one station and metric, in their order. -/
def samplesOf (samples : List Sample) (stationId : String) (m : Metric) : List Sample :=
  samples.filter (fun s => s.stationId = stationId ∧ s.metric = m)

/-- No sample is of this station and metric. -/
def Silent (samples : List Sample) (stationId : String) (m : Metric) : Prop :=
  ∀ s ∈ samples, ¬(s.stationId = stationId ∧ s.metric = m)

namespace Catalog

/-- A field says of its metric what the samples do, or what stands for a silent metric. -/
structure FieldShows (c : Catalog) (samples : List Sample) (stationId : String) (m : Metric)
    (f : Field) : Prop where
  metric : f.metric = m
  measured : f.defaulted = false ↔ ∃ s ∈ samples, s.stationId = stationId ∧ s.metric = m
  current : f.defaulted = false →
    ∃ s, IsCurrent (samplesOf samples stationId m) s ∧ f.current = s.value
  average : f.defaulted = false →
    f.average = sumFromFirst ((samplesOf samples stationId m).map Sample.value) /
      (samplesOf samples stationId m).length.toFloat
  missing : f.defaulted = true →
    f.current = c.missing.valueFor m ∧ f.average = c.missing.valueFor m
  status : ∃ rule, c.thresholds.metrics m = some rule ∧ f.status = rule.classify f.current none

/-- A record has the fields of its band, and no others. -/
structure BandShows (c : Catalog) (samples : List Sample) (stationId : String) (plan : BandPlan)
    (r : BandRecord) : Prop where
  band : r.band = plan.band
  downlink : c.FieldShows samples stationId plan.downlink r.downlink
  uplink : c.FieldShows samples stationId plan.uplink r.uplink
  signalPower : Option.Rel (c.FieldShows samples stationId) plan.signalPower r.signalPower
  signalQuality : Option.Rel (c.FieldShows samples stationId) plan.signalQuality r.signalQuality

/-- A view is of its station and has a record for each band of the catalog, in that order. -/
structure ViewShows (c : Catalog) (samples : List Sample) (s : Station) (v : StationView) :
    Prop where
  station : v.id = s.id ∧ v.name = s.name ∧ v.location = s.location ∧ v.lifecycle = s.lifecycle
  bands : List.Forall₂ (c.BandShows samples s.id) c.bands v.bands
  latency : c.FieldShows samples s.id .latency v.latency
  txImbalance : c.FieldShows samples s.id .txImbalance v.txImbalance

theorem samplesOf_of_silent {samples : List Sample} {stationId : String} {m : Metric}
    (silent : Silent samples stationId m) : samplesOf samples stationId m = [] := by
  rw [samplesOf, List.filter_eq_nil_iff]
  intro x inside own
  exact silent x inside (of_decide_eq_true own)

theorem samplesOf_ne_nil_iff {samples : List Sample} {stationId : String} {m : Metric} :
    samplesOf samples stationId m ≠ [] ↔ ∃ s ∈ samples, s.stationId = stationId ∧ s.metric = m := by
  constructor
  · intro filled
    obtain ⟨s, inside⟩ := List.exists_mem_of_ne_nil _ filled
    obtain ⟨inside, own⟩ := List.mem_filter.mp inside
    exact ⟨s, inside, of_decide_eq_true own⟩
  · intro h
    obtain ⟨s, inside, own⟩ := h
    exact List.ne_nil_of_mem (List.mem_filter.mpr ⟨inside, decide_eq_true own⟩)

theorem getElem?_aggregate_station {thresholds : Thresholds} (samples : List Sample)
    (stationId : String) {m : Metric} (ruled : thresholds.isCatalogued m = true) :
    (aggregate thresholds .station samples)[(⟨some stationId, m⟩ : AggregateKey)]? =
      ((samplesOf samples stationId m).foldl Tally.extend none).map
        (Tally.finish ⟨some stationId, m⟩) := by
  have key : ∀ s : Sample, Grouping.station.key s = ⟨some stationId, m⟩ ↔
      s.stationId = stationId ∧ s.metric = m := by
    intro s
    simp [Grouping.key]
  rw [getElem?_aggregate thresholds .station samples ruled]
  simp only [key]
  rfl

/-- Nothing stands for a silent metric but its stand-in, whether or not it has a rule. -/
theorem field_of_silent {c : Catalog} {samples : List Sample} {stationId : String} {m : Metric}
    (silent : Silent samples stationId m) :
    c.field (aggregate c.thresholds .station samples) stationId m =
      ⟨m, c.missing.valueFor m, c.missing.valueFor m, true,
        c.thresholds.classify m (c.missing.valueFor m) none⟩ := by
  have absent : (aggregate c.thresholds .station samples)[(⟨some stationId, m⟩ : AggregateKey)]? =
      none := by
    cases ruled : c.thresholds.isCatalogued m with
    | false => exact getElem?_aggregate_of_not_catalogued _ _ _ ruled
    | true =>
      rw [getElem?_aggregate_station samples stationId ruled, samplesOf_of_silent silent]
      rfl
  rw [field, absent]

theorem field_shows {c : Catalog} {m : Metric} {rule : Rule}
    (ruled : c.thresholds.metrics m = some rule) (samples : List Sample) (stationId : String) :
    c.FieldShows samples stationId m
      (c.field (aggregate c.thresholds .station samples) stationId m) := by
  have catalogued : c.thresholds.isCatalogued m = true := by
    rw [Thresholds.isCatalogued, ruled]
    rfl
  have graded : ∀ v, c.thresholds.classify m v none = rule.classify v none := by
    intro v
    rw [Thresholds.classify, ruled]
  by_cases silent : Silent samples stationId m
  · rw [field_of_silent silent]
    refine ⟨rfl, ?_, ?_, ?_, fun _ => ⟨rfl, rfl⟩, rule, ruled, graded _⟩
    · constructor
      · intro h
        cases h
      · intro present
        obtain ⟨s, inside, own⟩ := present
        exact absurd own (silent s inside)
    · intro h
      cases h
    · intro h
      cases h
  · have filled : samplesOf samples stationId m ≠ [] := by
      intro none
      exact silent fun s inside own => samplesOf_ne_nil_iff.mpr ⟨s, inside, own⟩ none
    obtain ⟨t, folded, sums⟩ := Tally.foldl_extend_of_ne_nil filled
    have lookup := getElem?_aggregate_station samples stationId catalogued
    rw [folded] at lookup
    have measured : c.field (aggregate c.thresholds .station samples) stationId m =
        ⟨m, t.current, t.sum / t.count.toFloat, false,
          c.thresholds.classify m t.current none⟩ := by
      rw [field, lookup]
      rfl
    rw [measured]
    obtain ⟨s, current, value, _⟩ := sums.current
    refine ⟨rfl, ?_, fun _ => ⟨s, current, value⟩, ?_, ?_, rule, ruled, graded _⟩
    · constructor
      · intro _
        exact samplesOf_ne_nil_iff.mp filled
      · intro _
        rfl
    · intro _
      rw [← sums.sum, ← sums.count]
    · intro h
      cases h

theorem field_shows_option {c : Catalog} {metric : Option Metric}
    (ruled : ∀ m ∈ metric.toList, ∃ rule, c.thresholds.metrics m = some rule)
    (samples : List Sample) (stationId : String) :
    Option.Rel (c.FieldShows samples stationId) metric
      (metric.map (c.field (aggregate c.thresholds .station samples) stationId)) := by
  cases metric with
  | none => exact .none
  | some m =>
    obtain ⟨rule, ruled⟩ := ruled m (List.mem_singleton_self m)
    exact .some (field_shows ruled samples stationId)

theorem band_shows {c : Catalog} {plan : BandPlan}
    (ruled : ∀ m ∈ plan.metrics, ∃ rule, c.thresholds.metrics m = some rule)
    (samples : List Sample) (stationId : String) :
    c.BandShows samples stationId plan
      (c.bandRecord (aggregate c.thresholds .station samples) stationId plan) := by
  simp only [BandPlan.metrics, List.mem_append] at ruled
  obtain ⟨_, downlink⟩ := ruled plan.downlink (by simp)
  obtain ⟨_, uplink⟩ := ruled plan.uplink (by simp)
  exact ⟨rfl, field_shows downlink samples stationId, field_shows uplink samples stationId,
    field_shows_option (fun m inside => ruled m (.inl (.inr inside))) samples stationId,
    field_shows_option (fun m inside => ruled m (.inr inside)) samples stationId⟩

/-- Under an accepted catalog the dashboard has a view of each station of the directory, in its
order, and every view says what the samples do. -/
theorem views_show_samples {c : Catalog} (accepted : c.validate = .ok ()) (now : Instant)
    (stations : List Station) (samples : List Sample) :
    List.Forall₂ (c.ViewShows samples) stations (c.evaluate now stations samples).stations := by
  have sound := validate_eq_ok_iff.mp accepted
  have band_ruled : ∀ plan ∈ c.bands, ∀ m ∈ plan.metrics,
      ∃ rule, c.thresholds.metrics m = some rule := by
    intro plan listed m inside
    apply sound.ruled
    rw [referenced, List.append_assoc, List.mem_append, List.mem_append]
    exact .inr (.inl (List.mem_flatMap.mpr ⟨plan, listed, inside⟩))
  have wide_ruled : ∀ m ∈ stationWideMetrics, ∃ rule, c.thresholds.metrics m = some rule := by
    intro m inside
    apply sound.ruled
    rw [referenced, List.mem_append]
    exact .inr inside
  obtain ⟨_, latency⟩ := wide_ruled .latency (by decide)
  obtain ⟨_, txImbalance⟩ := wide_ruled .txImbalance (by decide)
  show List.Forall₂ _ stations
    (stations.map (c.view (aggregate c.thresholds .station samples)))
  rw [List.forall₂_map_right_iff, List.forall₂_same]
  intro s _
  refine ⟨⟨rfl, rfl, rfl, rfl⟩, ?_, field_shows latency samples s.id,
    field_shows txImbalance samples s.id⟩
  show List.Forall₂ _ c.bands
    (c.bands.map (c.bandRecord (aggregate c.thresholds .station samples) s.id))
  rw [List.forall₂_map_right_iff, List.forall₂_same]
  intro plan listed
  exact band_shows (band_ruled plan listed) samples s.id

/- Three latencies of which the first two are of one time, one sample without a time, and one of another
station. -/
theorem views_show_samples_of_five :
    let stations := [Station.mk "bs-1" "North" "Roof" .active]
    let samples := [
      Sample.mk 1 "bs-1" .latency 12.0 (some ⟨2000, by decide⟩) none,
      Sample.mk 2 "bs-1" .latency 30.0 (some ⟨2000, by decide⟩) none,
      Sample.mk 3 "bs-1" .latency 60.0 (some ⟨1000, by decide⟩) none,
      Sample.mk 4 "bs-1" .nrPower (-95.0) none none,
      Sample.mk 5 "bs-2" .txImbalance 1.0 (some ⟨2000, by decide⟩) none]
    builtin.validate = .ok () ∧ List.Forall₂ (builtin.ViewShows samples) stations
      (builtin.evaluate .epoch stations samples).stations :=
  have accepted : builtin.validate = .ok () := by decide +kernel
  ⟨accepted, views_show_samples accepted _ _ _⟩

end Catalog
end FleetHealth
