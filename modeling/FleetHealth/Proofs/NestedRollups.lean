import Mathlib.Data.List.Forall2
import FleetHealth.Dashboard
import FleetHealth.Proofs.HealthTiers
import FleetHealth.Proofs.Tallies
/-!
Roll-ups without their levels. The overall tier is the worst among the metrics that categories list,
a category's the worst among its own, and a station's the worst among all its fields, whichever
levels lie between; samples of other metrics have no part in the first two.
-/
namespace FleetHealth

theorem forall₂_filter_filterMap {α β : Type} {R : α → β → Prop} {p : α → Bool} {f : α → Option β}
    (kept : ∀ a, p a = true → ∃ b, f a = some b ∧ R a b) (left : ∀ a, p a = false → f a = none)
    (xs : List α) : List.Forall₂ R (xs.filter p) (xs.filterMap f) := by
  induction xs with
  | nil => exact .nil
  | cons a rest ih =>
    cases chosen : p a with
    | false =>
      rw [List.filter_cons_of_neg (by simp [chosen]), List.filterMap_cons_none (left a chosen)]
      exact ih
    | true =>
      obtain ⟨b, found, related⟩ := kept a chosen
      rw [List.filter_cons_of_pos chosen, List.filterMap_cons_some found]
      exact .cons related ih

/-- The samples of one metric, of whichever station, in their order. -/
def metricSamples (samples : List Sample) (m : Metric) : List Sample :=
  samples.filter (fun s => s.metric = m)

/-- Their sum from the left over their number. -/
def metricMean (samples : List Sample) (m : Metric) : Float :=
  sumFromFirst ((metricSamples samples m).map Sample.value) /
    (metricSamples samples m).length.toFloat

/-- The metric has a rule and a sample. -/
def Thresholds.isReported (t : Thresholds) (samples : List Sample) (m : Metric) : Bool :=
  t.isCatalogued m && samples.any (fun s => s.metric = m)

/-- The tier of a reported metric is that of its mean. -/
def Thresholds.MeanTier (t : Thresholds) (samples : List Sample) (m : Metric) (h : Health) : Prop :=
  t.isReported samples m = true ∧ h = t.classify m (metricMean samples m) none

section Means

variable {t : Thresholds} {samples : List Sample} {m : Metric}

theorem isReported_iff : t.isReported samples m = true ↔
    t.isCatalogued m = true ∧ metricSamples samples m ≠ [] := by
  simp [Thresholds.isReported, metricSamples]

theorem getElem?_aggregate_fleet (ruled : t.isCatalogued m = true) :
    (aggregate t .fleet samples)[(⟨none, m⟩ : AggregateKey)]? =
      ((metricSamples samples m).foldl Tally.extend none).map (Tally.finish ⟨none, m⟩) := by
  have key : ∀ s : Sample, Grouping.fleet.key s = ⟨none, m⟩ ↔ s.metric = m := by
    intro s
    simp [Grouping.key]
  rw [getElem?_aggregate t .fleet samples ruled]
  simp only [key]
  rfl

theorem aggregate_of_reported (reported : t.isReported samples m = true) :
    ∃ a, (aggregate t .fleet samples)[(⟨none, m⟩ : AggregateKey)]? = some a ∧ a.metric = m ∧
      a.average = metricMean samples m := by
  obtain ⟨ruled, filled⟩ := isReported_iff.mp reported
  obtain ⟨tally, folded, sums⟩ := Tally.foldl_extend_of_ne_nil filled
  refine ⟨tally.finish ⟨none, m⟩, ?_, rfl, ?_⟩
  · rw [getElem?_aggregate_fleet ruled, folded]
    rfl
  · rw [metricMean, ← sums.sum, ← sums.count]
    rfl

theorem aggregate_of_unreported (silent : t.isReported samples m = false) :
    (aggregate t .fleet samples)[(⟨none, m⟩ : AggregateKey)]? = none := by
  cases ruled : t.isCatalogued m with
  | false => exact getElem?_aggregate_of_not_catalogued t .fleet samples ruled
  | true =>
    have empty : metricSamples samples m = [] := by
      by_contra filled
      rw [isReported_iff.mpr ⟨ruled, filled⟩] at silent
      cases silent
    rw [getElem?_aggregate_fleet ruled, empty]
    rfl

end Means

namespace Catalog

/-- An entry is of its metric and classified by the mean of the metric's samples. -/
structure EntryShows (c : Catalog) (samples : List Sample) (m : Metric) (e : ClassifiedAggregate) :
    Prop where
  metric : e.aggregate.metric = m
  average : e.aggregate.average = metricMean samples m
  status : c.thresholds.MeanTier samples m e.status

/-- A category has an entry for each metric it lists that is reported, in its order, and no others,
and is as healthy as the worst of them. -/
structure CategoryShows (c : Catalog) (samples : List Sample) (k : Category) (v : CategoryView) :
    Prop where
  name : v.name = k.name
  metrics : List.Forall₂ (c.EntryShows samples)
    (k.metrics.filter (c.thresholds.isReported samples)) v.metrics
  status : Health.IsWorst (fun h => ∃ m ∈ k.metrics, c.thresholds.MeanTier samples m h) v.status

section Categories

variable {c : Catalog} {samples : List Sample} {k : Category}

def reported? (c : Catalog) (fleet : Aggregates) (m : Metric) : Option ClassifiedAggregate :=
  (fleet[(⟨none, m⟩ : AggregateKey)]?).map (fun a =>
    ⟨a, c.thresholds.classify a.metric a.average none⟩)

theorem categoryView_metrics (fleet : Aggregates) :
    (c.categoryView fleet k).metrics = k.metrics.filterMap (c.reported? fleet) := rfl

theorem exists_entry {m : Metric} (reported : c.thresholds.isReported samples m = true) :
    ∃ e, c.reported? (aggregate c.thresholds .fleet samples) m = some e ∧
      c.EntryShows samples m e := by
  obtain ⟨a, found, metric, average⟩ := aggregate_of_reported reported
  refine ⟨⟨a, c.thresholds.classify a.metric a.average none⟩, ?_, metric, average, reported, ?_⟩
  · rw [reported?, found]
    rfl
  · rw [← average, ← metric]

theorem reported?_of_unreported {m : Metric} (silent : c.thresholds.isReported samples m = false) :
    c.reported? (aggregate c.thresholds .fleet samples) m = none := by
  rw [reported?, aggregate_of_unreported silent]
  rfl

/- The tiers of a category's entries are those of its reported metrics. -/
theorem mem_entry_tiers {h : Health} :
    h ∈ (c.categoryView (aggregate c.thresholds .fleet samples) k).metrics.map (·.status) ↔
      ∃ m ∈ k.metrics, c.thresholds.MeanTier samples m h := by
  rw [categoryView_metrics, List.mem_map]
  constructor
  · intro inside
    obtain ⟨e, inside, rfl⟩ := inside
    obtain ⟨m, listed, found⟩ := List.mem_filterMap.mp inside
    cases reported : c.thresholds.isReported samples m with
    | false =>
      rw [reported?_of_unreported reported] at found
      cases found
    | true =>
      obtain ⟨e', found', shows⟩ := exists_entry reported
      obtain rfl := Option.some.inj (found.symm.trans found')
      exact ⟨m, listed, shows.status⟩
  · intro tier
    obtain ⟨m, listed, reported, rfl⟩ := tier
    obtain ⟨e, found, shows⟩ := exists_entry reported
    exact ⟨e, List.mem_filterMap.mpr ⟨m, listed, found⟩, shows.status.2⟩

theorem category_shows (c : Catalog) (samples : List Sample) (k : Category) :
    c.CategoryShows samples k (c.categoryView (aggregate c.thresholds .fleet samples) k) :=
  ⟨rfl,
    forall₂_filter_filterMap (fun _ => exists_entry) (fun _ => reported?_of_unreported) k.metrics,
    Health.isWorst_worst (fun _ => mem_entry_tiers)⟩

theorem isWorst_overall (c : Catalog) (now : Instant) (stations : List Station)
    (samples : List Sample) : Health.IsWorst
      (fun h => ∃ k ∈ c.categories, ∃ m ∈ k.metrics, c.thresholds.MeanTier samples m h)
      (c.evaluate now stations samples).overall := by
  let fleet := aggregate c.thresholds .fleet samples
  let tiers := c.categories.map (fun k => (c.categoryView fleet k).metrics.map (·.status))
  have flat : (c.evaluate now stations samples).overall = Health.worst tiers.flatten := by
    show Health.worst ((c.categories.map (c.categoryView fleet)).map (·.status)) = _
    rw [Health.worst_flatten, List.map_map, List.map_map]
    rfl
  rw [flat]
  refine Health.isWorst_worst (fun h => ?_)
  rw [List.mem_flatten]
  constructor
  · intro inside
    obtain ⟨group, among, inside⟩ := inside
    obtain ⟨k, listed, rfl⟩ := List.mem_map.mp among
    exact ⟨k, listed, mem_entry_tiers.mp inside⟩
  · intro tier
    obtain ⟨k, listed, tier⟩ := tier
    exact ⟨_, List.mem_map_of_mem listed, mem_entry_tiers.mpr tier⟩

/-- The samples of metrics that have a rule and that some category lists. -/
def countedSamples (c : Catalog) (samples : List Sample) : List Sample :=
  samples.filter (fun s =>
    c.thresholds.isCatalogued s.metric && s.metric ∈ c.categories.flatMap (·.metrics))

theorem metricSamples_countedSamples {m : Metric} (ruled : c.thresholds.isCatalogued m = true)
    (listed : m ∈ c.categories.flatMap (·.metrics)) :
    metricSamples (c.countedSamples samples) m = metricSamples samples m := by
  rw [metricSamples, countedSamples, List.filter_filter, metricSamples]
  refine List.filter_congr (fun s _ => ?_)
  by_cases own : s.metric = m
  · subst own
    simp [ruled, listed]
  · simp [own]

theorem reported?_countedSamples {m : Metric} (listed : m ∈ c.categories.flatMap (·.metrics)) :
    c.reported? (aggregate c.thresholds .fleet (c.countedSamples samples)) m =
      c.reported? (aggregate c.thresholds .fleet samples) m := by
  cases ruled : c.thresholds.isCatalogued m with
  | false =>
    rw [reported?, reported?, getElem?_aggregate_of_not_catalogued _ _ _ ruled,
      getElem?_aggregate_of_not_catalogued _ _ _ ruled]
  | true =>
    rw [reported?, reported?, getElem?_aggregate_fleet ruled, getElem?_aggregate_fleet ruled,
      metricSamples_countedSamples ruled listed]

theorem categorize_countedSamples (c : Catalog) (samples : List Sample) :
    c.categorize (aggregate c.thresholds .fleet (c.countedSamples samples)) =
      c.categorize (aggregate c.thresholds .fleet samples) := by
  refine List.map_congr_left (fun k listed => ?_)
  have entries : k.metrics.filterMap
        (c.reported? (aggregate c.thresholds .fleet (c.countedSamples samples))) =
      k.metrics.filterMap (c.reported? (aggregate c.thresholds .fleet samples)) :=
    List.filterMap_congr (fun m inside =>
      reported?_countedSamples (List.mem_flatMap.mpr ⟨k, listed, inside⟩))
  exact congrArg
    (fun entries => CategoryView.mk k.name (Health.worst (entries.map (·.status))) entries) entries

end Categories

section Stations

variable {c : Catalog} {aggregates : Aggregates}

theorem view_status (s : Station) : (c.view aggregates s).status =
    Health.worst ((c.view aggregates s).fields.map (·.status)) := by
  let v := c.view aggregates s
  -- a record is a group of fields; the station-wide fields are groups of one
  let groups := v.bands.map (fun r => r.fields.map (·.status)) ++ [[v.latency.status],
    [v.txImbalance.status]]
  have members : v.fields.map (·.status) = groups.flatten := by
    rw [List.flatten_append, ← List.flatMap_def, ← List.map_flatMap, StationView.fields,
      List.map_append]
    rfl
  have records : (v.bands.map (fun r => r.fields.map (·.status))).map Health.worst =
      v.bands.map (·.status) := by
    rw [List.map_map]
    refine List.map_congr_left (fun r inside => ?_)
    obtain ⟨p, _, rfl⟩ := List.mem_map.mp inside
    rfl
  show v.status = Health.worst (v.fields.map (·.status))
  rw [members, Health.worst_flatten, List.map_append, records, List.map_cons, List.map_cons,
    Health.worst_singleton, Health.worst_singleton]
  rfl

end Stations

/-- The overall tier, every category and every station at once. -/
theorem rollups_flatten (c : Catalog) (now : Instant) (stations : List Station)
    (samples : List Sample) :
    let d := c.evaluate now stations samples
    Health.IsWorst
      (fun h => ∃ k ∈ c.categories, ∃ m ∈ k.metrics, c.thresholds.MeanTier samples m h) d.overall ∧
    List.Forall₂ (c.CategoryShows samples) c.categories d.categories ∧
    List.Forall₂ (fun s v => v.id = s.id ∧
      Health.IsWorst (fun h => ∃ f ∈ v.fields, f.status = h) v.status) stations d.stations ∧
    (c.evaluate now stations (c.countedSamples samples)).categories = d.categories ∧
    (c.evaluate now stations (c.countedSamples samples)).overall = d.overall := by
  intro d
  have categories : (c.evaluate now stations (c.countedSamples samples)).categories =
      d.categories := c.categorize_countedSamples samples
  refine ⟨c.isWorst_overall now stations samples, ?_, ?_, categories, ?_⟩
  · show List.Forall₂ _ c.categories
      (c.categories.map (c.categoryView (aggregate c.thresholds .fleet samples)))
    rw [List.forall₂_map_right_iff, List.forall₂_same]
    exact fun k _ => c.category_shows samples k
  · show List.Forall₂ _ stations
      (stations.map (c.view (aggregate c.thresholds .station samples)))
    rw [List.forall₂_map_right_iff, List.forall₂_same]
    intro s _
    refine ⟨rfl, ?_⟩
    rw [view_status]
    exact Health.isWorst_worst (fun h => List.mem_map)
  · exact congrArg (fun views : List CategoryView => Health.worst (views.map (·.status))) categories

end Catalog
end FleetHealth
