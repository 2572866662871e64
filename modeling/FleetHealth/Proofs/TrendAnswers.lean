import Mathlib.Data.List.Nodup
import FleetHealth.Proofs.FoldedNames
import FleetHealth.Proofs.QueryTexts
import FleetHealth.Proofs.TrendOrder
/-!
What the service answers about daily trends. Asked for one metric it answers the list that stands
under the metric's name in the answer about all of them, and these lists together are the published
points. Every text can be asked for; those that spell no known name are refused.
-/
namespace FleetHealth

/-- A get request for daily trends: of all metrics, or of the one that the text names. -/
structure Request.AsksTrends (r : Request) (metric : Option String) : Prop where
  method : r.method = "GET"
  path : Resource.ofPath? r.target.path = some .dailyTrends
  query : ((Text.formPairs r.target.query).filter (fun p => p.1 = "metric")).map Prod.snd =
    metric.toList

namespace Request

def trendsPath : List Char := "/api/trends/daily".toList

def metricField : List Char := "metric".toList

def metricQuery (t : String) : List Char := metricField ++ '=' :: Text.percentEncode t

/-- The target of such a request. -/
def trendsTarget : Option String → String
  | none => String.ofList trendsPath
  | some t => String.ofList (trendsPath ++ '?' :: metricQuery t)

theorem formDecode_metricField : Text.formDecode metricField = "metric" := by decide +kernel

theorem formPairs_metricQuery (t : String) : Text.formPairs (metricQuery t) = [("metric", t)] := by
  have no_amp : '&' ∉ metricField := by decide +kernel
  have no_equals : '=' ∉ metricField := by decide +kernel
  rw [metricQuery, Text.formPairs_field no_amp no_equals, formDecode_metricField]

theorem parse?_trendsTarget (t : String) :
    Target.parse? (trendsTarget (some t)) = some ⟨trendsPath, metricQuery t⟩ := by
  have sound : trendsPath.all Target.isPathChar = true := by decide +kernel
  have named : (metricField ++ ['=']).all Target.isQueryChar = true := by decide +kernel
  have shown : ∀ c ∈ metricQuery t, Target.isQueryChar c = true := by
    intro c member
    rw [metricQuery, List.append_cons] at member
    rcases List.mem_append.mp member with front | value
    · exact List.all_eq_true.mp named c front
    · exact Text.isQueryChar_of_mem value
  have cut := Target.ofPath?_query (List.all_eq_true.mp sound) shown
  have slash : trendsPath = '/' :: trendsPath.tail := by decide +kernel
  rw [slash, List.cons_append] at cut
  rw [Target.parse?, trendsTarget, String.toList_ofList, slash, List.cons_append]
  exact cut

theorem exists_asksTrends (metric : Option String) :
    ∃ r, Request.parse? "GET" (trendsTarget metric) = some r ∧ r.AsksTrends metric := by
  have path : Resource.ofPath? trendsPath = some .dailyTrends := by decide +kernel
  cases metric with
  | none => exact ⟨⟨"GET", trendsPath, []⟩, by decide +kernel, rfl, path, rfl⟩
  | some t =>
    have method : "GET" ≠ "" ∧ "GET".toList.all Request.isMethodChar = true := by decide +kernel
    refine ⟨⟨"GET", trendsPath, metricQuery t⟩, ?_, rfl, path, ?_⟩
    · rw [Request.parse?, if_pos method, parse?_trendsTarget, Option.map_some]
    · rw [formPairs_metricQuery]
      rfl

end Request

/-- The lists by metric name, as the answer about all metrics shows them. -/
def namedSeries (points : List TrendPoint) : List (String × List TrendPoint) :=
  (seriesByMetric points).map (fun e => (e.1.name, e.2))

section Series

variable {points : List TrendPoint} {m : Metric}

theorem seriesByMetric_distinct (points : List TrendPoint) :
    ((seriesByMetric points).map Prod.fst).Nodup := by
  rw [List.Nodup, List.pairwise_map]
  exact KeyedFold.distinct_toList _

theorem namedSeries_distinct (points : List TrendPoint) :
    ((namedSeries points).map Prod.fst).Nodup := by
  have names : (namedSeries points).map Prod.fst =
      ((seriesByMetric points).map Prod.fst).map Metric.name := by
    rw [namedSeries, List.map_map, List.map_map]
    rfl
  rw [names]
  exact (seriesByMetric_distinct points).map fun _ _ => Metric.name_injective

theorem mem_namedSeries {e : String × List TrendPoint} (member : e ∈ namedSeries points) :
    ∃ m : Metric, e.1 = m.name ∧ e.2 ≠ [] ∧ e.2 = points.filter (fun p => p.metric = m) := by
  obtain ⟨⟨m, g⟩, inside, rfl⟩ := List.mem_map.mp member
  exact ⟨m, rfl, mem_seriesByMetric.mp inside⟩

/-- Every point stands in one of the lists, and as often as it is published. -/
theorem namedSeries_perm (points : List TrendPoint) :
    ((namedSeries points).flatMap Prod.snd).Perm points := by
  have grouped : (namedSeries points).flatMap Prod.snd =
      ((seriesByMetric points).map Prod.fst).flatMap
        (fun m => points.filter (fun p => p.metric = m)) := by
    rw [namedSeries, List.flatMap_map, List.flatMap_map]
    refine List.flatMap_congr fun e member => ?_
    exact (mem_seriesByMetric.mp member).2
  rw [grouped]
  refine KeyedFold.groups_perm TrendPoint.metric (seriesByMetric_distinct points) ?_
  intro p member
  have own : points.filter (fun q => q.metric = p.metric) ≠ [] :=
    List.ne_nil_of_mem (List.mem_filter.mpr ⟨member, decide_eq_true rfl⟩)
  exact List.mem_map.mpr ⟨(p.metric, _), mem_seriesByMetric.mpr ⟨own, rfl⟩, rfl⟩

end Series

namespace Service

/-- The document about all metrics. -/
def seriesTree (points : List TrendPoint) : Tree :=
  .record ((namedSeries points).map (fun e => (e.1, pointsTree e.2)))

/-- Under a metric's name stand its points, and nothing if it has none. -/
theorem member?_seriesTree (trends : Trends) (m : Metric) :
    ((seriesTree trends.points).member? m.name).getD (.list []) = pointsTree (trends.series m) := by
  have distinct : (((namedSeries trends.points).map (fun e => (e.1, pointsTree e.2))).map
      Prod.fst).Nodup := by
    rw [List.map_map]
    exact namedSeries_distinct trends.points
  rw [seriesTree, Tree.member?_record]
  by_cases own : trends.series m = []
  · have absent : ((namedSeries trends.points).map (fun e => (e.1, pointsTree e.2))).lookup
        m.name = none := by
      refine List.lookup_eq_none_iff.mpr fun e listed => bne_iff_ne.mpr ?_
      obtain ⟨⟨name, points⟩, member, rfl⟩ := List.mem_map.mp listed
      obtain ⟨n, rfl, filled, rfl⟩ := mem_namedSeries member
      intro same
      exact filled (Metric.name_injective same ▸ own)
    rw [absent, own]
    rfl
  · have listed : (m.name, trends.series m) ∈ namedSeries trends.points :=
      List.mem_map.mpr ⟨(m, trends.series m), mem_seriesByMetric.mpr ⟨own, rfl⟩, rfl⟩
    rw [Tree.lookup_of_mem distinct (List.mem_map.mpr ⟨_, listed, rfl⟩)]
    rfl

variable {dashboard : Dashboard} {trends : Trends} {r : Request}

theorem answer_of_asksTrends {metric : Option String} (asks : r.AsksTrends metric) :
    answer dashboard trends r = dailyTrends trends metric := by
  obtain ⟨method, path, query⟩ := asks
  have other : r.method ≠ "OPTIONS" := by
    rw [method]
    decide
  rw [answer, if_neg other, path]
  dsimp only
  rw [if_pos method, read, trendsAnswer]
  cases metric with
  | none => rw [List.map_eq_nil_iff.mp query]
  | some t =>
    obtain ⟨p, pairs, rfl⟩ := List.map_eq_singleton_iff.mp query
    rw [pairs]

theorem dailyTrends_all (trends : Trends) :
    dailyTrends trends none = .document 200 (seriesTree trends.points) := by
  rw [dailyTrends, seriesTree, namedSeries, List.map_map]
  rfl

theorem dailyTrends_known {t : String} {m : Metric} (member : m ∈ Metric.known)
    (folded : Text.fold t = m.name) :
    dailyTrends trends (some t) = .document 200 (pointsTree (trends.series m)) := by
  rw [dailyTrends, Metric.parse_eq_ok_iff.mpr ⟨member, folded⟩]

theorem dailyTrends_unknown {t : String} (unnamed : ∀ m ∈ Metric.known, Text.fold t ≠ m.name) :
    dailyTrends trends (some t) = .failure 400 (UnknownMetric.message ⟨t⟩) := by
  rw [dailyTrends, Metric.parse_eq_error_iff.mpr ⟨rfl, unnamed⟩]

end Service
end FleetHealth
