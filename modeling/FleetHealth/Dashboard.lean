import FleetHealth.Summary
/-!
The dashboard: everything shown of one batch of samples. Categories are classified by fleet-wide
averages, stations by their current values.
-/
namespace FleetHealth

structure ClassifiedAggregate where
  aggregate : Aggregate
  status : Health
  deriving DecidableEq, Repr

structure CategoryView where
  name : String
  status : Health
  metrics : List ClassifiedAggregate
  deriving DecidableEq, Repr

structure Dashboard where
  generatedAt : Instant
  sampleCount : Nat
  overall : Health
  categories : List CategoryView
  stations : List StationView
  bands : List BandSummary
  fleet : FleetSummary
  deriving DecidableEq, Repr

namespace Dashboard

/-- Nothing read yet: no stations, no samples, all healthy. -/
def empty (generatedAt : Instant) : Dashboard := ⟨generatedAt, 0, .healthy, [], [], [], .none⟩

def station? (d : Dashboard) (id : String) : Option StationView :=
  d.stations.find? (fun v => v.id = id)

def category? (d : Dashboard) (name : String) : Option CategoryView :=
  d.categories.find? (fun v => v.name = name)

end Dashboard

namespace Catalog

/-- A category reports its metrics that have a fleet-wide aggregate, in its own order. -/
def categoryView (c : Catalog) (fleet : Aggregates) (category : Category) : CategoryView :=
  let metrics := category.metrics.filterMap (fun m =>
    (fleet[(⟨none, m⟩ : AggregateKey)]?).map (fun a =>
      ⟨a, c.thresholds.classify a.metric a.average none⟩))
  ⟨category.name, Health.worst (metrics.map (·.status)), metrics⟩

def categorize (c : Catalog) (fleet : Aggregates) : List CategoryView :=
  c.categories.map (c.categoryView fleet)

/-- The dashboard of a batch in which no id occurs twice. Every sample counts for the fleet-wide
figures; views are of the stations in the directory, in its order. -/
def evaluate (c : Catalog) (generatedAt : Instant) (stations : List Station)
    (samples : List Sample) : Dashboard :=
  let categories := c.categorize (aggregate c.thresholds .fleet samples)
  let perStation := aggregate c.thresholds .station samples
  let views := stations.map (c.view perStation)
  { generatedAt
    sampleCount := samples.length
    overall := Health.worst (categories.map (·.status))
    categories
    stations := views
    bands := summarizeBands c.thresholds c.bands views
    fleet := summarizeFleet c.thresholds views }

end Catalog
end FleetHealth
