import FleetHealth.Trend
import FleetHealth.Wire.Sample
/-!
Trends and daily averages as documents show them.
-/
namespace FleetHealth

namespace TrendPoint

def fieldNames : List String := ["date", "metricType", "average"]

/-- The document of a point whose average is written as the given tree. -/
def toTreeWith (average : Tree) (p : TrendPoint) : Tree :=
  .record [("date", p.date.toTree), ("metricType", p.metric.toTree), ("average", average)]

def toTree (p : TrendPoint) : Tree := p.toTreeWith (.ofFloat p.average)

def ofTree? (t : Tree) : Option TrendPoint := do
  let f ← t.fields? fieldNames
  return ⟨← Tree.required? f "date" Date.ofTree?, ← Tree.required? f "metricType" Metric.ofTree?,
    ← Tree.required? f "average" Tree.float?⟩

end TrendPoint

namespace DayAverages

def fieldNames : List String := ["date", "averages"]

/-- The document of a day in which each average is written by the given function. -/
def toTreeWith (average : Float → Tree) (d : DayAverages) : Tree :=
  .record [("date", d.date.toTree),
    ("averages", .record ((d.averages.entries Metric.all).map (fun e => (e.1.name, average e.2))))]

def toTree (d : DayAverages) : Tree := d.toTreeWith .ofFloat

def ofTree? (t : Tree) : Option DayAverages := do
  let f ← t.fields? fieldNames
  return ⟨← Tree.required? f "date" Date.ofTree?,
    ← Tree.required? f "averages" Metric.valuesOfTree?⟩

end DayAverages

namespace TrendSource

def toTree (s : TrendSource) : Tree := .text s.name

def ofTree? (t : Tree) : Option TrendSource := t.caseName?.bind ofName?

end TrendSource

namespace Trends

def fieldNames : List String := ["generatedAt", "source", "points"]

def toTree (t : Trends) : Tree :=
  .record [("generatedAt", t.generatedAt.toTree), ("source", t.source.toTree),
    ("points", .list (t.points.map TrendPoint.toTree))]

def ofTree? (t : Tree) : Option Trends := do
  let f ← t.fields? fieldNames
  return ⟨← Tree.required? f "generatedAt" Instant.ofTree?,
    ← Tree.required? f "source" TrendSource.ofTree?,
    ← Tree.required? f "points" (Tree.list? TrendPoint.ofTree?)⟩

end Trends
end FleetHealth
