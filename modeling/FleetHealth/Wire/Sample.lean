import FleetHealth.Sample
import FleetHealth.Station
import FleetHealth.Tree.Shape
/-!
Stations and samples as documents show them.
-/
namespace FleetHealth

namespace Metric

def toTree (m : Metric) : Tree := .text m.name

def ofTree? (t : Tree) : Option Metric := t.caseName?.map ofName

def ofKeptTree? (t : Tree) : Option Metric := t.keptCaseName?.map ofName

def valuesOfTree? : Tree → Option (Table Metric Float) :=
  Tree.table? (fun s => some (ofName s)) Tree.float?

end Metric

namespace Lifecycle

def toTree (l : Lifecycle) : Tree := .text l.name

def ofTree? (t : Tree) : Option Lifecycle := t.caseName?.map ofName

end Lifecycle

namespace Instant

def toTree (t : Instant) : Tree := .int t.millis

def ofTree? : Tree → Option Instant
  | .int n => ofMillis? n
  | _ => none

end Instant

namespace Date

def toTree (d : Date) : Tree := .text d.text

def ofTree? : Tree → Option Date
  | .text s => parse? s
  | _ => none

end Date

namespace Station

def fieldNames : List String := ["id", "name", "location", "lifecycle"]

def toTree (s : Station) : Tree :=
  .record [("id", .text s.id), ("name", .text s.name), ("location", .text s.location),
    ("lifecycle", s.lifecycle.toTree)]

def ofTree? (t : Tree) : Option Station := do
  let f ← t.fields? fieldNames
  return ⟨← Tree.required? f "id" Tree.text?, ← Tree.required? f "name" Tree.text?,
    ← Tree.required? f "location" Tree.text?, ← Tree.required? f "lifecycle" Lifecycle.ofTree?⟩

end Station

namespace Sample

def fieldNames : List String := ["id", "stationId", "metricType", "value", "timestamp", "unit"]

/-- The document of a sample whose value is written as the given tree. -/
def toTreeWith (value : Tree) (s : Sample) : Tree :=
  .record ([("id", .int s.id.toInt), ("stationId", .text s.stationId),
    ("metricType", s.metric.toTree), ("value", value),
    ("timestamp", .ofOption (s.timestamp.map Instant.toTree))] ++
    Tree.optionalMember "unit" (s.unit.map .text))

def toTree (s : Sample) : Tree := s.toTreeWith (.ofFloat s.value)

def ofTree? (t : Tree) : Option Sample := do
  let f ← t.fields? fieldNames
  return ⟨← Tree.required? f "id" Tree.int64?, ← Tree.required? f "stationId" Tree.text?,
    ← Tree.required? f "metricType" Metric.ofTree?, ← Tree.required? f "value" Tree.float?,
    ← Tree.optional? f "timestamp" Instant.ofTree?, ← Tree.optional? f "unit" Tree.text?⟩

end Sample
end FleetHealth
