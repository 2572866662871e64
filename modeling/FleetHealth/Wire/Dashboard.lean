import FleetHealth.Wire.Aggregate
/-!
Station views, summaries and dashboards as documents show them.
-/
namespace FleetHealth

namespace Field

def fieldNames : List String := ["metricType", "current", "average", "defaulted", "status"]

def toTree (f : Field) : Tree :=
  .record [("metricType", f.metric.toTree), ("current", .ofFloat f.current),
    ("average", .ofFloat f.average), ("defaulted", .bool f.defaulted), ("status", f.status.toTree)]

def ofTree? (t : Tree) : Option Field := do
  let f ← t.fields? fieldNames
  return ⟨← Tree.required? f "metricType" Metric.ofTree?, ← Tree.required? f "current" Tree.float?,
    ← Tree.required? f "average" Tree.float?, ← Tree.required? f "defaulted" Tree.bool?,
    ← Tree.required? f "status" Health.ofTree?⟩

end Field

namespace BandRecord

def fieldNames : List String :=
  ["band", "downlink", "uplink", "signalPower", "signalQuality", "status"]

def toTree (r : BandRecord) : Tree :=
  .record ([("band", r.band.toTree), ("downlink", r.downlink.toTree),
      ("uplink", r.uplink.toTree)] ++
    Tree.optionalMember "signalPower" (r.signalPower.map Field.toTree) ++
    Tree.optionalMember "signalQuality" (r.signalQuality.map Field.toTree) ++
    [("status", r.status.toTree)])

def ofTree? (t : Tree) : Option BandRecord := do
  let f ← t.fields? fieldNames
  return ⟨← Tree.required? f "band" Band.ofTree?, ← Tree.required? f "downlink" Field.ofTree?,
    ← Tree.required? f "uplink" Field.ofTree?, ← Tree.optional? f "signalPower" Field.ofTree?,
    ← Tree.optional? f "signalQuality" Field.ofTree?, ← Tree.required? f "status" Health.ofTree?⟩

end BandRecord

namespace StationView

def fieldNames : List String :=
  ["id", "name", "location", "lifecycle", "bands", "latency", "txImbalance", "status"]

def toTree (v : StationView) : Tree :=
  .record [("id", .text v.id), ("name", .text v.name), ("location", .text v.location),
    ("lifecycle", v.lifecycle.toTree), ("bands", .list (v.bands.map BandRecord.toTree)),
    ("latency", v.latency.toTree), ("txImbalance", v.txImbalance.toTree),
    ("status", v.status.toTree)]

def ofTree? (t : Tree) : Option StationView := do
  let f ← t.fields? fieldNames
  return ⟨← Tree.required? f "id" Tree.text?, ← Tree.required? f "name" Tree.text?,
    ← Tree.required? f "location" Tree.text?, ← Tree.required? f "lifecycle" Lifecycle.ofTree?,
    ← Tree.required? f "bands" (Tree.list? BandRecord.ofTree?),
    ← Tree.required? f "latency" Field.ofTree?, ← Tree.required? f "txImbalance" Field.ofTree?,
    ← Tree.required? f "status" Health.ofTree?⟩

end StationView

def uint32Tree (n : UInt32) : Tree := .ofNat n.toNat

namespace BandSummary

def fieldNames : List String :=
  ["band", "activeStations", "healthyStations", "avgDownlink", "avgUplink", "status"]

/-- The document of a summary whose averages are written as the given trees. -/
def toTreeWith (downlink uplink : Tree) (s : BandSummary) : Tree :=
  .record [("band", s.band.toTree), ("activeStations", uint32Tree s.activeStations),
    ("healthyStations", uint32Tree s.healthyStations), ("avgDownlink", downlink),
    ("avgUplink", uplink), ("status", s.status.toTree)]

def toTree (s : BandSummary) : Tree :=
  s.toTreeWith (.ofFloat s.averageDownlink) (.ofFloat s.averageUplink)

def ofTree? (t : Tree) : Option BandSummary := do
  let f ← t.fields? fieldNames
  return ⟨← Tree.required? f "band" Band.ofTree?,
    ← Tree.required? f "activeStations" Tree.uint32?,
    ← Tree.required? f "healthyStations" Tree.uint32?,
    ← Tree.required? f "avgDownlink" Tree.float?, ← Tree.required? f "avgUplink" Tree.float?,
    ← Tree.required? f "status" Health.ofTree?⟩

end BandSummary

namespace FleetSummary

def fieldNames : List String :=
  ["total", "active", "offline", "maintenance", "healthyActive", "worstStationStatus", "status"]

def toTree (s : FleetSummary) : Tree :=
  .record [("total", uint32Tree s.total), ("active", uint32Tree s.active),
    ("offline", uint32Tree s.offline), ("maintenance", uint32Tree s.maintenance),
    ("healthyActive", uint32Tree s.healthyActive),
    ("worstStationStatus", s.worstStation.toTree), ("status", s.status.toTree)]

def ofTree? (t : Tree) : Option FleetSummary := do
  let f ← t.fields? fieldNames
  return ⟨← Tree.required? f "total" Tree.uint32?, ← Tree.required? f "active" Tree.uint32?,
    ← Tree.required? f "offline" Tree.uint32?, ← Tree.required? f "maintenance" Tree.uint32?,
    ← Tree.required? f "healthyActive" Tree.uint32?,
    ← Tree.required? f "worstStationStatus" Health.ofTree?,
    ← Tree.required? f "status" Health.ofTree?⟩

end FleetSummary

namespace CategoryView

def fieldNames : List String := ["name", "status", "metrics"]

def toTree (v : CategoryView) : Tree :=
  .record [("name", .text v.name), ("status", v.status.toTree),
    ("metrics", .list (v.metrics.map ClassifiedAggregate.toTree))]

def ofTree? (t : Tree) : Option CategoryView := do
  let f ← t.fields? fieldNames
  return ⟨← Tree.required? f "name" Tree.text?, ← Tree.required? f "status" Health.ofTree?,
    ← Tree.required? f "metrics" (Tree.list? ClassifiedAggregate.ofTree?)⟩

end CategoryView

namespace Dashboard

def fieldNames : List String :=
  ["generatedAt", "sampleCount", "overall", "categories", "stations", "bands", "fleet"]

/-- All members but the time of generation. -/
def contentMembers (d : Dashboard) : List (String × Tree) :=
  [("sampleCount", .ofNat d.sampleCount), ("overall", d.overall.toTree),
    ("categories", .list (d.categories.map CategoryView.toTree)),
    ("stations", .list (d.stations.map StationView.toTree)),
    ("bands", .list (d.bands.map BandSummary.toTree)), ("fleet", d.fleet.toTree)]

def toTree (d : Dashboard) : Tree :=
  .record (("generatedAt", d.generatedAt.toTree) :: d.contentMembers)

def ofTree? (t : Tree) : Option Dashboard := do
  let f ← t.fields? fieldNames
  return ⟨← Tree.required? f "generatedAt" Instant.ofTree?,
    ← Tree.required? f "sampleCount" (Tree.count? 64),
    ← Tree.required? f "overall" Health.ofTree?,
    ← Tree.required? f "categories" (Tree.list? CategoryView.ofTree?),
    ← Tree.required? f "stations" (Tree.list? StationView.ofTree?),
    ← Tree.required? f "bands" (Tree.list? BandSummary.ofTree?),
    ← Tree.required? f "fleet" FleetSummary.ofTree?⟩

end Dashboard
end FleetHealth
