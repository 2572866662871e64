import FleetHealth.Dashboard
import FleetHealth.Wire.Rule
import FleetHealth.Wire.Sample
/-!
Aggregates as documents show them. A classified aggregate is the record of its aggregate with one
more member, and what is not that member is kept aside until all members are seen.
-/
namespace FleetHealth

namespace AggregateKey

def fieldNames : List String := ["stationId", "metricType"]

def toTree (k : AggregateKey) : Tree :=
  .record [("stationId", .ofOption (k.stationId.map .text)), ("metricType", k.metric.toTree)]

def ofTree? (t : Tree) : Option AggregateKey := do
  let f ← t.fields? fieldNames
  return ⟨← Tree.optional? f "stationId" Tree.text?, ← Tree.required? f "metricType" Metric.ofTree?⟩

end AggregateKey

namespace Aggregate

def fieldNames : List String :=
  ["stationId", "metricType", "sum", "count", "min", "max", "average", "current",
    "currentTimestamp"]

def members (a : Aggregate) : List (String × Tree) :=
  Tree.optionalMember "stationId" (a.stationId.map .text) ++
    [("metricType", a.metric.toTree), ("sum", .ofFloat a.sum), ("count", .ofNat a.count),
      ("min", .ofFloat a.least), ("max", .ofFloat a.greatest), ("average", .ofFloat a.average),
      ("current", .ofFloat a.current),
      ("currentTimestamp", .ofOption (a.currentTimestamp.map Instant.toTree))]

def toTree (a : Aggregate) : Tree := .record a.members

def ofFields? (metric? : Tree → Option Metric) (f : Table String Tree) : Option Aggregate := do
  return ⟨← Tree.optional? f "stationId" Tree.text?, ← Tree.required? f "metricType" metric?,
    ← Tree.required? f "sum" Tree.float?, ← Tree.required? f "count" (Tree.count? 64),
    ← Tree.required? f "min" Tree.float?, ← Tree.required? f "max" Tree.float?,
    ← Tree.required? f "average" Tree.float?, ← Tree.required? f "current" Tree.float?,
    ← Tree.optional? f "currentTimestamp" Instant.ofTree?⟩

def ofTree? (t : Tree) : Option Aggregate :=
  (t.fields? fieldNames).bind (ofFields? Metric.ofTree?)

end Aggregate

namespace ClassifiedAggregate

def toTree (c : ClassifiedAggregate) : Tree :=
  .record (c.aggregate.members ++ [("status", c.status.toTree)])

def ofTree? : Tree → Option ClassifiedAggregate
  | .record members => do
    let status ← Tree.single? "status" members
    let status ← status.bind Health.ofTree?
    let content := members.filter (fun e => e.1 ≠ "status")
    if Tree.membersReadable content then
      let f ← Tree.recordFields? Aggregate.fieldNames content
      return ⟨← Aggregate.ofFields? Metric.ofKeptTree? f, status⟩
    else none
  | _ => none

end ClassifiedAggregate
end FleetHealth
