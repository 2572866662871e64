import FleetHealth.Tree.Shape
/-!
Tiers, bands, populations and threshold rules as documents show them. The shape of a rule tells
its case, so its members are kept aside until the shape is known.
-/
namespace FleetHealth

namespace Health

def toTree (h : Health) : Tree := .text h.name

def ofTree? (t : Tree) : Option Health := t.caseName?.bind ofName?

end Health

namespace Band

def toTree (b : Band) : Tree := .text b.name

def ofTree? (t : Tree) : Option Band := t.caseName?.bind ofName?

end Band

namespace Population

def toTree (p : Population) : Tree := .text p.name

def ofTree? (t : Tree) : Option Population := t.caseName?.bind ofName?

end Population

namespace Direction

def toTree (d : Direction) : Tree := .text d.name

def ofTree? (t : Tree) : Option Direction := t.caseName?.bind ofName?

def ofKeptTree? (t : Tree) : Option Direction := t.keptCaseName?.bind ofName?

end Direction

namespace Rule

def toTree : Rule → Tree
  | banded direction good warn =>
    .record [("shape", .text "banded"), ("direction", direction.toTree), ("good", .ofFloat good),
      ("warn", .ofFloat warn)]
  | capacityRatio nominalMax good warn =>
    .record [("shape", .text "capacity_ratio"), ("nominal_max", .ofFloat nominalMax),
      ("good", .ofFloat good), ("warn", .ofFloat warn)]
  | populationRatio good warn =>
    .record [("shape", .text "population_ratio"), ("good", .ofFloat good), ("warn", .ofFloat warn)]

/-- The case of that shape from what else the rule holds. -/
def ofShape? (shape : String) (content : Tree) : Option Rule :=
  if shape = "banded" then do
    let f ← content.fields? ["direction", "good", "warn"]
    return banded (← Tree.required? f "direction" Direction.ofKeptTree?)
      (← Tree.required? f "good" Tree.float?) (← Tree.required? f "warn" Tree.float?)
  else if shape = "capacity_ratio" then do
    let f ← content.fields? ["nominal_max", "good", "warn"]
    return capacityRatio (← Tree.required? f "nominal_max" Tree.float?)
      (← Tree.required? f "good" Tree.float?) (← Tree.required? f "warn" Tree.float?)
  else if shape = "population_ratio" then do
    let f ← content.fields? ["good", "warn"]
    return populationRatio (← Tree.required? f "good" Tree.float?)
      (← Tree.required? f "warn" Tree.float?)
  else none

/- In a list the shape comes first. -/
def ofTree? : Tree → Option Rule
  | .record members =>
    match Tree.single? "shape" members with
    | some (some (.text shape)) =>
      let content := members.filter (fun e => e.1 ≠ "shape")
      if Tree.membersReadable content then ofShape? shape (.record content) else none
    | _ => none
  | .list (.text shape :: rest) =>
    if Tree.allReadable rest then ofShape? shape (.list rest) else none
  | _ => none

end Rule
end FleetHealth
