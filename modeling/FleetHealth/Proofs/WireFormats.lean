import FleetHealth.Proofs.Formats
import FleetHealth.Wire.Aggregate
import FleetHealth.Wire.Rule
import FleetHealth.Wire.Sample
import FleetHealth.Wire.Trend
/-!
The formats of samples, stations, aggregates, trends and rules. Where a part is optional there is a
case for each way it can be written: it may be left out, or null, or there.
-/
namespace FleetHealth

open Tree.Json (Legible)

section Leaves

variable (depth : Nat)

@[simp]
theorem Metric.ofTree?_toTree (m : Metric) : ofTree? m.toTree = some m :=
  congrArg some (ofName_name m)

@[simp]
theorem Metric.ofKeptTree?_toTree (m : Metric) : ofKeptTree? m.toTree = some m :=
  congrArg some (ofName_name m)

@[simp]
theorem Metric.legible (m : Metric) : Legible depth m.toTree := .text depth _

@[simp]
theorem Lifecycle.ofTree?_toTree (l : Lifecycle) : ofTree? l.toTree = some l :=
  congrArg some (ofName_name l)

@[simp]
theorem Lifecycle.legible (l : Lifecycle) : Legible depth l.toTree := .text depth _

@[simp]
theorem Health.ofTree?_toTree (h : Health) : ofTree? h.toTree = some h := ofName?_name h

@[simp]
theorem Health.legible (h : Health) : Legible depth h.toTree := .text depth _

@[simp]
theorem Band.ofTree?_toTree (b : Band) : ofTree? b.toTree = some b := by cases b <;> rfl

@[simp]
theorem Band.legible (b : Band) : Legible depth b.toTree := .text depth _

@[simp]
theorem Direction.ofKeptTree?_toTree (d : Direction) : ofKeptTree? d.toTree = some d := by
  cases d <;> rfl

@[simp]
theorem Direction.isReadable_toTree (d : Direction) : d.toTree.isReadable = true := rfl

@[simp]
theorem Direction.legible (d : Direction) : Legible depth d.toTree := .text depth _

@[simp]
theorem TrendSource.ofTree?_toTree (s : TrendSource) : ofTree? s.toTree = some s := by
  cases s <;> rfl

@[simp]
theorem TrendSource.legible (s : TrendSource) : Legible depth s.toTree := .text depth _

@[simp]
theorem Instant.ofTree?_toTree (t : Instant) : ofTree? t.toTree = some t := ofMillis?_millis t

@[simp]
theorem Instant.nullable?_toTree (t : Instant) :
    Tree.nullable? ofTree? t.toTree = some (some t) := by
  rw [Tree.nullable?_of_ne_null, ofTree?_toTree, Option.map_some]
  exact Tree.noConfusion

@[simp]
theorem Instant.legible (t : Instant) : Legible depth t.toTree :=
  .int depth ⟨Int.le_trans (by decide) t.inRange.1, Int.lt_of_le_of_lt t.inRange.2 (by decide)⟩

@[simp]
theorem Date.ofTree?_toTree (d : Date) : ofTree? d.toTree = some d := parse?_text d

@[simp]
theorem Date.legible (d : Date) : Legible depth d.toTree := .text depth _

end Leaves

namespace Sample

variable {s s' : Sample}

def places (s : Sample) : List Place := [.single "value" s.value]

theorem legible (printable : Numbers IsPrintable s.places) : Legible 1 s.toTree := by
  simp only [places, numbers_single] at printable
  exact Tree.LegibleMembers.record (by simp [printable])

theorem shows (s : Sample) : Shows s.toTree s.places := by
  simp [places, toTree, toTreeWith, List.lookup_cons]

theorem ofTree?_toTree :
    ofTree? s.toTree = some s' ↔ Numbers (·.isFinite = true) s.places ∧ s = s' := by
  obtain ⟨id, stationId, metric, value, timestamp, unit⟩ := s
  cases timestamp <;> cases unit <;>
    simp [places, toTree, toTreeWith, ofTree?, fieldNames, Option.bind_eq_some_iff,
      List.lookup_cons]

def format : Format Sample := ⟨toTree, ofTree?, places, fun _ => True⟩

theorem format_faithful : format.Faithful 1 where
  legible _ _ := legible
  shown := shows
  undone _ _ _ := ofTree?_toTree

end Sample

namespace Station

theorem legible (s : Station) : Legible 1 s.toTree := Tree.LegibleMembers.record (by simp)

theorem ofTree?_toTree (s : Station) : ofTree? s.toTree = some s := by
  simp [toTree, ofTree?, fieldNames, List.lookup_cons]

def format : Format Station := .plain toTree ofTree?

theorem format_faithful : format.Faithful 1 := .plain legible ofTree?_toTree

end Station

namespace AggregateKey

theorem legible (k : AggregateKey) : Legible 1 k.toTree := Tree.LegibleMembers.record (by simp)

theorem ofTree?_toTree (k : AggregateKey) : ofTree? k.toTree = some k := by
  obtain ⟨stationId, metric⟩ := k
  cases stationId <;> simp [toTree, ofTree?, fieldNames, List.lookup_cons]

def format : Format AggregateKey := .plain toTree ofTree?

theorem format_faithful : format.Faithful 1 := .plain legible ofTree?_toTree

end AggregateKey

namespace Aggregate

variable {a a' : Aggregate}

def places (a : Aggregate) : List Place :=
  [.single "sum" a.sum, .single "min" a.least, .single "max" a.greatest,
    .single "average" a.average, .single "current" a.current]

def Counted (a : Aggregate) : Prop := a.count < UInt64.size

theorem legibleMembers {depth : Nat} (counted : a.Counted)
    (printable : Numbers IsPrintable a.places) : Tree.LegibleMembers depth a.members := by
  simp only [places, numbers_single] at printable
  simp [members, printable, Tree.legible_ofNat counted]

theorem shows (a : Aggregate) : Shows a.toTree a.places := by
  obtain ⟨stationId, metric, sum, count, least, greatest, average, current, time⟩ := a
  cases stationId <;> simp [places, toTree, members, List.lookup_cons]

/- Read directly or from what was kept aside, the fields are the same. -/
theorem ofFields?_members {metric? : Tree → Option Metric} (counted : a.Counted)
    (metric_read : ∀ m : Metric, metric? m.toTree = some m) :
    (Tree.recordFields? fieldNames a.members).bind (ofFields? metric?) = some a' ↔
      Numbers (·.isFinite = true) a.places ∧ a = a' := by
  obtain ⟨stationId, metric, sum, count, least, greatest, average, current, time⟩ := a
  have count_read := Tree.count?_ofNat counted
  cases stationId <;> cases time <;>
    simp [places, members, ofFields?, fieldNames, Option.bind_eq_some_iff, List.lookup_cons,
      count_read, metric_read, and_assoc]

theorem ofTree?_toTree (counted : a.Counted) :
    ofTree? a.toTree = some a' ↔ Numbers (·.isFinite = true) a.places ∧ a = a' :=
  ofFields?_members counted Metric.ofTree?_toTree

def format : Format Aggregate := ⟨toTree, ofTree?, places, Counted⟩

theorem format_faithful : format.Faithful 1 where
  legible _ counted printable := (legibleMembers counted printable).record
  shown := shows
  undone _ _ := ofTree?_toTree

theorem name_ne_status (a : Aggregate) : ∀ e ∈ a.members, e.1 ≠ "status" := by
  obtain ⟨stationId, metric, sum, count, least, greatest, average, current, time⟩ := a
  cases stationId <;> simp [members]

theorem members_readable (a : Aggregate) : Tree.membersReadable a.members = true := by
  obtain ⟨stationId, metric, sum, count, least, greatest, average, current, time⟩ := a
  cases stationId <;> cases time <;>
    simp [members, Tree.membersReadable, Tree.isReadable, Metric.toTree, Instant.toTree, Tree.ofNat]

end Aggregate

namespace ClassifiedAggregate

variable {c c' : ClassifiedAggregate}

theorem status_alone (a : Aggregate) (t : Tree) :
    Tree.single? "status" (a.members ++ [("status", t)]) = some (some t) := by
  have none_before : a.members.filter (fun e => e.1 = "status") = [] :=
    List.filter_eq_nil_iff.mpr fun e member => by simpa using a.name_ne_status e member
  simp [Tree.single?, Tree.membersNamed, none_before]

theorem content_kept (a : Aggregate) (t : Tree) :
    (a.members ++ [("status", t)]).filter (fun e => e.1 ≠ "status") = a.members := by
  have all_kept : a.members.filter (fun e => e.1 ≠ "status") = a.members :=
    List.filter_eq_self.mpr fun e member => by simpa using a.name_ne_status e member
  rw [List.filter_append, all_kept]
  simp

theorem legible (counted : c.aggregate.Counted)
    (printable : Numbers IsPrintable c.aggregate.places) : Legible 1 c.toTree := by
  have members : Tree.LegibleMembers 0 c.aggregate.members :=
    Aggregate.legibleMembers counted printable
  exact Tree.LegibleMembers.record (by simp [members])

theorem shows (c : ClassifiedAggregate) : Shows c.toTree c.aggregate.places := by
  obtain ⟨⟨stationId, metric, sum, count, least, greatest, average, current, time⟩, status⟩ := c
  cases stationId <;> simp [Aggregate.places, toTree, Aggregate.members, List.lookup_cons]

theorem ofTree?_toTree (counted : c.aggregate.Counted) :
    ofTree? c.toTree = some c' ↔
      Numbers (·.isFinite = true) c.aggregate.places ∧ c = c' := by
  obtain ⟨a, status⟩ := c
  obtain ⟨a', status'⟩ := c'
  have fields := @Aggregate.ofFields?_members a a' _ counted Metric.ofKeptTree?_toTree
  simp only [Option.bind_eq_some_iff] at fields
  simp only [toTree, ofTree?, status_alone, content_kept, a.members_readable, Option.bind_eq_bind,
    Option.bind_some, Health.ofTree?_toTree, if_true, Option.bind_eq_some_iff]
  constructor
  · rintro ⟨f, found, b, read, same⟩
    cases same
    obtain ⟨finite, rfl⟩ := fields.mp ⟨f, found, read⟩
    exact ⟨finite, rfl⟩
  · rintro ⟨finite, same⟩
    cases same
    obtain ⟨f, found, read⟩ := fields.mpr ⟨finite, rfl⟩
    exact ⟨f, found, a, read, rfl⟩

def format : Format ClassifiedAggregate :=
  ⟨toTree, ofTree?, fun c => c.aggregate.places, fun c => c.aggregate.Counted⟩

theorem format_faithful : format.Faithful 1 where
  legible _ := legible
  shown := shows
  undone _ _ := ofTree?_toTree

end ClassifiedAggregate

namespace TrendPoint

variable {p p' : TrendPoint}

def places (p : TrendPoint) : List Place := [.single "average" p.average]

theorem legible (printable : Numbers IsPrintable p.places) : Legible 1 p.toTree := by
  simp only [places, numbers_single] at printable
  exact Tree.LegibleMembers.record (by simp [printable])

theorem shows (p : TrendPoint) : Shows p.toTree p.places := by
  simp [places, toTree, toTreeWith, List.lookup_cons]

theorem ofTree?_toTree :
    ofTree? p.toTree = some p' ↔ Numbers (·.isFinite = true) p.places ∧ p = p' := by
  simp [places, toTree, toTreeWith, ofTree?, fieldNames, Option.bind_eq_some_iff, List.lookup_cons]

def format : Format TrendPoint := ⟨toTree, ofTree?, places, fun _ => True⟩

theorem format_faithful : format.Faithful 1 where
  legible _ _ := legible
  shown := shows
  undone _ _ _ := ofTree?_toTree

end TrendPoint

namespace Table

variable {κ α : Type} {keys : List κ}

theorem foldl_set_entries [DecidableEq κ] (keys : List κ) (t s : Table κ α) :
    (t.entries keys).foldl (fun s e => s.set e.1 e.2) s =
      fun k => if k ∈ keys then (t k).or (s k) else s k := by
  induction keys generalizing s with
  | nil => rfl
  | cons k keys ih =>
    funext j
    cases held : t k with
    | none =>
      have same : t.entries (k :: keys) = t.entries keys := by simp [entries, held]
      rw [same, ih]
      by_cases here : j = k <;> simp [here, held]
    | some a =>
      have more : t.entries (k :: keys) = (k, a) :: t.entries keys := by simp [entries, held]
      rw [more, List.foldl_cons, ih]
      by_cases here : j = k <;> simp [here, held, set]

/-- A table is made of its entries. -/
theorem ofList_entries [DecidableEq κ] (complete : ∀ k, k ∈ keys) (t : Table κ α) :
    ofList (t.entries keys) = t := by
  rw [ofList, foldl_set_entries]
  funext k
  simp [complete k, empty]

theorem map_fst_entries (keys : List κ) (t : Table κ α) :
    (t.entries keys).map Prod.fst = keys.filter (fun k => (t k).isSome) := by
  induction keys with
  | nil => rfl
  | cons k keys ih =>
    unfold entries at ih ⊢
    cases held : t k <;> simp [held, ih]

end Table

namespace DayAverages

variable {d d' : DayAverages}

/-- The averages of a day by metric. -/
def rows (d : DayAverages) : List (Metric × Float) := d.averages.entries Metric.all

def places (d : DayAverages) : List Place :=
  Place.ofMember "averages" (d.rows.map (fun e => .single e.1.name e.2))

theorem rows_distinct (d : DayAverages) : (d.rows.map (fun e => e.1.name)).Nodup := by
  have names : d.rows.map (fun e => e.1.name) =
      (Metric.all.filter (fun m => (d.averages m).isSome)).map Metric.name := by
    rw [← Table.map_fst_entries, List.map_map]
    rfl
  rw [names]
  exact (List.filter_sublist.map Metric.name).nodup (by decide)

/-- The averages as a document shows them. -/
def averagesTree (d : DayAverages) : Tree :=
  .record (d.rows.map (fun e => (e.1.name, Tree.ofFloat e.2)))

theorem toTree_eq (d : DayAverages) :
    d.toTree = .record [("date", d.date.toTree), ("averages", d.averagesTree)] := rfl

theorem numbers_rows {P : Float → Prop} :
    Numbers P (d.rows.map (fun e => Place.single e.1.name e.2)) ↔ ∀ e ∈ d.rows, P e.2 := by
  rw [Numbers, List.forall_mem_map]
  rfl

theorem averagesTree_legible {depth : Nat} (printable : ∀ e ∈ d.rows, IsPrintable e.2) :
    Legible (depth + 1) d.averagesTree := by
  refine Tree.LegibleMembers.record ?_
  intro member inside
  obtain ⟨e, row, rfl⟩ := List.mem_map.mp inside
  exact Tree.legible_ofFloat (printable e row)

theorem legible (printable : Numbers IsPrintable d.places) : Legible 2 d.toTree := by
  simp only [places, numbers_ofMember, numbers_rows] at printable
  rw [toTree_eq]
  exact Tree.LegibleMembers.record (by simp [averagesTree_legible printable])

theorem averagesTree_shows (d : DayAverages) :
    Shows d.averagesTree (d.rows.map (fun e => Place.single e.1.name e.2)) := by
  have distinct : ((d.rows.map (fun e => (e.1.name, Tree.ofFloat e.2))).map Prod.fst).Nodup := by
    rw [List.map_map]
    exact d.rows_distinct
  intro p inside
  obtain ⟨e, row, rfl⟩ := List.mem_map.mp inside
  have found := Tree.lookup_of_mem distinct (List.mem_map.mpr ⟨e, row, rfl⟩)
  simp [averagesTree, Place.single, Tree.at?, Tree.step?, found]

theorem shows (d : DayAverages) : Shows d.toTree d.places := by
  rw [toTree_eq]
  exact shows_ofMember (by simp [List.lookup_cons, averagesTree_shows])

/- A name belongs to one metric, so no average takes another's place. -/
theorem valuesOfTree?_averagesTree {averages : Table Metric Float} :
    Metric.valuesOfTree? d.averagesTree = some averages ↔
      (∀ e ∈ d.rows, e.2.isFinite = true) ∧ d.averages = averages := by
  have whole : Table.ofList d.rows = d.averages := Table.ofList_entries Metric.mem_all d.averages
  have rows : ∀ es, (d.rows.map (fun e => (e.1.name, Tree.ofFloat e.2))).mapM
        (fun e => do return (← some (Metric.ofName e.1), ← Tree.float? e.2)) = some es ↔
      (∀ e ∈ d.rows, e.2.isFinite = true) ∧ d.rows = es := by
    refine fun es => Tree.mapM_written fun e _ e' => ?_
    simp [Option.bind_eq_some_iff, Metric.ofName_name]
  rw [averagesTree, Metric.valuesOfTree?, Tree.table?, Option.map_eq_some_iff]
  constructor
  · rintro ⟨es, read, rfl⟩
    obtain ⟨finite, rfl⟩ := (rows es).mp read
    exact ⟨finite, whole.symm⟩
  · rintro ⟨finite, rfl⟩
    exact ⟨d.rows, (rows d.rows).mpr ⟨finite, rfl⟩, whole⟩

theorem ofTree?_toTree :
    ofTree? d.toTree = some d' ↔ Numbers (·.isFinite = true) d.places ∧ d = d' := by
  obtain ⟨date, averages⟩ := d
  simp [places, numbers_rows, toTree_eq, ofTree?, fieldNames, Option.bind_eq_some_iff,
    List.lookup_cons, and_assoc, valuesOfTree?_averagesTree]

def format : Format DayAverages := ⟨toTree, ofTree?, places, fun _ => True⟩

theorem format_faithful : format.Faithful 2 where
  legible _ _ := legible
  shown := shows
  undone _ _ _ := ofTree?_toTree

end DayAverages

namespace Trends

variable {t t' : Trends}

def places (t : Trends) : List Place :=
  Place.ofMember "points" (Place.ofItems TrendPoint.places t.points)

theorem legible (printable : Numbers IsPrintable t.places) : Legible 3 t.toTree := by
  simp only [places, numbers_ofMember, numbers_ofItems] at printable
  have points : Legible 2 (.list (t.points.map TrendPoint.toTree)) :=
    TrendPoint.format_faithful.legible_list (fun _ _ => trivial) printable
  exact Tree.LegibleMembers.record (by simp [points])

theorem shows (t : Trends) : Shows t.toTree t.places := by
  simp [places, toTree, List.lookup_cons, shows_ofItems, TrendPoint.shows]

theorem ofTree?_toTree :
    ofTree? t.toTree = some t' ↔ Numbers (·.isFinite = true) t.places ∧ t = t' := by
  have points : ∀ ps, (Tree.list (t.points.map TrendPoint.toTree)).list? TrendPoint.ofTree? =
      some ps ↔ (∀ p ∈ t.points, Numbers (·.isFinite = true) p.places) ∧ t.points = ps :=
    fun _ => TrendPoint.format_faithful.list?_map fun _ _ => trivial
  simp [places, toTree, ofTree?, fieldNames, Option.bind_eq_some_iff, List.lookup_cons, and_assoc,
    points]

def format : Format Trends := ⟨toTree, ofTree?, places, fun _ => True⟩

theorem format_faithful : format.Faithful 3 where
  legible _ _ := legible
  shown := shows
  undone _ _ _ := ofTree?_toTree

end Trends

namespace Rule

variable {r r' : Rule}

def places : Rule → List Place
  | banded _ good warn => [.single "good" good, .single "warn" warn]
  | capacityRatio nominalMax good warn =>
    [.single "nominal_max" nominalMax, .single "good" good, .single "warn" warn]
  | populationRatio good warn => [.single "good" good, .single "warn" warn]

theorem legible (printable : Numbers IsPrintable r.places) : Legible 1 r.toTree := by
  cases r <;> simp only [places, numbers_single] at printable <;>
    exact Tree.LegibleMembers.record (by simp [printable])

theorem shows (r : Rule) : Shows r.toTree r.places := by
  cases r <;> simp [places, toTree, List.lookup_cons]

theorem ofTree?_toTree :
    ofTree? r.toTree = some r' ↔ Numbers (·.isFinite = true) r.places ∧ r = r' := by
  cases r <;>
    simp [places, toTree, ofTree?, ofShape?, Tree.membersReadable, Option.bind_eq_some_iff,
      List.lookup_cons, and_assoc]

def format : Format Rule := ⟨toTree, ofTree?, places, fun _ => True⟩

theorem format_faithful : format.Faithful 1 where
  legible _ _ := legible
  shown := shows
  undone _ _ _ := ofTree?_toTree

end Rule

end FleetHealth
