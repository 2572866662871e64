import FleetHealth.Proofs.WireFormats
import FleetHealth.Wire.Dashboard
/-!
The formats of station views, summaries and dashboards. Each is put together from the formats of
its parts.
-/
namespace FleetHealth

open Tree.Json (Legible)

namespace Field

variable {f f' : Field}

def places (f : Field) : List Place := [.single "current" f.current, .single "average" f.average]

theorem legible (printable : Numbers IsPrintable f.places) : Legible 1 f.toTree := by
  simp only [places, numbers_single] at printable
  exact Tree.LegibleMembers.record (by simp [printable])

theorem shows (f : Field) : Shows f.toTree f.places := by
  simp [places, toTree, List.lookup_cons]

@[simp]
theorem ofTree?_toTree :
    ofTree? f.toTree = some f' ↔ Numbers (·.isFinite = true) f.places ∧ f = f' := by
  simp [places, toTree, ofTree?, fieldNames, Option.bind_eq_some_iff, List.lookup_cons, and_assoc]

@[simp]
theorem nullable?_toTree {o : Option Field} :
    Tree.nullable? ofTree? f.toTree = some o ↔
      Numbers (·.isFinite = true) f.places ∧ some f = o := by
  rw [Tree.nullable?_of_ne_null, Option.map_eq_some_iff]
  · simp [and_assoc]
  · exact Tree.noConfusion

def format : Format Field := ⟨toTree, ofTree?, places, fun _ => True⟩

theorem format_faithful : format.Faithful 1 where
  legible _ _ := legible
  shown := shows
  undone _ _ _ := ofTree?_toTree

end Field

namespace BandRecord

variable {r r' : BandRecord}

def places (r : BandRecord) : List Place :=
  Place.ofMember "downlink" r.downlink.places ++ Place.ofMember "uplink" r.uplink.places ++
    r.signalPower.toList.flatMap (fun f => Place.ofMember "signalPower" f.places) ++
    r.signalQuality.toList.flatMap (fun f => Place.ofMember "signalQuality" f.places)

theorem legible (printable : Numbers IsPrintable r.places) : Legible 2 r.toTree := by
  simp only [places, numbers_append, numbers_ofMember, numbers_flatMap_toList] at printable
  obtain ⟨⟨⟨downlink, uplink⟩, power⟩, quality⟩ := printable
  refine Tree.LegibleMembers.record ?_
  simp only [Tree.legibleMembers_append, Tree.legibleMembers_cons, Tree.legibleMembers_nil,
    Tree.legibleMembers_optionalMember, Band.legible, Health.legible, Field.legible downlink,
    Field.legible uplink, true_and, and_true]
  exact ⟨fun f present => Field.legible (power f present),
    fun f present => Field.legible (quality f present)⟩

theorem shows (r : BandRecord) : Shows r.toTree r.places := by
  obtain ⟨band, downlink, uplink, power, quality, status⟩ := r
  cases power <;> cases quality <;>
    simp [places, toTree, List.lookup_cons, Field.shows]

theorem ofTree?_toTree :
    ofTree? r.toTree = some r' ↔ Numbers (·.isFinite = true) r.places ∧ r = r' := by
  obtain ⟨band, downlink, uplink, power, quality, status⟩ := r
  cases power <;> cases quality <;>
    simp [places, toTree, ofTree?, fieldNames, Option.bind_eq_some_iff, List.lookup_cons, and_assoc]

def format : Format BandRecord := ⟨toTree, ofTree?, places, fun _ => True⟩

theorem format_faithful : format.Faithful 2 where
  legible _ _ := legible
  shown := shows
  undone _ _ _ := ofTree?_toTree

end BandRecord

namespace StationView

variable {v v' : StationView}

def places (v : StationView) : List Place :=
  Place.ofMember "bands" (Place.ofItems BandRecord.places v.bands) ++
    Place.ofMember "latency" v.latency.places ++ Place.ofMember "txImbalance" v.txImbalance.places

theorem legible (printable : Numbers IsPrintable v.places) : Legible 4 v.toTree := by
  simp only [places, numbers_append, numbers_ofMember, numbers_ofItems] at printable
  obtain ⟨⟨bands, latency⟩, txImbalance⟩ := printable
  have bands_legible : Legible 3 (.list (v.bands.map BandRecord.toTree)) :=
    BandRecord.format_faithful.legible_list (fun _ _ => trivial) bands
  exact Tree.LegibleMembers.record (by
    simp [bands_legible, (Field.legible latency).mono, (Field.legible txImbalance).mono])

theorem shows (v : StationView) : Shows v.toTree v.places := by
  simp [places, toTree, List.lookup_cons, Field.shows, shows_ofItems, BandRecord.shows]

theorem ofTree?_toTree :
    ofTree? v.toTree = some v' ↔ Numbers (·.isFinite = true) v.places ∧ v = v' := by
  have bands : ∀ rs, (Tree.list (v.bands.map BandRecord.toTree)).list? BandRecord.ofTree? =
      some rs ↔ (∀ r ∈ v.bands, Numbers (·.isFinite = true) r.places) ∧ v.bands = rs :=
    fun _ => BandRecord.format_faithful.list?_map fun _ _ => trivial
  simp [places, toTree, ofTree?, fieldNames, Option.bind_eq_some_iff, List.lookup_cons, and_assoc,
    bands]

def format : Format StationView := ⟨toTree, ofTree?, places, fun _ => True⟩

theorem format_faithful : format.Faithful 4 where
  legible _ _ := legible
  shown := shows
  undone _ _ _ := ofTree?_toTree

end StationView

namespace BandSummary

variable {s s' : BandSummary}

def places (s : BandSummary) : List Place :=
  [.single "avgDownlink" s.averageDownlink, .single "avgUplink" s.averageUplink]

theorem legible (printable : Numbers IsPrintable s.places) : Legible 1 s.toTree := by
  simp only [places, numbers_single] at printable
  exact Tree.LegibleMembers.record (by simp [printable, uint32Tree])

theorem shows (s : BandSummary) : Shows s.toTree s.places := by
  simp [places, toTree, toTreeWith, List.lookup_cons]

theorem ofTree?_toTree :
    ofTree? s.toTree = some s' ↔ Numbers (·.isFinite = true) s.places ∧ s = s' := by
  simp [places, toTree, toTreeWith, ofTree?, fieldNames, uint32Tree, Option.bind_eq_some_iff,
    List.lookup_cons, and_assoc]

def format : Format BandSummary := ⟨toTree, ofTree?, places, fun _ => True⟩

theorem format_faithful : format.Faithful 1 where
  legible _ _ := legible
  shown := shows
  undone _ _ _ := ofTree?_toTree

end BandSummary

namespace FleetSummary

theorem legible (s : FleetSummary) : Legible 1 s.toTree :=
  Tree.LegibleMembers.record (by simp [uint32Tree])

@[simp]
theorem ofTree?_toTree (s : FleetSummary) : ofTree? s.toTree = some s := by
  simp [toTree, ofTree?, fieldNames, uint32Tree, List.lookup_cons]

def format : Format FleetSummary := .plain toTree ofTree?

theorem format_faithful : format.Faithful 1 := .plain legible ofTree?_toTree

end FleetSummary

namespace CategoryView

variable {v v' : CategoryView}

def places (v : CategoryView) : List Place :=
  Place.ofMember "metrics" (Place.ofItems (fun c => c.aggregate.places) v.metrics)

def Counted (v : CategoryView) : Prop := ∀ c ∈ v.metrics, c.aggregate.Counted

theorem legible (counted : v.Counted) (printable : Numbers IsPrintable v.places) :
    Legible 3 v.toTree := by
  simp only [places, numbers_ofMember, numbers_ofItems] at printable
  have metrics : Legible 2 (.list (v.metrics.map ClassifiedAggregate.toTree)) :=
    ClassifiedAggregate.format_faithful.legible_list counted printable
  exact Tree.LegibleMembers.record (by simp [metrics])

theorem shows (v : CategoryView) : Shows v.toTree v.places := by
  simp [places, toTree, List.lookup_cons, shows_ofItems, ClassifiedAggregate.shows]

theorem ofTree?_toTree (counted : v.Counted) :
    ofTree? v.toTree = some v' ↔ Numbers (·.isFinite = true) v.places ∧ v = v' := by
  have metrics : ∀ cs,
      (Tree.list (v.metrics.map ClassifiedAggregate.toTree)).list? ClassifiedAggregate.ofTree? =
        some cs ↔ (∀ c ∈ v.metrics, Numbers (·.isFinite = true) c.aggregate.places) ∧
          v.metrics = cs :=
    fun _ => ClassifiedAggregate.format_faithful.list?_map counted
  simp [places, toTree, ofTree?, fieldNames, Option.bind_eq_some_iff, List.lookup_cons, and_assoc,
    metrics]

def format : Format CategoryView := ⟨toTree, ofTree?, places, Counted⟩

theorem format_faithful : format.Faithful 3 where
  legible _ := legible
  shown := shows
  undone _ _ := ofTree?_toTree

end CategoryView

namespace Dashboard

variable {d d' : Dashboard}

def places (d : Dashboard) : List Place :=
  Place.ofMember "categories" (Place.ofItems CategoryView.places d.categories) ++
    Place.ofMember "stations" (Place.ofItems StationView.places d.stations) ++
    Place.ofMember "bands" (Place.ofItems BandSummary.places d.bands)

def Counted (d : Dashboard) : Prop :=
  d.sampleCount < UInt64.size ∧ ∀ v ∈ d.categories, v.Counted

theorem legible (counted : d.Counted) (printable : Numbers IsPrintable d.places) :
    Legible 6 d.toTree := by
  simp only [places, numbers_append, numbers_ofMember, numbers_ofItems] at printable
  obtain ⟨⟨categories, stations⟩, bands⟩ := printable
  have categories_legible : Legible 4 (.list (d.categories.map CategoryView.toTree)) :=
    CategoryView.format_faithful.legible_list counted.2 categories
  have stations_legible : Legible 5 (.list (d.stations.map StationView.toTree)) :=
    StationView.format_faithful.legible_list (fun _ _ => trivial) stations
  have bands_legible : Legible 2 (.list (d.bands.map BandSummary.toTree)) :=
    BandSummary.format_faithful.legible_list (fun _ _ => trivial) bands
  exact Tree.LegibleMembers.record (by
    simp [contentMembers, Tree.legible_ofNat counted.1, categories_legible.mono, stations_legible,
      bands_legible.mono, d.fleet.legible.mono])

theorem shows (d : Dashboard) : Shows d.toTree d.places := by
  simp [places, toTree, contentMembers, List.lookup_cons, shows_ofItems, CategoryView.shows,
    StationView.shows, BandSummary.shows]

theorem ofTree?_toTree (counted : d.Counted) :
    ofTree? d.toTree = some d' ↔ Numbers (·.isFinite = true) d.places ∧ d = d' := by
  have categories : ∀ vs,
      (Tree.list (d.categories.map CategoryView.toTree)).list? CategoryView.ofTree? = some vs ↔
        (∀ v ∈ d.categories, Numbers (·.isFinite = true) v.places) ∧ d.categories = vs :=
    fun _ => CategoryView.format_faithful.list?_map counted.2
  have stations : ∀ vs,
      (Tree.list (d.stations.map StationView.toTree)).list? StationView.ofTree? = some vs ↔
        (∀ v ∈ d.stations, Numbers (·.isFinite = true) v.places) ∧ d.stations = vs :=
    fun _ => StationView.format_faithful.list?_map fun _ _ => trivial
  have bands : ∀ ss,
      (Tree.list (d.bands.map BandSummary.toTree)).list? BandSummary.ofTree? = some ss ↔
        (∀ s ∈ d.bands, Numbers (·.isFinite = true) s.places) ∧ d.bands = ss :=
    fun _ => BandSummary.format_faithful.list?_map fun _ _ => trivial
  simp [places, toTree, contentMembers, ofTree?, fieldNames, Option.bind_eq_some_iff,
    List.lookup_cons, and_assoc, Tree.count?_ofNat counted.1, categories, stations, bands]

def format : Format Dashboard := ⟨toTree, ofTree?, places, Counted⟩

theorem format_faithful : format.Faithful 6 where
  legible _ := legible
  shown := shows
  undone _ _ := ofTree?_toTree

end Dashboard

end FleetHealth
