import FleetHealth.Proofs.DashboardFormats
/-!
All documents. Whatever is written as a document is read back unless it has a number that is not
finite; such a number is written as null, and the document is refused.
-/
namespace FleetHealth

/-- What a document is about. -/
inductive DocumentKind where
  | sample
  | station
  | aggregate
  | classifiedAggregate
  | field
  | bandRecord
  | stationView
  | bandSummary
  | fleetSummary
  | categoryView
  | dashboard
  | trendPoint
  | dayAverages
  | trends
  | aggregateKey
  | rule
  deriving DecidableEq, Repr

namespace DocumentKind

def Value : DocumentKind → Type
  | sample => Sample
  | station => Station
  | aggregate => Aggregate
  | classifiedAggregate => ClassifiedAggregate
  | field => Field
  | bandRecord => BandRecord
  | stationView => StationView
  | bandSummary => BandSummary
  | fleetSummary => FleetSummary
  | categoryView => CategoryView
  | dashboard => Dashboard
  | trendPoint => TrendPoint
  | dayAverages => DayAverages
  | trends => Trends
  | aggregateKey => AggregateKey
  | rule => Rule

def format : (k : DocumentKind) → Format k.Value
  | sample => Sample.format
  | station => Station.format
  | aggregate => Aggregate.format
  | classifiedAggregate => ClassifiedAggregate.format
  | field => Field.format
  | bandRecord => BandRecord.format
  | stationView => StationView.format
  | bandSummary => BandSummary.format
  | fleetSummary => FleetSummary.format
  | categoryView => CategoryView.format
  | dashboard => Dashboard.format
  | trendPoint => TrendPoint.format
  | dayAverages => DayAverages.format
  | trends => Trends.format
  | aggregateKey => AggregateKey.format
  | rule => Rule.format

/- Dashboards nest the deepest: categories in a list, their aggregates in another; stations, their
   bands, the fields of a band. -/
theorem format_faithful_six (k : DocumentKind) : k.format.Faithful 6 := by
  cases k with
  | sample => exact Sample.format_faithful.mono (by decide)
  | station => exact Station.format_faithful.mono (by decide)
  | aggregate => exact Aggregate.format_faithful.mono (by decide)
  | classifiedAggregate => exact ClassifiedAggregate.format_faithful.mono (by decide)
  | field => exact Field.format_faithful.mono (by decide)
  | bandRecord => exact BandRecord.format_faithful.mono (by decide)
  | stationView => exact StationView.format_faithful.mono (by decide)
  | bandSummary => exact BandSummary.format_faithful.mono (by decide)
  | fleetSummary => exact FleetSummary.format_faithful.mono (by decide)
  | categoryView => exact CategoryView.format_faithful.mono (by decide)
  | dashboard => exact Dashboard.format_faithful
  | trendPoint => exact TrendPoint.format_faithful.mono (by decide)
  | dayAverages => exact DayAverages.format_faithful.mono (by decide)
  | trends => exact Trends.format_faithful.mono (by decide)
  | aggregateKey => exact AggregateKey.format_faithful.mono (by decide)
  | rule => exact Rule.format_faithful.mono (by decide)

theorem format_faithful (k : DocumentKind) : k.format.Faithful Tree.Json.maxDepth :=
  k.format_faithful_six.mono (by decide)

end DocumentKind

/-- Documents, as far as the text of a finite number is read as that number: each number stands at
its place, as null if it is not finite; without such a number the value is read back, and with one
it is refused. -/
theorem documents_read_back (k : DocumentKind) (v : k.Value) (counted : k.format.Counted v)
    (back : ∀ p ∈ k.format.places v, p.number.isFinite = true → Tree.Json.ReadsBack p.number) :
    (∃ t, Tree.Json.read? (k.format.encode v) = some t ∧ ∀ p ∈ k.format.places v,
      t.at? p.path = some (if p.number.isFinite then .real p.number else .null)) ∧
    ((∀ p ∈ k.format.places v, p.number.isFinite = true) →
      k.format.decode? (k.format.encode v) = some v) ∧
    ((∃ p ∈ k.format.places v, p.number.isFinite = false) →
      k.format.decode? (k.format.encode v) = none) := by
  have read := fun u => k.format_faithful.decode?_encode_eq_some_iff (u := u) counted back
  refine ⟨⟨k.format.toTree v, k.format_faithful.read?_encode counted back,
    k.format_faithful.shown v⟩, ?_, ?_⟩
  · intro finite
    exact (read v).mpr ⟨finite, rfl⟩
  · rintro ⟨p, member, infinite⟩
    rw [Option.eq_none_iff_forall_ne_some]
    intro u found
    have finite : p.number.isFinite = true := ((read u).mp found).1 p member
    exact Bool.false_ne_true (infinite.symm.trans finite)

theorem readsBack_tenth : Tree.Json.ReadsBack 0.1 := by
  unfold Tree.Json.ReadsBack
  with_unfolding_all rfl

/- The first day there is, with an average and with one that is not a number. -/
theorem documents_read_back_of_first_day :
    let first : Date := ⟨-96465292, by decide⟩
    let k := DocumentKind.trendPoint
    k.format.decode? (k.format.encode ⟨first, .latency, 0.1⟩) = some ⟨first, .latency, 0.1⟩ ∧
      k.format.decode? (k.format.encode ⟨first, .latency, 0.0 / 0.0⟩) = none := by
  intro first k
  have tenth : ∀ p ∈ k.format.places ⟨first, .latency, 0.1⟩,
      p.number.isFinite = true ∧ Tree.Json.ReadsBack p.number := by
    intro p member
    cases List.mem_singleton.mp member
    exact ⟨by decide +kernel, readsBack_tenth⟩
  have undefined : ∀ p ∈ k.format.places ⟨first, .latency, 0.0 / 0.0⟩,
      p.number.isFinite = false := by
    intro p member
    cases List.mem_singleton.mp member
    decide +kernel
  constructor
  · exact (documents_read_back k ⟨first, .latency, 0.1⟩ trivial
      fun p member _ => (tenth p member).2).2.1 fun p member => (tenth p member).1
  · exact (documents_read_back k ⟨first, .latency, 0.0 / 0.0⟩ trivial fun p member finite =>
      absurd ((undefined p member).symm.trans finite) Bool.false_ne_true).2.2
      ⟨_, List.mem_singleton_self _, undefined _ (List.mem_singleton_self _)⟩

end FleetHealth
