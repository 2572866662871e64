import FleetHealth.Aggregate
import FleetHealth.Station
/-!
What is shown of one station: a record per band of the catalog, the station-wide fields, and the
worst tier among them all.
-/
namespace FleetHealth

/-- One field of a view. It is defaulted when the batch had no sample for it and the missing value
supplied both numbers. -/
structure Field where
  metric : Metric
  current : Float
  average : Float
  defaulted : Bool
  status : Health
  deriving DecidableEq, Repr

structure BandRecord where
  band : Band
  downlink : Field
  uplink : Field
  signalPower : Option Field
  signalQuality : Option Field
  status : Health
  deriving DecidableEq, Repr

def BandRecord.fields (r : BandRecord) : List Field :=
  [r.downlink, r.uplink] ++ r.signalPower.toList ++ r.signalQuality.toList

structure StationView where
  id : String
  name : String
  location : String
  lifecycle : Lifecycle
  bands : List BandRecord
  latency : Field
  txImbalance : Field
  status : Health
  deriving DecidableEq, Repr

namespace StationView

def band? (v : StationView) (b : Band) : Option BandRecord := v.bands.find? (fun r => r.band = b)

def fields (v : StationView) : List Field :=
  v.bands.flatMap (·.fields) ++ [v.latency, v.txImbalance]

end StationView

namespace Catalog

/-- The field of a metric. It is classified by its current value. -/
def field (c : Catalog) (aggregates : Aggregates) (stationId : String) (m : Metric) : Field :=
  match aggregates[(⟨some stationId, m⟩ : AggregateKey)]? with
  | some a => ⟨m, a.current, a.average, false, c.thresholds.classify m a.current none⟩
  | none =>
    let v := c.missing.valueFor m
    ⟨m, v, v, true, c.thresholds.classify m v none⟩

def bandRecord (c : Catalog) (aggregates : Aggregates) (stationId : String) (plan : BandPlan) :
    BandRecord :=
  let downlink := c.field aggregates stationId plan.downlink
  let uplink := c.field aggregates stationId plan.uplink
  let signalPower := plan.signalPower.map (c.field aggregates stationId)
  let signalQuality := plan.signalQuality.map (c.field aggregates stationId)
  let fields := [downlink, uplink] ++ signalPower.toList ++ signalQuality.toList
  ⟨plan.band, downlink, uplink, signalPower, signalQuality, Health.worst (fields.map (·.status))⟩

def view (c : Catalog) (aggregates : Aggregates) (s : Station) : StationView :=
  let bands := c.bands.map (c.bandRecord aggregates s.id)
  let latency := c.field aggregates s.id .latency
  let txImbalance := c.field aggregates s.id .txImbalance
  let status := Health.worst (bands.map (·.status) ++ [latency.status, txImbalance.status])
  ⟨s.id, s.name, s.location, s.lifecycle, bands, latency, txImbalance, status⟩

end Catalog
end FleetHealth
