import FleetHealth.StationView
/-!
Summaries over station views: each band over the active stations, and the fleet, whose inventory
counts every station. Counts have 32 bits.
-/
namespace FleetHealth

structure BandSummary where
  band : Band
  activeStations : UInt32
  healthyStations : UInt32
  averageDownlink : Float
  averageUplink : Float
  status : Health
  deriving DecidableEq, Repr

structure FleetSummary where
  total : UInt32
  active : UInt32
  offline : UInt32
  maintenance : UInt32
  healthyActive : UInt32
  worstStation : Health
  status : Health
  deriving DecidableEq, Repr

def FleetSummary.none : FleetSummary := ⟨0, 0, 0, 0, 0, .healthy, .healthy⟩

/- The mean of no values is zero; sums start from negative zero, so that a mean of negative zeros
   is one. -/
def mean (values : List Float) : Float :=
  if values.isEmpty then 0.0 else values.foldl (· + ·) (-0.0) / values.length.toFloat

def activeViews (views : List StationView) : List StationView :=
  views.filter (fun v => v.lifecycle.isActive)

def summarizeBand (thresholds : Thresholds) (views : List StationView) (b : Band) : BandSummary :=
  let records := (activeViews views).filterMap (fun v => v.band? b)
  let active := records.length.toUInt32
  let healthy := Health.countHealthy (records.map (·.status))
  { band := b
    activeStations := active
    healthyStations := healthy
    averageDownlink := mean (records.map (·.downlink.current))
    averageUplink := mean (records.map (·.uplink.current))
    status := thresholds.classifyPopulation (.ofBand b) ⟨healthy, active⟩ }

def summarizeBands (thresholds : Thresholds) (plans : List BandPlan) (views : List StationView) :
    List BandSummary :=
  plans.map (fun p => summarizeBand thresholds views p.band)

def countLifecycle (views : List StationView) (l : Lifecycle) : UInt32 :=
  (views.countP (fun v => v.lifecycle = l)).toUInt32

def summarizeFleet (thresholds : Thresholds) (views : List StationView) : FleetSummary :=
  let statuses := (activeViews views).map (·.status)
  let active := statuses.length.toUInt32
  let healthy := Health.countHealthy statuses
  { total := views.length.toUInt32
    active := active
    offline := countLifecycle views .offline
    maintenance := countLifecycle views .maintenance
    healthyActive := healthy
    worstStation := Health.worst statuses
    status := thresholds.classifyPopulation .fleet ⟨healthy, active⟩ }

end FleetHealth
