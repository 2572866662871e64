import Std.Data.TreeSet
import FleetHealth.Metric
import FleetHealth.Calendar.Instant
/-!
Single measurements.
-/
namespace FleetHealth

/-- One measurement. Without a timestamp it is aggregated, but is never the current value and
belongs to no day. -/
structure Sample where
  id : Int64
  stationId : String
  metric : Metric
  value : Float
  timestamp : Option Instant
  unit : Option String
  deriving DecidableEq, Repr

/-- Samples of the historical batch, then those of the live batch whose ids are new; of one id
within a batch the first counts. -/
def Sample.merge (historical live : List Sample) : List Sample :=
  go ∅ (historical ++ live)
where
  go (seen : Std.TreeSet Int64) : List Sample → List Sample
    | [] => []
    | s :: rest => if s.id ∈ seen then go seen rest else s :: go (seen.insert s.id) rest

end FleetHealth
