import FleetHealth.Thresholds
import FleetHealth.Calendar.Instant
/-!
The metric catalog: thresholds, categories, bands, stand-ins for silent metrics, unit conversions
and the offset days are cut at.
-/
namespace FleetHealth

/-- A named group of metrics rolled up into one tier. -/
structure Category where
  name : String
  metrics : List Metric
  deriving DecidableEq, Repr

def Category.builtin : List Category :=
  [⟨"system", [.cpuLoad, .memoryLoad, .temperature, .powerDraw, .uptime]⟩,
    ⟨"nr", [.nrDownlink, .nrUplink, .nrPower, .nrQuality]⟩,
    ⟨"lte", [.lteDownlink, .lteUplink]⟩,
    ⟨"quality", [.latency, .txImbalance]⟩]

/-- Which metrics feed the fields of one band. -/
structure BandPlan where
  band : Band
  downlink : Metric
  uplink : Metric
  signalPower : Option Metric
  signalQuality : Option Metric
  deriving DecidableEq, Repr

namespace BandPlan

def builtin : List BandPlan :=
  [⟨.nr, .nrDownlink, .nrUplink, some .nrPower, some .nrQuality⟩,
    ⟨.lte, .lteDownlink, .lteUplink, none, none⟩]

def metrics (p : BandPlan) : List Metric :=
  [p.downlink, p.uplink] ++ p.signalPower.toList ++ p.signalQuality.toList

end BandPlan

/-- Metrics shown once per station rather than per band. -/
def stationWideMetrics : List Metric := [.latency, .txImbalance]

/-- What stands for a metric that was silent throughout the window. -/
abbrev MissingValues := Table Metric Float

namespace MissingValues

def builtinValue : Metric → Float
  | .nrDownlink | .nrUplink | .lteDownlink | .lteUplink => 0.0
  | .nrPower => -120.0
  | .nrQuality => -10.0
  | .latency => 1000.0
  | .txImbalance => 99.0
  | .cpuLoad | .memoryLoad => 100.0
  | .temperature => 120.0
  | .powerDraw => 10000.0
  | .uptime => 0.0
  | .unknown => 0.0

def valueFor (t : MissingValues) (m : Metric) : Float := (t m).getD (builtinValue m)

end MissingValues

/-- Factors on daily averages; a metric without one keeps its unit. -/
abbrev Conversions := Table Metric Float

namespace Conversions

/- Watts are shown as kilowatts. -/
def builtin : Conversions := Table.empty.set .powerDraw 0.001

def factor (t : Conversions) (m : Metric) : Float := (t m).getD 1.0

def apply (t : Conversions) (m : Metric) (value : Float) : Float := value * t.factor m

end Conversions

structure Catalog where
  thresholds : Thresholds
  categories : List Category
  bands : List BandPlan
  missing : MissingValues
  conversions : Conversions
  offset : Offset

inductive CatalogFault where
  | unknownMetricRule
  | populationShape (m : Metric)
  | metricRule (m : Metric) (fault : RuleFault)
  | notPopulationShape (p : Population)
  | populationRule (p : Population) (fault : RuleFault)
  | noRule (m : Metric)
  | unknownConversion
  | conversionFactor (m : Metric) (factor : Float)
  deriving DecidableEq, Repr

def CatalogFault.message : CatalogFault → String
  | unknownMetricRule => "thresholds.metrics contains an unknown metric type"
  | populationShape m =>
    "thresholds.metrics." ++ m.name ++ " cannot use shape = \"population_ratio\""
  | metricRule m fault => "thresholds.metrics." ++ m.name ++ ": " ++ fault.message
  | notPopulationShape p =>
    "thresholds.populations." ++ p.name ++ " must use shape = \"population_ratio\""
  | populationRule p fault => "thresholds.populations." ++ p.name ++ ": " ++ fault.message
  | noRule m => "no threshold rule for metric type " ++ m.name
  | unknownConversion => "unit_conversions contains an unknown metric type"
  | conversionFactor m factor =>
    "unit_conversions." ++ m.name ++ " must be finite and non-zero, got " ++ Decimal.plain factor

namespace Catalog

def builtin : Catalog where
  thresholds := .builtin
  categories := Category.builtin
  bands := BandPlan.builtin
  missing := Table.empty
  conversions := Conversions.builtin
  offset := .utc

/-- The metrics some category, band or station field reads. -/
def referenced (c : Catalog) : List Metric :=
  c.categories.flatMap (·.metrics) ++ c.bands.flatMap (·.metrics) ++ stationWideMetrics

def checkMetricRule (m : Metric) (rule : Rule) : Except CatalogFault Unit :=
  if m = .unknown then .error .unknownMetricRule
  else
    match rule with
    | .populationRatio _ _ => .error (.populationShape m)
    | rule => rule.validate.mapError (.metricRule m)

def checkPopulationRule (p : Population) (rule : Rule) : Except CatalogFault Unit :=
  match rule with
  | .populationRatio _ _ => rule.validate.mapError (.populationRule p)
  | _ => .error (.notPopulationShape p)

def checkConversion (m : Metric) (factor : Float) : Except CatalogFault Unit :=
  if m = .unknown then .error .unknownConversion
  else if factor.isFinite && factor != 0.0 then .ok ()
  else .error (.conversionFactor m factor)

/-- Metric rules, population rules, references and conversions, the first fault in that order:
every rule is sound and of a shape that fits, every metric read has a rule, and every factor is
finite and not zero. -/
def validate (c : Catalog) : Except CatalogFault Unit := do
  (c.thresholds.metrics.entries Metric.all).forM (fun e => checkMetricRule e.1 e.2)
  (c.thresholds.populations.entries Population.all).forM (fun e => checkPopulationRule e.1 e.2)
  c.referenced.forM (fun m =>
    if c.thresholds.isCatalogued m then .ok () else .error (.noRule m))
  (c.conversions.entries Metric.all).forM (fun e => checkConversion e.1 e.2)

end Catalog
end FleetHealth
