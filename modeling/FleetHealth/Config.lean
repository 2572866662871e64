import FleetHealth.Refresh
import FleetHealth.Tree.Toml.Reader
import FleetHealth.Wire.Rule
import FleetHealth.Wire.Sample
/-!
Configuration: what a configuration document holds, what of it is accepted, and the catalog and
refresh plan it gives.
-/
namespace FleetHealth

structure ServerSettings where
  port : UInt16
  host : String
  deriving DecidableEq, Repr

structure DatabaseSettings where
  path : String
  maxPoolSize : UInt32
  deriving DecidableEq, Repr

structure RefreshSettings where
  historicalIntervalSecs : UInt64
  historicalWindowHours : UInt32
  historicalLimit : UInt32
  liveIntervalMillis : UInt64
  liveWindowSecs : UInt32
  liveLimit : UInt32
  useDailyAverages : Bool
  statsIntervalSecs : UInt64
  deriving DecidableEq, Repr

namespace RefreshSettings

/- A week every five minutes, two minutes every five seconds. -/
def builtin : RefreshSettings where
  historicalIntervalSecs := 300
  historicalWindowHours := 168
  historicalLimit := 50000
  liveIntervalMillis := 5000
  liveWindowSecs := 120
  liveLimit := 2000
  useDailyAverages := false
  statsIntervalSecs := 60

def fieldNames : List String :=
  ["historical_interval_secs", "historical_window_hours", "historical_limit", "live_interval_ms",
    "live_window_secs", "live_limit", "use_source_daily_aggregates", "stats_log_interval_secs"]

def ofTree? (t : Tree) : Option RefreshSettings := do
  let f ← t.fields? fieldNames
  let uint64? (t : Tree) : Option UInt64 := (t.count? 64).map Nat.toUInt64
  return {
    historicalIntervalSecs := ←
      Tree.defaulted? f "historical_interval_secs" uint64? builtin.historicalIntervalSecs
    historicalWindowHours := ←
      Tree.defaulted? f "historical_window_hours" Tree.uint32? builtin.historicalWindowHours
    historicalLimit := ←
      Tree.defaulted? f "historical_limit" Tree.uint32? builtin.historicalLimit
    liveIntervalMillis := ←
      Tree.defaulted? f "live_interval_ms" uint64? builtin.liveIntervalMillis
    liveWindowSecs := ←
      Tree.defaulted? f "live_window_secs" Tree.uint32? builtin.liveWindowSecs
    liveLimit := ← Tree.defaulted? f "live_limit" Tree.uint32? builtin.liveLimit
    useDailyAverages := ←
      Tree.defaulted? f "use_source_daily_aggregates" Tree.bool? builtin.useDailyAverages
    statsIntervalSecs := ←
      Tree.defaulted? f "stats_log_interval_secs" uint64? builtin.statsIntervalSecs }

def plan (s : RefreshSettings) : RefreshPlan where
  historicalInterval := 1000 * s.historicalIntervalSecs.toNat
  historicalWindow := 3600000 * s.historicalWindowHours.toNat
  historicalLimit := s.historicalLimit
  liveInterval := s.liveIntervalMillis.toNat
  liveWindow := 1000 * s.liveWindowSecs.toNat
  liveLimit := s.liveLimit
  useDailyAverages := s.useDailyAverages
  statsInterval := 1000 * s.statsIntervalSecs.toNat

end RefreshSettings

structure Config where
  server : ServerSettings
  database : DatabaseSettings
  refresh : RefreshSettings
  /- Minutes east of UTC at which days are cut. -/
  utcOffsetMinutes : Int32
  metricRules : Table Metric Rule
  populationRules : Table Population Rule
  missingValues : Table Metric Float
  conversions : Table Metric Float

inductive PositiveSetting where
  | historicalInterval
  | historicalWindow
  | historicalLimit
  | liveInterval
  | liveWindow
  | liveLimit
  | statsInterval
  deriving DecidableEq, Repr

namespace PositiveSetting

/-- In the order in which they are checked. -/
def all : List PositiveSetting :=
  [historicalInterval, historicalWindow, historicalLimit, liveInterval, liveWindow, liveLimit,
    statsInterval]

def name : PositiveSetting → String
  | historicalInterval => "historical_interval_secs"
  | historicalWindow => "historical_window_hours"
  | historicalLimit => "historical_limit"
  | liveInterval => "live_interval_ms"
  | liveWindow => "live_window_secs"
  | liveLimit => "live_limit"
  | statsInterval => "stats_log_interval_secs"

def value (s : RefreshSettings) : PositiveSetting → Nat
  | historicalInterval => s.historicalIntervalSecs.toNat
  | historicalWindow => s.historicalWindowHours.toNat
  | historicalLimit => s.historicalLimit.toNat
  | liveInterval => s.liveIntervalMillis.toNat
  | liveWindow => s.liveWindowSecs.toNat
  | liveLimit => s.liveLimit.toNat
  | statsInterval => s.statsIntervalSecs.toNat

end PositiveSetting

inductive ConfigFault where
  | serverPort
  | databasePath
  | maxPoolSize
  | notPositive (setting : PositiveSetting)
  | utcOffset (minutes : Int32)
  | unknownMissingValue
  | missingValue (m : Metric) (value : Float)
  | offsetRange (minutes : Int32)
  /- The seconds of the offset leave 32 bits; this is not reported but ends the program. -/
  | offsetOverflow
  | catalog (fault : CatalogFault)
  deriving DecidableEq, Repr

def ConfigFault.message : ConfigFault → String
  | serverPort => "server.port must be between 1 and 65535, got 0"
  | databasePath => "database.path must be non-empty"
  | maxPoolSize => "database.max_pool_size must be > 0, got 0"
  | notPositive setting => "refresh." ++ setting.name ++ " must be > 0, got 0"
  | utcOffset minutes =>
    "reporting.utc_offset_minutes must be within +/-1439, got " ++
      String.ofList (Decimal.signed minutes.toInt)
  | unknownMissingValue => "missing_defaults contains an unknown metric type"
  | missingValue m value =>
    "missing_defaults." ++ m.name ++ " must be finite, got " ++ Decimal.plain value
  | offsetRange minutes =>
    "reporting.utc_offset_minutes out of range: " ++
      String.ofList (Decimal.signed minutes.toInt)
  | offsetOverflow => "attempt to multiply with overflow"
  | catalog fault => fault.message

namespace Config

def serverOfTree? (t : Tree) : Option ServerSettings := do
  let f ← t.fields? ["port", "host"]
  return ⟨(← Tree.required? f "port" (Tree.count? 16)).toUInt16,
    ← Tree.required? f "host" Tree.text?⟩

def databaseOfTree? (t : Tree) : Option DatabaseSettings := do
  let f ← t.fields? ["path", "max_pool_size"]
  return ⟨← Tree.required? f "path" Tree.text?, ← Tree.required? f "max_pool_size" Tree.uint32?⟩

def offsetOfTree? (t : Tree) : Option Int32 := do
  let f ← t.fields? ["utc_offset_minutes"]
  Tree.defaulted? f "utc_offset_minutes" Tree.int32? 0

def rulesOfTree? (t : Tree) : Option (Table Metric Rule × Table Population Rule) := do
  let f ← t.fields? ["metrics", "populations"]
  return (← Tree.defaulted? f "metrics"
      (Tree.table? (fun s => some (Metric.ofName s)) Rule.ofTree?) Table.empty,
    ← Tree.defaulted? f "populations" (Tree.table? Population.ofName? Rule.ofTree?) Table.empty)

/-- Server and database have to be given; the rest has defaults. -/
def ofTree? (t : Tree) : Option Config := do
  let f ← t.fields?
    ["server", "database", "refresh", "reporting", "thresholds", "missing_defaults",
      "unit_conversions"]
  let rules ← Tree.defaulted? f "thresholds" rulesOfTree? (Table.empty, Table.empty)
  return {
    server := ← Tree.required? f "server" serverOfTree?
    database := ← Tree.required? f "database" databaseOfTree?
    refresh := ← Tree.defaulted? f "refresh" RefreshSettings.ofTree? .builtin
    utcOffsetMinutes := ← Tree.defaulted? f "reporting" offsetOfTree? 0
    metricRules := rules.1
    populationRules := rules.2
    missingValues := ← Tree.defaulted? f "missing_defaults" Metric.valuesOfTree? Table.empty
    conversions := ← Tree.defaulted? f "unit_conversions" Metric.valuesOfTree? Table.empty }

def read? (text : String) : Option Config := (Tree.Toml.read? text.toList).bind ofTree?

/- A product of 32 bits. -/
def offsetSeconds (c : Config) : Except ConfigFault Int :=
  let seconds := 60 * c.utcOffsetMinutes.toInt
  if -2147483648 ≤ seconds ∧ seconds ≤ 2147483647 then .ok seconds else .error .offsetOverflow

/-- The built-in catalog with what the configuration overrides. -/
def overrides (c : Config) (offset : Offset) : Catalog :=
  { Catalog.builtin with
    thresholds := Thresholds.builtin.override c.metricRules c.populationRules
    missing := c.missingValues
    conversions := Table.override Conversions.builtin c.conversions
    offset }

def catalog (c : Config) : Except ConfigFault Catalog := do
  match Offset.ofSeconds? (← c.offsetSeconds) with
  | none => .error (.offsetRange c.utcOffsetMinutes)
  | some offset =>
    match (c.overrides offset).validate with
    | .error fault => .error (.catalog fault)
    | .ok () => .ok (c.overrides offset)

def require (holds : Bool) (fault : ConfigFault) : Except ConfigFault Unit :=
  if holds then .ok () else .error fault

def checkMissingValue (m : Metric) (value : Float) : Except ConfigFault Unit :=
  if m = .unknown then .error .unknownMissingValue
  else require value.isFinite (.missingValue m value)

/-- What is refused, the first fault in this order. -/
def validate (c : Config) : Except ConfigFault Unit := do
  require (0 < c.server.port) .serverPort
  require (c.database.path ≠ "") .databasePath
  require (0 < c.database.maxPoolSize) .maxPoolSize
  PositiveSetting.all.forM (fun s => require (0 < s.value c.refresh) (.notPositive s))
  require (-1439 ≤ c.utcOffsetMinutes && c.utcOffsetMinutes ≤ 1439) (.utcOffset c.utcOffsetMinutes)
  (c.missingValues.entries Metric.all).forM (fun e => checkMissingValue e.1 e.2)
  discard c.catalog

inductive LoadError where
  | malformed
  | refused (fault : ConfigFault)
  deriving DecidableEq, Repr

def load (text : String) : Except LoadError Config :=
  match read? text with
  | none => .error .malformed
  | some c =>
    match c.validate with
    | .error fault => .error (.refused fault)
    | .ok () => .ok c

end Config
end FleetHealth
