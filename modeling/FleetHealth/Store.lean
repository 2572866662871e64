import FleetHealth.Station
import FleetHealth.Text.Quoted
import FleetHealth.Trend
/-!
The sample store: one row per station id and one per sample id. Rows hold the texts they were
written with, which other programs may have spelled differently, and any millisecond count. The
store averages the rows of a day itself, by its own texts of days and with compensated sums.
-/
namespace FleetHealth

structure StationRow where
  id : String
  name : String
  location : String
  lifecycleText : String
  deriving DecidableEq, Repr

structure SampleRow where
  id : Int64
  stationId : String
  metricText : String
  value : Float
  millis : Option Int64
  unit : Option String
  deriving DecidableEq, Repr

inductive StoreError where
  /- A value that is not a number cannot be stored. -/
  | notANumber
  /- A row's timestamp lies outside the representable moments. -/
  | timestampOutOfRange (millis : Int64)
  /- The text of a day is that of none. -/
  | unreadableDay (text : String)
  deriving DecidableEq, Repr

def StoreError.message : StoreError → String
  | notANumber => "sample value is not a number"
  | timestampOutOfRange millis =>
    "sample timestamp out of range: " ++ String.ofList (Decimal.signed millis.toInt)
  | unreadableDay text =>
    "daily aggregate date " ++ Text.quoted text ++ ": " ++
      if text = "" then "premature end of input" else "input is out of range"

def StationRow.ofStation (s : Station) : StationRow := ⟨s.id, s.name, s.location, s.lifecycle.name⟩

def StationRow.station (r : StationRow) : Station :=
  ⟨r.id, r.name, r.location, .ofText r.lifecycleText⟩

namespace SampleRow

def ofSample (s : Sample) : SampleRow :=
  ⟨s.id, s.stationId, s.metric.name, s.value, s.timestamp.map (fun t => Int64.ofInt t.millis),
    s.unit⟩

def timestamp (r : SampleRow) : Except StoreError (Option Instant) :=
  match r.millis with
  | none => .ok none
  | some n =>
    match Instant.ofMillis? n.toInt with
    | some t => .ok (some t)
    | none => .error (.timestampOutOfRange n)

def sample (r : SampleRow) : Except StoreError Sample :=
  r.timestamp.map (fun t => ⟨r.id, r.stationId, .ofText r.metricText, r.value, t, r.unit⟩)

def isWithin (w : Window) (r : SampleRow) : Bool :=
  match r.millis with
  | some n => w.start.millis ≤ n.toInt && n.toInt < w.stop.millis
  | none => false

/- The sign of a zero is not kept. -/
def stored (r : SampleRow) : SampleRow :=
  { r with value := if r.value == 0.0 then 0.0 else r.value }

end SampleRow

inductive SortOrder where
  | ascending
  | descending
  deriving DecidableEq, Repr

/-- Rows by time, of equal times by id. -/
def SortOrder.le (order : SortOrder) (a b : SampleRow) : Bool :=
  let before (a b : SampleRow) : Bool :=
    (compareLex (compareOn SampleRow.millis) (compareOn SampleRow.id) a b).isLE
  match order with
  | ascending => before a b
  | descending => before b a

/-- A sum of doubles and, apart from it, what its roundings lost. -/
structure CompensatedSum where
  sum : Float
  lost : Float
  count : Nat
  deriving DecidableEq, Repr

namespace CompensatedSum

def empty : CompensatedSum := ⟨0.0, 0.0, 0⟩

/- What a rounding loses is found by taking the greater of both terms off the rounded sum first. -/
def add (s : CompensatedSum) (value : Float) : CompensatedSum :=
  let sum := s.sum + value
  let loss := if value.abs < s.sum.abs then s.sum - sum + value else value - sum + s.sum
  ⟨sum, s.lost + loss, s.count + 1⟩

/- Beyond the finite nothing is known of what was lost. -/
def total (s : CompensatedSum) : Float := if s.lost.isFinite then s.sum + s.lost else s.sum

def average (s : CompensatedSum) : Float := s.total / s.count.toFloat

end CompensatedSum

structure Store where
  stations : Std.TreeMap String StationRow
  samples : Std.TreeMap Int64 SampleRow

namespace Store

def empty : Store := ⟨∅, ∅⟩

def putStation (store : Store) (r : StationRow) : Store :=
  { store with stations := store.stations.insert r.id r }

/-- Writes a row, in place of one with its id. -/
def putSample (store : Store) (r : SampleRow) : Except StoreError Store :=
  if r.value.isNaN then .error .notANumber
  else .ok { store with samples := store.samples.insert r.id r.stored }

def saveStations (store : Store) (stations : List Station) : Store :=
  stations.foldl (fun store s => store.putStation (.ofStation s)) store

/-- Writes all samples or, if one cannot be stored, none. -/
def saveSamples (store : Store) (samples : List Sample) : Except StoreError Store :=
  samples.foldlM (fun store s => store.putSample (.ofSample s)) store

def listStations (store : Store) : List Station := store.stations.values.map StationRow.station

def rowsWithin (store : Store) (w : Window) (order : SortOrder) : List SampleRow :=
  (store.samples.values.filter (·.isWithin w)).mergeSort order.le

def readSamples (store : Store) (w : Window) (limit : UInt32) (order : SortOrder) :
    Except StoreError (List Sample) :=
  ((store.rowsWithin w order).take limit.toNat).mapM SampleRow.sample

/-- The samples of the greatest ids, least id first, with or without a timestamp. -/
def recentSamples (store : Store) (limit : UInt32) : Except StoreError (List Sample) :=
  ((store.samples.values.reverse.take limit.toNat).mapM SampleRow.sample).map List.reverse

/- The first of March of 300 and of every fourth century before. -/
def Misprinted (c : Civil) : Prop := c.month = 3 ∧ c.day = 1 ∧ c.year ≤ 300 ∧ c.year % 400 = 300

instance (c : Civil) : Decidable (Misprinted c) := by unfold Misprinted; infer_instance

/- A misprinted day stands as a 29th of February, which its year does not have. -/
def printedDay (c : Civil) : Civil := if Misprinted c then ⟨c.year, 2, 29⟩ else c

/- Days are cut in whole seconds, fractions of a second dropped towards the epoch, and have a text
   from noon of -4713-11-24 to the end of 9999. -/
def dayText (offset : Offset) (millis : Int64) : String :=
  let seconds := millis.toInt.tdiv 1000 + offset.seconds
  if -210866760000 ≤ seconds ∧ seconds < 253402300800 then
    String.ofList (printedDay (.ofDayNumber (seconds / 86400))).text
  else ""

def readDay (text : String) : Except StoreError Date :=
  match Date.parse? text with
  | some date => .ok date
  | none => .error (.unreadableDay text)

/-- Rows are grouped by the texts of their day and their metric. -/
abbrev DayGroups :=
  Std.TreeMap (String × String) CompensatedSum
    (compareLex (compareOn Prod.fst) (compareOn Prod.snd))

def DayGroups.add (offset : Offset) (groups : DayGroups) (r : SampleRow) : DayGroups :=
  match r.millis with
  | none => groups
  | some n =>
    groups.alter (dayText offset n, r.metricText) (fun s => some ((s.getD .empty).add r.value))

/-- A group under its day. -/
def readGroup (e : (String × String) × CompensatedSum) :
    Except StoreError ((Date × String) × CompensatedSum) :=
  (readDay e.1.1).map (fun date => ((date, e.1.2), e.2))

/- An average that is not a number reads as zero. -/
def groupAverage (s : CompensatedSum) : Float := if s.average.isNaN then 0.0 else s.average

/- Of several spellings of one metric the last counts. -/
def collectDays (groups : List ((Date × String) × CompensatedSum)) :
    Std.TreeMap Date (Table Metric Float) :=
  groups.foldl (fun days e =>
    let m := Metric.ofText e.1.2
    if m = .unknown then days
    else days.alter e.1.1 (fun t => some ((t.getD Table.empty).set m (groupAverage e.2)))) ∅

/-- Averages per day and metric over the rows of the window, days ascending. The first group whose
day cannot be read fails the whole. -/
def dailyAverages (store : Store) (w : Window) (offset : Offset) :
    Except StoreError (List DayAverages) :=
  let groups := (store.rowsWithin w .ascending).foldl (DayGroups.add offset) ∅
  (groups.toList.mapM readGroup).map (fun dated =>
    (collectDays dated).toList.map (fun e => ⟨e.1, e.2⟩))

end Store
end FleetHealth
