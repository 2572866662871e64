import FleetHealth.Decimal.Digits
import FleetHealth.Text.Blank
/-!
Calendar dates of the proleptic Gregorian calendar, kept as day numbers counted from 1970-01-01.
Years run from -262143 to 262142.
-/
namespace FleetHealth

structure Civil where
  year : Int
  month : Nat
  day : Nat
  deriving DecidableEq, Repr

namespace Civil

def isLeap (year : Int) : Bool := year % 4 = 0 && (year % 100 ≠ 0 || year % 400 = 0)

def daysIn (year : Int) (month : Nat) : Nat :=
  if month = 2 then (if isLeap year then 29 else 28)
  else if month = 4 ∨ month = 6 ∨ month = 9 ∨ month = 11 then 30 else 31

def Valid (c : Civil) : Prop :=
  1 ≤ c.month ∧ c.month ≤ 12 ∧ 1 ≤ c.day ∧ c.day ≤ daysIn c.year c.month

instance (c : Civil) : Decidable c.Valid := by unfold Valid; infer_instance

/- Years are counted from March here, so that the leap day is a year's last; an era is the 400
   years after which the calendar repeats. -/
def dayNumber (c : Civil) : Int :=
  let y : Int := if c.month ≤ 2 then c.year - 1 else c.year
  let era := y / 400
  let yearOfEra := y % 400
  let monthFromMarch : Int := (c.month + 9) % 12
  let dayOfYear := (153 * monthFromMarch + 2) / 5 + c.day - 1
  let dayOfEra := yearOfEra * 365 + yearOfEra / 4 - yearOfEra / 100 + dayOfYear
  era * 146097 + dayOfEra - 719468

def ofDayNumber (n : Int) : Civil :=
  let z := n + 719468
  let era := z / 146097
  let dayOfEra := z % 146097
  let yearOfEra := (dayOfEra - dayOfEra / 1460 + dayOfEra / 36524 - dayOfEra / 146096) / 365
  let dayOfYear := dayOfEra - (365 * yearOfEra + yearOfEra / 4 - yearOfEra / 100)
  let monthFromMarch := (5 * dayOfYear + 2) / 153
  let day := dayOfYear - (153 * monthFromMarch + 2) / 5 + 1
  let month := if monthFromMarch < 10 then monthFromMarch + 3 else monthFromMarch - 9
  let year := yearOfEra + era * 400 + (if month ≤ 2 then 1 else 0)
  ⟨year, month.toNat, day.toNat⟩

/- Four digits of year or more; a sign wherever four digits are not enough. -/
def text (c : Civil) : List Char :=
  let year :=
    if 0 ≤ c.year ∧ c.year ≤ 9999 then Decimal.padded 4 c.year.natAbs
    else (if c.year < 0 then '-' else '+') :: Decimal.padded 4 c.year.natAbs
  year ++ '-' :: Decimal.padded 2 c.month ++ '-' :: Decimal.padded 2 c.day

end Civil

/-- A day whose year can be represented. -/
structure Date where
  dayNumber : Int
  inRange : -96465292 ≤ dayNumber ∧ dayNumber ≤ 95026236
  deriving DecidableEq, Repr

namespace Date

def ofDayNumber? (n : Int) : Option Date :=
  if h : -96465292 ≤ n ∧ n ≤ 95026236 then some ⟨n, h⟩ else none

theorem ofDayNumber?_dayNumber (d : Date) : ofDayNumber? d.dayNumber = some d := by
  simp [ofDayNumber?, d.inRange]

def civil (d : Date) : Civil := Civil.ofDayNumber d.dayNumber

def ofCivil? (c : Civil) : Option Date :=
  if c.Valid then ofDayNumber? c.dayNumber else none

instance : Ord Date := ⟨fun a b => compare a.dayNumber b.dayNumber⟩

instance : Std.TransOrd Date where
  eq_swap := Std.OrientedOrd.eq_swap (α := Int)
  isLE_trans := Std.TransOrd.isLE_trans (α := Int)

instance : Std.LawfulEqOrd Date where
  compare_self := Std.ReflOrd.compare_self (α := Int)
  eq_of_compare {a b} h := by
    cases a; cases b
    simp only [mk.injEq]
    exact Std.LawfulEqOrd.eq_of_compare (α := Int) h

def text (d : Date) : String := String.ofList d.civil.text

/-- A run of one to width digits and what follows it. -/
def number? (width : Nat) (cs : List Char) : Option (Nat × List Char) :=
  let run := (cs.take width).takeWhile Char.isDigit
  if run.isEmpty then none else some (Decimal.value run, cs.drop run.length)

/-- A year: up to four digits, or any number of them after a sign. -/
def year? (cs : List Char) : Option (Int × List Char) :=
  match cs with
  | '-' :: rest => (number? rest.length rest).map (fun p => (-(p.1 : Int), p.2))
  | '+' :: rest => (number? rest.length rest).map (fun p => ((p.1 : Int), p.2))
  | cs => (number? 4 cs).map (fun p => ((p.1 : Int), p.2))

def dash? (cs : List Char) : Option (List Char) :=
  match Text.skipBlank cs with
  | '-' :: rest => some rest
  | _ => none

/- Year, month and day need no zeros in front, and blanks may stand around each part. -/
def parse? (s : String) : Option Date := do
  let (year, rest) ← year? (Text.skipBlank s.toList)
  let rest ← dash? rest
  let (month, rest) ← number? 2 (Text.skipBlank rest)
  let rest ← dash? rest
  let (day, rest) ← number? 2 (Text.skipBlank rest)
  if Text.skipBlank rest = [] then ofCivil? ⟨year, month, day⟩ else none

end Date
end FleetHealth
