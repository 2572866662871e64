import Mathlib.Tactic.IntervalCases
import FleetHealth.Calendar.Date
import FleetHealth.Proofs.Numerals
/-!
Dates as text. Every day number is that of a valid civil date, and the text of a date, with a sign
where its year has one, is read back as the date.
-/
namespace FleetHealth

namespace Civil

/-- Days of an era before a year of it, years starting in March. -/
def daysBefore (yearOfEra : Int) : Int := 365 * yearOfEra + yearOfEra / 4 - yearOfEra / 100

def yearOfEra (dayOfEra : Int) : Int :=
  (dayOfEra - dayOfEra / 1460 + dayOfEra / 36524 - dayOfEra / 146096) / 365

section Years

variable {e a b c d : Int}

/- Centuries of the era, fours of years of the century, years of the four: the last of each may
   have a day more. -/
theorem exists_calendar_parts (low : 0 ≤ e) (high : e ≤ 146096) :
    ∃ a b c d : Int, e = 36524 * a + 1461 * b + 365 * c + d ∧ (0 ≤ a ∧ a ≤ 3) ∧
      (0 ≤ b ∧ b ≤ 24) ∧ (0 ≤ c ∧ c ≤ 3) ∧ 0 ≤ d ∧
      (d ≤ 364 ∨ d = 365 ∧ c = 3 ∧ (b = 24 → a = 3)) := by
  let century := min (e / 36524) 3
  let dayOfCentury := e - 36524 * century
  let year := min (dayOfCentury % 1461 / 365) 3
  refine ⟨century, dayOfCentury / 1461, year, dayOfCentury % 1461 - 365 * year, ?_⟩
  refine ⟨?_, ?_, ?_, ?_, ?_, ?_⟩ <;> omega

theorem yearOfEra_of_parts (parts : e = 36524 * a + 1461 * b + 365 * c + d) (ha : 0 ≤ a ∧ a ≤ 3)
    (hb : 0 ≤ b ∧ b ≤ 24) (hc : 0 ≤ c ∧ c ≤ 3) (hd : 0 ≤ d ∧ d ≤ 364) :
    yearOfEra e = 100 * a + 4 * b + c := by
  have centuries : e / 36524 = a := by omega
  have eras : e / 146096 = 0 := by omega
  have fours : e / 1460 = 25 * a + b ∨
      e / 1460 = 25 * a + b + 1 ∧ 1460 ≤ 24 * a + b + 365 * c + d := by omega
  rw [yearOfEra, centuries, eras]
  rcases fours with same | ⟨next, late⟩ <;> omega

theorem yearOfEra_of_leapDay (parts : e = 36524 * a + 1461 * b + 1460) (ha : 0 ≤ a ∧ a ≤ 3)
    (hb : 0 ≤ b ∧ b ≤ 24) (leap : b = 24 → a = 3) : yearOfEra e = 100 * a + 4 * b + 3 := by
  have fours : e / 1460 = 25 * a + b + 1 := by omega
  rw [yearOfEra, fours]
  by_cases last : b = 24
  · have centuries : e / 36524 = a + 1 := by omega
    have eras : e / 146096 = 1 := by omega
    omega
  · have centuries : e / 36524 = a := by omega
    have eras : e / 146096 = 0 := by omega
    omega

/- Only a leap year has the last of 366 days. -/
theorem yearOfEra_spec (low : 0 ≤ e) (high : e ≤ 146096) :
    (0 ≤ yearOfEra e ∧ yearOfEra e ≤ 399) ∧ 0 ≤ e - daysBefore (yearOfEra e) ∧
      (e - daysBefore (yearOfEra e) ≤ 364 ∨ e - daysBefore (yearOfEra e) = 365 ∧
        yearOfEra e % 4 = 3 ∧ (yearOfEra e % 100 = 99 → yearOfEra e = 399)) := by
  obtain ⟨a, b, c, d, parts, ha, hb, hc, low_day, day⟩ := exists_calendar_parts low high
  have year : yearOfEra e = 100 * a + 4 * b + c := by
    rcases day with usual | ⟨rfl, rfl, leap⟩
    · exact yearOfEra_of_parts parts ha hb hc ⟨low_day, usual⟩
    · exact yearOfEra_of_leapDay (by omega) ha hb leap
  have before : daysBefore (yearOfEra e) = 36524 * a + 1461 * b + 365 * c := by
    rw [daysBefore, year]
    omega
  rw [before, year]
  omega

end Years

section Months

variable {d m year : Int}

/- Months are numbered from March here. -/
def monthOf (monthFromMarch : Int) : Nat :=
  (if monthFromMarch < 10 then monthFromMarch + 3 else monthFromMarch - 9).toNat

/- The months from March have lengths that follow a line of slope 153/5; February comes last and
   takes what is left. -/
theorem month_bounds (low : 0 ≤ d) (high : d ≤ 365) (month : m = (5 * d + 2) / 153) :
    (0 ≤ m ∧ m ≤ 11) ∧ 0 ≤ d - (153 * m + 2) / 5 := by
  omega

theorem monthOf_bounds (low : 0 ≤ m) (high : m ≤ 11) : 1 ≤ monthOf m ∧ monthOf m ≤ 12 := by
  unfold monthOf
  split <;> omega

theorem day_le_daysIn (low : 0 ≤ d) (high : d ≤ 365) (month : m = (5 * d + 2) / 153)
    (leap : d = 365 → isLeap year = true) :
    (d - (153 * m + 2) / 5 + 1).toNat ≤ daysIn year (monthOf m) := by
  obtain ⟨⟨first, last⟩, -⟩ := month_bounds low high month
  by_cases february : m = 11
  · have short : daysIn year (monthOf m) = if isLeap year then 29 else 28 := by
      rw [february]
      rfl
    rw [short]
    split
    case isTrue => omega
    case isFalse usual =>
      have earlier : d ≠ 365 := fun lastDay => usual (leap lastDay)
      omega
  · interval_cases m <;> simp [daysIn, monthOf] <;> omega

end Months

theorem isLeap_of_lastDay {y : Int} (era : Int) (fourth : y % 4 = 3)
    (century : y % 100 = 99 → y = 399) : isLeap (y + era * 400 + 1) = true := by
  simp only [isLeap, Bool.and_eq_true, Bool.or_eq_true, decide_eq_true_eq]
  omega

/-- What stands in the calendar for a day number, in terms of the day's place in its era. -/
theorem exists_ofDayNumber (n : Int) : ∃ era y d m : Int,
    n + 719468 = era * 146097 + daysBefore y + d ∧ (0 ≤ y ∧ y ≤ 399) ∧ 0 ≤ d ∧
      (d ≤ 364 ∨ d = 365 ∧ y % 4 = 3 ∧ (y % 100 = 99 → y = 399)) ∧ m = (5 * d + 2) / 153 ∧
      ofDayNumber n = ⟨y + era * 400 + (if monthOf m ≤ 2 then 1 else 0), monthOf m,
        (d - (153 * m + 2) / 5 + 1).toNat⟩ := by
  have low : 0 ≤ (n + 719468) % 146097 := by omega
  have high : (n + 719468) % 146097 ≤ 146096 := by omega
  obtain ⟨year, low_day, day⟩ := yearOfEra_spec low high
  refine ⟨(n + 719468) / 146097, yearOfEra ((n + 719468) % 146097), _, _, ?_, year, low_day, day,
    rfl, ?_⟩
  · omega
  · have turn : ∀ m : Int,
        ((if m < 10 then m + 3 else m - 9 : Int) ≤ 2 ↔ monthOf m ≤ 2) := by
      intro m
      rw [monthOf, Int.toNat_le]
      rfl
    simp only [← turn]
    rfl

theorem ofDayNumber_valid (n : Int) : (ofDayNumber n).Valid := by
  obtain ⟨era, y, d, m, -, year, low, day, month, shown⟩ := exists_ofDayNumber n
  have high : d ≤ 365 := by omega
  obtain ⟨⟨first, last⟩, started⟩ := month_bounds low high month
  obtain ⟨january, december⟩ := monthOf_bounds first last
  rw [shown]
  refine ⟨january, december, by simp only; omega, day_le_daysIn low high month ?_⟩
  intro lastDay
  have february : monthOf m ≤ 2 := by
    rw [month, lastDay]
    decide
  rw [if_pos february]
  rcases day with usual | ⟨_, fourth, century⟩
  · omega
  · exact isLeap_of_lastDay era fourth century

theorem dayNumber_ofDayNumber (n : Int) : (ofDayNumber n).dayNumber = n := by
  obtain ⟨era, y, d, m, place, year, low, day, month, shown⟩ := exists_ofDayNumber n
  have high : d ≤ 365 := by omega
  obtain ⟨⟨first, last⟩, started⟩ := month_bounds low high month
  have fromMarch : ((monthOf m : Int) + 9) % 12 = m := by
    unfold monthOf
    split <;> omega
  have marchYear : (if monthOf m ≤ 2 then y + era * 400 + (if monthOf m ≤ 2 then 1 else 0) - 1
      else y + era * 400 + (if monthOf m ≤ 2 then 1 else 0)) = y + era * 400 := by
    split <;> omega
  rw [shown]
  simp only [dayNumber, marchYear, fromMarch]
  unfold daysBefore at place
  omega

end Civil

namespace Date

section Parts

variable {c : Char} {rest : List Char}

theorem isBlank_of_isDigit (digit : c.isDigit = true) : Text.isBlank c = false := by
  have range : 48 ≤ c.toNat ∧ c.toNat ≤ 57 := by
    simpa [Char.isDigit, UInt32.le_iff_toNat_le] using digit
  simp only [Text.isBlank, Bool.or_eq_false_iff, Bool.and_eq_false_iff, decide_eq_false_iff_not]
  omega

theorem skipBlank_cons (cs : List Char) (solid : Text.isBlank c = false) :
    Text.skipBlank (c :: cs) = c :: cs := by
  simp [Text.skipBlank, solid]

/-- A padded number starts with a digit. -/
theorem exists_padded_cons (width n : Nat) :
    ∃ d ds, Decimal.padded width n = d :: ds ∧ d.isDigit = true := by
  obtain ⟨d, ds, shown⟩ := List.exists_cons_of_ne_nil (Decimal.padded_ne_nil width n)
  exact ⟨d, ds, shown, Decimal.isDigit_of_mem_padded (by rw [shown]; exact .head ds)⟩

theorem skipBlank_padded (width n : Nat) (rest : List Char) :
    Text.skipBlank (Decimal.padded width n ++ rest) = Decimal.padded width n ++ rest := by
  obtain ⟨d, ds, shown, digit⟩ := exists_padded_cons width n
  rw [shown]
  exact skipBlank_cons (ds ++ rest) (isBlank_of_isDigit digit)

theorem number?_padded {limit width n : Nat} (short : (Decimal.padded width n).length ≤ limit)
    (stops : Decimal.StopsDigits rest) :
    number? limit (Decimal.padded width n ++ rest) = some (n, rest) := by
  have all : ∀ c ∈ Decimal.padded width n, c.isDigit = true :=
    fun c => Decimal.isDigit_of_mem_padded
  have stops_short : Decimal.StopsDigits (rest.take (limit - (Decimal.padded width n).length)) := by
    intro c first
    rw [List.head?_take] at first
    split at first
    · cases first
    · exact stops c first
  have run : ((Decimal.padded width n ++ rest).take limit).takeWhile Char.isDigit =
      Decimal.padded width n := by
    rw [List.take_append, List.take_of_length_le short]
    exact Decimal.takeWhile_run_append all stops_short
  have shown : (Decimal.padded width n).isEmpty = false := by
    simp [Decimal.padded_ne_nil]
  simp only [number?, run, shown, Decimal.value_padded, List.drop_left]
  rfl

theorem stopsDigits_dash (rest : List Char) : Decimal.StopsDigits ('-' :: rest) := by
  rintro _ ⟨⟩
  rfl

theorem stopsDigits_nil : Decimal.StopsDigits [] := by
  intro c first
  cases first

theorem dash?_dash (rest : List Char) : dash? ('-' :: rest) = some rest := rfl

/-- A year with its sign, if it is shown with one. -/
def yearText (year : Int) : List Char :=
  if 0 ≤ year ∧ year ≤ 9999 then Decimal.padded 4 year.natAbs
  else (if year < 0 then '-' else '+') :: Decimal.padded 4 year.natAbs

theorem year?_yearText (year : Int) (stops : Decimal.StopsDigits rest) :
    year? (yearText year ++ rest) = some (year, rest) := by
  have whole : (Decimal.padded 4 year.natAbs).length ≤
      (Decimal.padded 4 year.natAbs ++ rest).length := by
    rw [List.length_append]
    exact Nat.le_add_right _ _
  unfold yearText
  split
  case isTrue range =>
    have short : (Decimal.padded 4 year.natAbs).length ≤ 4 :=
      Nat.le_of_eq (Decimal.padded_length (by omega) (by decide))
    obtain ⟨d, ds, shown, digit⟩ := exists_padded_cons 4 year.natAbs
    have read := number?_padded short stops
    rw [shown, List.cons_append] at read ⊢
    unfold year?
    split
    case h_1 same =>
      cases same
      cases digit
    case h_2 same =>
      cases same
      cases digit
    case h_3 =>
      rw [read, Option.map_some, Option.some.injEq, Prod.mk.injEq]
      exact ⟨by omega, rfl⟩
  case isFalse outside =>
    split
    case isTrue negative =>
      rw [List.cons_append, year?, number?_padded whole stops, Option.map_some, Option.some.injEq,
        Prod.mk.injEq]
      exact ⟨by omega, rfl⟩
    case isFalse positive =>
      rw [List.cons_append, year?, number?_padded whole stops, Option.map_some, Option.some.injEq,
        Prod.mk.injEq]
      exact ⟨by omega, rfl⟩

theorem skipBlank_yearText (year : Int) (rest : List Char) :
    Text.skipBlank (yearText year ++ rest) = yearText year ++ rest := by
  unfold yearText
  split
  · exact skipBlank_padded 4 _ rest
  · split <;> exact skipBlank_cons _ (by decide)

end Parts

theorem civil_text (c : Civil) : c.text =
    yearText c.year ++ '-' :: (Decimal.padded 2 c.month ++ '-' :: Decimal.padded 2 c.day) := by
  simp only [Civil.text, yearText, List.append_assoc, List.cons_append]

theorem ofCivil?_civil (d : Date) : ofCivil? d.civil = some d := by
  rw [ofCivil?, civil, if_pos (Civil.ofDayNumber_valid _), Civil.dayNumber_ofDayNumber]
  exact ofDayNumber?_dayNumber d

theorem daysIn_le (year : Int) (month : Nat) : Civil.daysIn year month ≤ 31 := by
  unfold Civil.daysIn
  repeat' split
  all_goals decide

/-- A text is read back as the day it shows, if there is such a day. -/
theorem parse?_ofCivil (c : Civil) (month : c.month < 100) (day : c.day < 100) :
    parse? (String.ofList c.text) = ofCivil? c := by
  have month_length : (Decimal.padded 2 c.month).length ≤ 2 :=
    Nat.le_of_eq (Decimal.padded_length month (by decide))
  have day_length : (Decimal.padded 2 c.day).length ≤ 2 :=
    Nat.le_of_eq (Decimal.padded_length day (by decide))
  have day_read := number?_padded day_length stopsDigits_nil
  have day_shown := skipBlank_padded 2 c.day []
  rw [List.append_nil] at day_read day_shown
  simp only [parse?, String.toList_ofList, civil_text, skipBlank_yearText,
    year?_yearText _ (stopsDigits_dash _), dash?_dash, skipBlank_padded,
    number?_padded month_length (stopsDigits_dash _), day_shown, day_read, Option.bind_eq_bind,
    Option.bind_some]
  rfl

/-- No date is lost in its text. -/
theorem parse?_text (d : Date) : parse? d.text = some d := by
  obtain ⟨_, december, _, last⟩ : d.civil.Valid := Civil.ofDayNumber_valid d.dayNumber
  have longest := daysIn_le d.civil.year d.civil.month
  rw [text, parse?_ofCivil d.civil (by omega) (by omega)]
  exact ofCivil?_civil d

theorem text_injective : Function.Injective text := by
  intro a b same
  have read := parse?_text a
  rw [same, parse?_text] at read
  exact (Option.some.inj read).symm

end Date

end FleetHealth
