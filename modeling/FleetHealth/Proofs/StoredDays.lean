import FleetHealth.Proofs.CalendarText
import FleetHealth.Proofs.DayAverages
/-!
The day a store groups a row under and the day of the row's moment. A store has its days as texts
and drops fractions of a second towards the epoch, so before 1970 a moment in the last second of a
day, its first instant apart, is grouped under the next day; it has no morning of its first day, and
the texts of thirteen days, all before 301, are those of none. Everywhere else both days are one.
-/
namespace FleetHealth

theorem Date.eq_of_dayNumber {a b : Date} (same : a.dayNumber = b.dayNumber) : a = b := by
  cases a
  cases b
  cases same
  rfl

namespace Instant

/-- Before 1970 and after 23:59:59 of the local day. -/
def CarriedOver (t : Instant) (offset : Offset) : Prop :=
  t.millis < 0 ∧ 86399000 < (t.millis + 1000 * offset.seconds) % 86400000

/-- Not after 11:59:59 of the first day. -/
def BeforeNoonOfFirstDay (t : Instant) (offset : Offset) : Prop :=
  t.millis + 1000 * offset.seconds ≤ -210866760001000

instance (t : Instant) (offset : Offset) : Decidable (t.CarriedOver offset) := by
  unfold CarriedOver; infer_instance

instance (t : Instant) (offset : Offset) : Decidable (t.BeforeNoonOfFirstDay offset) := by
  unfold BeforeNoonOfFirstDay; infer_instance

theorem localDate?_eq_some_iff {t : Instant} {offset : Offset} {date : Date} :
    t.localDate? offset = some date ↔
      date.dayNumber = (t.millis + 1000 * offset.seconds) / 86400000 := by
  rw [localDate?]
  constructor
  · intro day
    simp only [Date.ofDayNumber?, Option.dite_none_right_eq_some, Option.some.injEq] at day
    obtain ⟨_, rfl⟩ := day
    rfl
  · intro day
    rw [← day]
    exact Date.ofDayNumber?_dayNumber date

end Instant

namespace Store

/-- The first and the last day with a text: -4713-11-24 and 9999-12-31. -/
def firstDay : Int := -2440588

def lastDay : Int := 2932896

/-- The day under which a row of that moment is grouped, as it is read from its text. -/
def localDay (offset : Offset) (millis : Int64) : Except StoreError Date :=
  readDay (dayText offset millis)

/-- A row in the window has its day among those a store answers, with an average of its metric. -/
theorem dailyAverages_gives {store : Store} {w : Window} {offset : Offset} {days : List DayAverages}
    {r : SampleRow} {n : Int64} (read : store.dailyAverages w offset = .ok days)
    (listed : r ∈ store.rowsWithin w .ascending) (millis : r.millis = some n) :
    ∃ day, localDay offset n = .ok day ∧ (Metric.ofText r.metricText ≠ .unknown →
      ∃ v, DayAverages.Gives days day (Metric.ofText r.metricText) v) := by
  obtain ⟨dated, answers, rfl⟩ := dailyAverages_eq_ok_iff.mp read
  have placed : dayPlaced? offset r = some ((dayText offset n, r.metricText), r.value) := by
    rw [dayPlaced?, millis]
    rfl
  have own : r.value ∈ Bucket.cell ((store.rowsWithin w .ascending).filterMap (dayPlaced? offset))
      (dayText offset n, r.metricText) :=
    List.mem_map_of_mem (List.mem_filter.mpr
      ⟨List.mem_filterMap.mpr ⟨r, listed, placed⟩, decide_eq_true rfl⟩)
  have found := getElem?_groupRows.mpr ⟨List.ne_nil_of_mem own, rfl⟩
  have entry := Std.TreeMap.mem_toList_iff_getElem?_eq_some.mpr found
  obtain ⟨e, inside, group⟩ := exists_answer answers entry
  cases reads : localDay offset n with
  | error e =>
    rw [readGroup, ← localDay, reads] at group
    cases group
  | ok day =>
    rw [readGroup, ← localDay, reads] at group
    obtain rfl := Except.ok.inj group
    refine ⟨day, rfl, fun known => ?_⟩
    have average := getElem?_collectDays dated day known
    cases last : (dated.filter (fun e => e.1.1 = day ∧
        Metric.ofText e.1.2 = Metric.ofText r.metricText)).getLast? with
    | none =>
      have empty := List.filter_eq_nil_iff.mp (List.getLast?_eq_none_iff.mp last)
      exact absurd (decide_eq_true ⟨rfl, rfl⟩) (empty _ inside)
    | some e =>
      rw [last] at average
      exact ⟨_, gives_collectedDays_iff.mpr average⟩

/-- Whole seconds are those of the clock or, before 1970 and within a second, the next ones. -/
theorem tdiv_thousand (millis : Int) :
    millis.tdiv 1000 = millis / 1000 + if millis < 0 ∧ millis % 1000 ≠ 0 then 1 else 0 := by
  by_cases past : 0 ≤ millis
  · rw [Int.tdiv_eq_ediv_of_nonneg past, if_neg (by omega), Int.add_zero]
  · have negated : millis.tdiv 1000 = -(-millis / 1000) := by
      rw [← Int.tdiv_eq_ediv_of_nonneg (by omega), Int.neg_tdiv, Int.neg_neg]
    rw [negated]
    split <;> omega

theorem misprinted_not_valid {c : Civil} (misprinted : Misprinted c) :
    ¬Civil.Valid ⟨c.year, 2, 29⟩ := by
  obtain ⟨_, _, _, century⟩ := misprinted
  have common : Civil.isLeap c.year = false := by
    unfold Civil.isLeap
    simp only [Bool.and_eq_false_iff, Bool.or_eq_false_iff, decide_eq_false_iff_not]
    omega
  intro valid
  obtain ⟨_, _, _, last⟩ := valid
  simp [Civil.daysIn, common] at last

theorem readDay_of_misprinted {c : Civil} (misprinted : Misprinted c) :
    readDay (String.ofList (printedDay c).text) =
      .error (.unreadableDay (String.ofList (Civil.text ⟨c.year, 2, 29⟩))) := by
  have shown : printedDay c = ⟨c.year, 2, 29⟩ := if_pos misprinted
  have none : Date.ofCivil? ⟨c.year, 2, 29⟩ = none := if_neg (misprinted_not_valid misprinted)
  rw [shown, readDay, Date.parse?_ofCivil _ (by decide : 2 < 100) (by decide : 29 < 100), none]

theorem readDay_of_printed {date : Date} (proper : ¬Misprinted date.civil) :
    readDay (String.ofList (printedDay date.civil).text) = .ok date := by
  have shown : printedDay date.civil = date.civil := if_neg proper
  rw [shown, readDay, ← Date.text, Date.parse?_text]

section Days

variable {offset : Offset} {n : Int64} {t : Instant} {date : Date}
  (moment : Instant.ofMillis? n.toInt = some t) (day : t.localDate? offset = some date)

include moment day

theorem dayText_of_noon (range : firstDay ≤ date.dayNumber ∧ date.dayNumber ≤ lastDay)
    (noon : ¬t.BeforeNoonOfFirstDay offset) :
    ∃ stored : Date, stored.dayNumber = date.dayNumber + (if t.CarriedOver offset then 1 else 0) ∧
      dayText offset n = String.ofList (printedDay stored.civil).text := by
  have millis := Instant.ofMillis?_eq_some_iff.mp moment
  have number := Instant.localDate?_eq_some_iff.mp day
  unfold firstDay lastDay at range
  unfold Instant.BeforeNoonOfFirstDay at noon
  have east := offset.inRange
  have seconds := tdiv_thousand n.toInt
  -- a second gained by dropping a fraction is a day gained only at the end of a day
  have cut : (n.toInt.tdiv 1000 + offset.seconds) / 86400 =
      date.dayNumber + if t.CarriedOver offset then 1 else 0 := by
    by_cases carried : t.CarriedOver offset
    · rw [if_pos carried]
      unfold Instant.CarriedOver at carried
      split at seconds <;> omega
    · rw [if_neg carried]
      unfold Instant.CarriedOver at carried
      split at seconds <;> omega
  have inRange : -210866760000 ≤ n.toInt.tdiv 1000 + offset.seconds ∧
      n.toInt.tdiv 1000 + offset.seconds < 253402300800 := by
    split at seconds <;> omega
  have shown : -96465292 ≤ (n.toInt.tdiv 1000 + offset.seconds) / 86400 ∧
      (n.toInt.tdiv 1000 + offset.seconds) / 86400 ≤ 95026236 := by omega
  refine ⟨⟨_, shown⟩, cut, ?_⟩
  unfold dayText
  dsimp only
  rw [if_pos inRange]
  rfl

omit day in
theorem localDay_before_noon (early : t.BeforeNoonOfFirstDay offset) :
    localDay offset n = .error (.unreadableDay "") := by
  have millis := Instant.ofMillis?_eq_some_iff.mp moment
  unfold Instant.BeforeNoonOfFirstDay at early
  have east := offset.inRange
  have seconds := tdiv_thousand n.toInt
  have outside : ¬(-210866760000 ≤ n.toInt.tdiv 1000 + offset.seconds ∧
      n.toInt.tdiv 1000 + offset.seconds < 253402300800) := by
    split at seconds <;> omega
  have empty : dayText offset n = "" := if_neg outside
  rw [localDay, empty]
  rfl

theorem localDay_of_noon (range : firstDay ≤ date.dayNumber ∧ date.dayNumber ≤ lastDay)
    (noon : ¬t.BeforeNoonOfFirstDay offset) :
    ∃ stored : Date, stored.dayNumber = date.dayNumber + (if t.CarriedOver offset then 1 else 0) ∧
      localDay offset n = if Misprinted stored.civil then
        .error (.unreadableDay (String.ofList (Civil.text ⟨stored.civil.year, 2, 29⟩)))
      else .ok stored := by
  obtain ⟨stored, number, shown⟩ := dayText_of_noon moment day range noon
  refine ⟨stored, number, ?_⟩
  rw [localDay, shown]
  split
  case isTrue misprinted => exact readDay_of_misprinted misprinted
  case isFalse proper => exact readDay_of_printed proper

/-- Where a day of the store's range is the day of a moment, rows of the moment are grouped under it
exactly if the moment is not carried over into the next day, under which they are then, not before
noon of the first day, and not of a day with a wrong text; the last two cannot be read. Rows that a
store reads are among the answers under the day of their group. -/
theorem localDay_eq_iff (range : firstDay ≤ date.dayNumber ∧ date.dayNumber ≤ lastDay) :
    (localDay offset n = .ok date ↔
      ¬t.CarriedOver offset ∧ ¬t.BeforeNoonOfFirstDay offset ∧ ¬Misprinted date.civil) ∧
    (t.BeforeNoonOfFirstDay offset → localDay offset n = .error (.unreadableDay "")) ∧
    (¬t.BeforeNoonOfFirstDay offset →
      ∃ stored : Date, stored.dayNumber = date.dayNumber + (if t.CarriedOver offset then 1 else 0) ∧
        localDay offset n = if Misprinted stored.civil then
          .error (.unreadableDay (String.ofList (Civil.text ⟨stored.civil.year, 2, 29⟩)))
        else .ok stored) ∧
    ∀ (store : Store) (w : Window) (days : List DayAverages), ∀ r ∈ store.rowsWithin w .ascending,
      r.millis = some n → store.dailyAverages w offset = .ok days →
      ∃ stored, localDay offset n = .ok stored ∧ (Metric.ofText r.metricText ≠ .unknown →
        ∃ v, DayAverages.Gives days stored (Metric.ofText r.metricText) v) := by
  refine ⟨⟨?_, ?_⟩, localDay_before_noon moment, localDay_of_noon moment day range, ?_⟩
  · intro same
    have noon : ¬t.BeforeNoonOfFirstDay offset := by
      intro early
      rw [localDay_before_noon moment early] at same
      cases same
    obtain ⟨stored, number, shown⟩ := localDay_of_noon moment day range noon
    rw [same] at shown
    split at shown
    case isTrue => cases shown
    case isFalse proper =>
      cases shown
      refine ⟨?_, noon, proper⟩
      intro carried
      rw [if_pos carried] at number
      omega
  · intro h
    obtain ⟨punctual, noon, proper⟩ := h
    obtain ⟨stored, number, shown⟩ := localDay_of_noon moment day range noon
    rw [if_neg punctual, Int.add_zero] at number
    obtain rfl := Date.eq_of_dayNumber number
    rw [shown, if_neg proper]
  · intro store w days r listed millis read
    exact dailyAverages_gives read listed millis

end Days

/- Half a second and a whole one before midnight, one hour east of UTC, and a morning of 0300-03-01,
whose text is that of 0300-02-29. -/
theorem localDay_eq_iff_around_midnight :
    let east : Offset := ⟨3600, by decide⟩
    (∃ t date, Instant.ofMillis? (-3600500 : Int64).toInt = some t ∧
      t.localDate? east = some date ∧ t.CarriedOver east ∧
      ∃ next, localDay east (-3600500) = .ok next ∧ next.dayNumber = date.dayNumber + 1) ∧
    (∃ t date, Instant.ofMillis? (-3601000 : Int64).toInt = some t ∧
      t.localDate? east = some date ∧ localDay east (-3601000) = .ok date) ∧
    ∃ t date, Instant.ofMillis? (-52695000000000 : Int64).toInt = some t ∧
      t.localDate? east = some date ∧ date.text = "0300-03-01" ∧
      localDay east (-52695000000000) ≠ .ok date := by
  intro east
  refine ⟨?_, ?_, ?_⟩
  · let t : Instant := ⟨-3600500, by decide⟩
    let date : Date := ⟨-1, by decide⟩
    have moment : Instant.ofMillis? (-3600500 : Int64).toInt = some t := rfl
    have day : t.localDate? east = some date := rfl
    have carried : t.CarriedOver east := by decide
    obtain ⟨_, _, grouped, _⟩ := localDay_eq_iff moment day (by decide)
    obtain ⟨next, number, shown⟩ := grouped (by decide)
    rw [if_pos carried] at number
    obtain rfl : next = ⟨0, by decide⟩ := Date.eq_of_dayNumber number
    exact ⟨t, date, moment, day, carried, _, shown.trans (if_neg (by decide)), number⟩
  · let t : Instant := ⟨-3601000, by decide⟩
    let date : Date := ⟨-1, by decide⟩
    have moment : Instant.ofMillis? (-3601000 : Int64).toInt = some t := rfl
    have day : t.localDate? east = some date := rfl
    obtain ⟨same_day, _⟩ := localDay_eq_iff moment day (by decide)
    exact ⟨t, date, moment, day, same_day.mpr (by decide)⟩
  · let t : Instant := ⟨-52695000000000, by decide⟩
    let date : Date := ⟨-609896, by decide⟩
    have moment : Instant.ofMillis? (-52695000000000 : Int64).toInt = some t := rfl
    have day : t.localDate? east = some date := rfl
    obtain ⟨same_day, _⟩ := localDay_eq_iff moment day (by decide)
    refine ⟨t, date, moment, day, by decide +kernel, ?_⟩
    intro same
    exact absurd (same_day.mp same) (by decide)

/- The last millisecond before 1970 is grouped under the first day of 1970. -/
theorem localDay_of_last_millisecond :
    ∃ t date stored, Instant.ofMillis? (-1 : Int64).toInt = some t ∧
      t.localDate? .utc = some date ∧ date.text = "1969-12-31" ∧
      firstDay ≤ date.dayNumber ∧ date.dayNumber ≤ lastDay ∧
      localDay .utc (-1) = .ok stored ∧ stored.text = "1970-01-01" := by
  refine ⟨⟨-1, by decide⟩, ⟨-1, by decide⟩, ⟨0, by decide⟩, rfl, rfl, ?_, ?_⟩
  · decide +kernel
  · exact ⟨by decide, by decide, by decide +kernel, by decide +kernel⟩

end Store
end FleetHealth
