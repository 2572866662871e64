import FleetHealth.Calendar.Date
/-!
Moments in milliseconds since 1970-01-01T00:00:00Z, offsets from UTC, and half-open windows.
The representable moments are those of the representable dates.
-/
namespace FleetHealth

structure Instant where
  millis : Int
  inRange : -8334601228800000 ≤ millis ∧ millis ≤ 8210266876799999
  deriving DecidableEq, Repr

namespace Instant

def ofMillis? (n : Int) : Option Instant :=
  if h : -8334601228800000 ≤ n ∧ n ≤ 8210266876799999 then some ⟨n, h⟩ else none

theorem ofMillis?_millis (t : Instant) : ofMillis? t.millis = some t := by
  simp [ofMillis?, t.inRange]

theorem ofMillis?_eq_some_iff {n : Int} {t : Instant} : ofMillis? n = some t ↔ t.millis = n := by
  constructor
  · intro h
    simp only [ofMillis?, Option.dite_none_right_eq_some, Option.some.injEq] at h
    obtain ⟨_, rfl⟩ := h
    rfl
  · rintro rfl
    exact ofMillis?_millis t

def epoch : Instant := ⟨0, by decide⟩

def add? (t : Instant) (millis : Int) : Option Instant := ofMillis? (t.millis + millis)

instance : LT Instant := ⟨fun a b => a.millis < b.millis⟩

instance : LE Instant := ⟨fun a b => a.millis ≤ b.millis⟩

instance (a b : Instant) : Decidable (a < b) := inferInstanceAs (Decidable (a.millis < b.millis))

instance (a b : Instant) : Decidable (a ≤ b) := inferInstanceAs (Decidable (a.millis ≤ b.millis))

end Instant

/-- Seconds east of UTC, less than a day. -/
structure Offset where
  seconds : Int
  inRange : -86399 ≤ seconds ∧ seconds ≤ 86399
  deriving DecidableEq, Repr

namespace Offset

def utc : Offset := ⟨0, by decide⟩

def ofSeconds? (n : Int) : Option Offset :=
  if h : -86399 ≤ n ∧ n ≤ 86399 then some ⟨n, h⟩ else none

end Offset

/-- The calendar day at that offset; none if its date cannot be represented. -/
def Instant.localDate? (t : Instant) (offset : Offset) : Option Date :=
  Date.ofDayNumber? ((t.millis + 1000 * offset.seconds) / 86400000)

/-- The moments from start on and before stop. -/
structure Window where
  start : Instant
  stop : Instant
  deriving DecidableEq, Repr

namespace Window

/-- The window of that many milliseconds that ends with now, now included. -/
def endingAt? (now : Instant) (length : Int) : Option Window := do
  let start ← now.add? (-length)
  let stop ← now.add? 1
  return ⟨start, stop⟩

def Contains (w : Window) (t : Instant) : Prop := w.start ≤ t ∧ t < w.stop

instance (w : Window) (t : Instant) : Decidable (w.Contains t) := by
  unfold Contains; infer_instance

def length (w : Window) : Int := w.stop.millis - w.start.millis

end Window
end FleetHealth
