import FleetHealth.Calendar.Instant
/-!
Windows that end now. They are given exactly as long as both their ends can be represented.
-/
namespace FleetHealth.Window

variable {now : Instant} {length : Int}

theorem endingAt?_eq_some_iff {w : Window} :
    endingAt? now length = some w ↔
      w.start.millis = now.millis - length ∧ w.stop.millis = now.millis + 1 := by
  unfold endingAt? Instant.add?
  simp only [Option.bind_eq_bind, Option.bind_eq_some_iff, Option.pure_def, Option.some.injEq,
    Instant.ofMillis?_eq_some_iff]
  constructor
  · intro h
    obtain ⟨start, first, stop, last, rfl⟩ := h
    exact ⟨first, last⟩
  · intro h
    obtain ⟨first, last⟩ := h
    exact ⟨w.start, first, w.stop, last, rfl⟩

theorem isSome_endingAt?_iff :
    (endingAt? now length).isSome = true ↔
      -8334601228800000 ≤ now.millis - length ∧ now.millis - length ≤ 8210266876799999 ∧
        now.millis + 1 ≤ 8210266876799999 := by
  rw [Option.isSome_iff_exists]
  constructor
  · intro h
    obtain ⟨w, found⟩ := h
    obtain ⟨first, last⟩ := endingAt?_eq_some_iff.mp found
    have lower := w.start.inRange
    have upper := w.stop.inRange
    omega
  · intro h
    obtain ⟨lower, upper, stop⟩ := h
    have := now.inRange
    exact ⟨⟨⟨now.millis - length, lower, upper⟩, ⟨now.millis + 1, by omega, stop⟩⟩,
      endingAt?_eq_some_iff.mpr ⟨rfl, rfl⟩⟩

/-- Of two windows that end with one moment the longer has the moments of the shorter. -/
theorem contains_of_shorter {short long : Int} {v w : Window} (shorter : short ≤ long)
    (inner : endingAt? now short = some v) (outer : endingAt? now long = some w) :
    w.start.millis ≤ v.start.millis ∧ v.stop.millis = w.stop.millis := by
  obtain ⟨first, last⟩ := endingAt?_eq_some_iff.mp inner
  obtain ⟨first', last'⟩ := endingAt?_eq_some_iff.mp outer
  omega

end FleetHealth.Window
