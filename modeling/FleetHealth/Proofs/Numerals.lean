import Mathlib.Data.List.TakeWhile
import Mathlib.Tactic.IntervalCases
import FleetHealth.Decimal.Digits
/-!
Runs of digits. What a whole number is written with reads back as that number, with any zeros in
front, and a reader that takes digits takes all of them and nothing of what follows.
-/
namespace FleetHealth.Decimal

theorem isDigit_of_mem_digits {n : Nat} {c : Char} (member : c ∈ digits n) : c.isDigit = true :=
  Nat.isDigit_of_mem_toDigits (by decide) (by decide) member

theorem digits_ne_nil (n : Nat) : digits n ≠ [] := Nat.toDigits_ne_nil

theorem value_digits (n : Nat) : value (digits n) = n :=
  Nat.ofDigitChars_toDigits (by decide) (by decide)

theorem digits_of_lt {n : Nat} (small : n < 10) : digits n = [n.digitChar] :=
  Nat.toDigits_of_lt_base small

theorem digits_of_le {n : Nat} (large : 10 ≤ n) :
    digits n = digits (n / 10) ++ [(n % 10).digitChar] :=
  Nat.toDigits_of_base_le (by decide) large

theorem digits_head_ne_zero {n : Nat} (positive : 0 < n) : (digits n).head? ≠ some '0' := by
  induction n using Nat.strongRecOn with
  | ind n ih =>
    by_cases small : n < 10
    · rw [digits_of_lt small]
      interval_cases n <;> decide
    · have kept := ih (n / 10) (by omega) (by omega)
      rw [digits_of_le (Nat.le_of_not_lt small)]
      cases front : digits (n / 10) with
      | nil => exact absurd front (digits_ne_nil _)
      | cons d ds => simpa [front] using kept

theorem digits_length_le {n width : Nat} (bound : n < 10 ^ width) (positive : 0 < width) :
    (digits n).length ≤ width := by
  induction width generalizing n with
  | zero => exact absurd positive (Nat.lt_irrefl 0)
  | succ width ih =>
    by_cases small : n < 10
    · simp [digits_of_lt small]
    · have shorter : n / 10 < 10 ^ width := by
        rw [Nat.pow_succ] at bound
        omega
      have width_pos : 0 < width := by
        rcases Nat.eq_zero_or_pos width with rfl | h
        · omega
        · exact h
      rw [digits_of_le (Nat.le_of_not_lt small), List.length_append, List.length_singleton]
      exact Nat.succ_le_succ (ih shorter width_pos)

theorem isDigit_of_mem_padded {width n : Nat} {c : Char} (member : c ∈ padded width n) :
    c.isDigit = true := by
  rcases List.mem_append.mp member with zero | digit
  · rw [List.eq_of_mem_replicate zero]
    rfl
  · exact isDigit_of_mem_digits digit

theorem padded_ne_nil (width n : Nat) : padded width n ≠ [] :=
  List.append_ne_nil_of_right_ne_nil _ (digits_ne_nil n)

theorem padded_length {width n : Nat} (bound : n < 10 ^ width) (positive : 0 < width) :
    (padded width n).length = width := by
  have short := digits_length_le bound positive
  simp only [padded, List.length_append, List.length_replicate]
  omega

theorem value_replicate_append (zeros : Nat) (ds : List Char) :
    value (List.replicate zeros '0' ++ ds) = value ds := by
  induction zeros with
  | zero => rfl
  | succ zeros ih => exact ih

theorem value_padded (width n : Nat) : value (padded width n) = n := by
  rw [padded, value_replicate_append, value_digits]

section Runs

variable {ds rest : List Char}

/-- What follows a run of digits does not go on with one. -/
def StopsDigits (rest : List Char) : Prop := ∀ c ∈ rest.head?, c.isDigit = false

theorem StopsDigits.takeWhile (stops : StopsDigits rest) : rest.takeWhile Char.isDigit = [] := by
  cases rest with
  | nil => rfl
  | cons c rest => simp [stops c rfl]

theorem StopsDigits.dropWhile (stops : StopsDigits rest) : rest.dropWhile Char.isDigit = rest := by
  cases rest with
  | nil => rfl
  | cons c rest => simp [stops c rfl]

theorem takeWhile_append_of_stops (ds : List Char) (stops : StopsDigits rest) :
    (ds ++ rest).takeWhile Char.isDigit = ds.takeWhile Char.isDigit := by
  induction ds with
  | nil => exact stops.takeWhile
  | cons d ds ih => cases digit : d.isDigit <;> simp [digit, ih]

theorem dropWhile_append_of_stops (ds : List Char) (stops : StopsDigits rest) :
    (ds ++ rest).dropWhile Char.isDigit = ds.dropWhile Char.isDigit ++ rest := by
  induction ds with
  | nil => exact stops.dropWhile
  | cons d ds ih => cases digit : d.isDigit <;> simp [digit, ih]

/-- A whole run comes off in one piece. -/
theorem takeWhile_run_append (all : ∀ c ∈ ds, c.isDigit = true) (stops : StopsDigits rest) :
    (ds ++ rest).takeWhile Char.isDigit = ds := by
  rw [takeWhile_append_of_stops ds stops]
  exact List.takeWhile_eq_self_iff.mpr all

end Runs

end FleetHealth.Decimal
