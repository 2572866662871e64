import Mathlib.Data.Prod.Lex
import FleetHealth.Proofs.Binary64
/-!
The order of doubles. Numbers compare as their places do: by sign, infinities outside, then by
exponent and mantissa. What is not a number compares with nothing.
-/
namespace FleetHealth.Binary64

open Float.Model Float.Model.UnpackedFloat

@[simp]
theorem apply_positive (n : ℤ) : Sign.positive.apply n = n := rfl

@[simp]
theorem apply_negative (n : ℤ) : Sign.negative.apply n = -n := rfl

/- Below zero exponents and mantissas count the other way round; both zeros have one place. -/
def place : UnpackedFloat → ℤ ×ₗ ℤ ×ₗ ℤ
  | .notANumber => toLex (0, toLex (0, 0))
  | .infinity s => toLex (s.apply 2, toLex (0, 0))
  | .zero _ => toLex (0, toLex (0, 0))
  | .finite s m e _ => toLex (s.apply 1, toLex (s.apply e, s.apply m))

theorem then_eq_lt_iff {e f : ℤ} {m n : ℕ} :
    (compare e f).then (compare m n) = .lt ↔ e < f ∨ e = f ∧ m < n := by
  rw [Ordering.then_eq_lt, Int.compare_eq_lt, Int.compare_eq_eq, Nat.compare_eq_lt]

theorem then_eq_gt_iff {e f : ℤ} {m n : ℕ} :
    (compare e f).then (compare m n) = .gt ↔ f < e ∨ e = f ∧ n < m := by
  rw [Ordering.then_eq_gt, Int.compare_eq_gt, Int.compare_eq_eq, Nat.compare_eq_gt]

theorem compare_iff_place {u v : UnpackedFloat} (number : u.isNaN = false)
    (number' : v.isNaN = false) : (u.compare v = some .lt ↔ place u < place v) ∧
      (u.compare v = some .gt ↔ place v < place u) := by
  cases u with
  | notANumber => cases number
  | infinity s =>
    cases v with
    | notANumber => cases number'
    | infinity t => cases s <;> cases t <;> decide
    | zero t => cases s <;> dsimp only [UnpackedFloat.compare, place] <;> simp [Prod.Lex.lt_iff]
    | finite t n f pos =>
      cases s <;> cases t <;> dsimp only [UnpackedFloat.compare, place] <;>
        simp [Prod.Lex.lt_iff]
  | zero s =>
    cases v with
    | notANumber => cases number'
    | infinity t => cases t <;> dsimp only [UnpackedFloat.compare, place] <;> simp [Prod.Lex.lt_iff]
    | zero t =>
      dsimp only [UnpackedFloat.compare, place]
      simp
    | finite t n f pos =>
      cases t <;> dsimp only [UnpackedFloat.compare, place] <;> simp [Prod.Lex.lt_iff]
  | finite s m e pos =>
    cases v with
    | notANumber => cases number'
    | infinity t =>
      cases s <;> cases t <;> dsimp only [UnpackedFloat.compare, place] <;>
        simp [Prod.Lex.lt_iff]
    | zero t => cases s <;> dsimp only [UnpackedFloat.compare, place] <;> simp [Prod.Lex.lt_iff]
    | finite t n f pos' =>
      cases s <;> cases t <;> dsimp only [UnpackedFloat.compare, place] <;>
        simp [Prod.Lex.lt_iff, then_eq_lt_iff, then_eq_gt_iff, Ordering.swap_eq_lt,
          Ordering.swap_eq_gt] <;> omega

theorem isSome_compare (u v : UnpackedFloat) : (u.compare v).isSome = (!u.isNaN && !v.isNaN) := by
  cases u with
  | notANumber => rfl
  | infinity s => cases s <;> cases v <;> rfl
  | zero s =>
    cases v with
    | notANumber => rfl
    | infinity t => cases t <;> rfl
    | zero t => rfl
    | finite t n f pos => cases t <;> rfl
  | finite s m e pos =>
    cases v with
    | notANumber => rfl
    | infinity t => cases s <;> cases t <;> rfl
    | zero t => cases s <;> rfl
    | finite t n f pos' => cases s <;> cases t <;> rfl

theorem isSome_compare_iff {u v : UnpackedFloat} :
    (u.compare v).isSome = true ↔ u.isNaN = false ∧ v.isNaN = false := by
  rw [isSome_compare, Bool.and_eq_true, Bool.not_eq_true', Bool.not_eq_true']

section Floats

variable {a b c : Float}

/- The place of a double. -/
def stand (a : Float) : ℤ ×ₗ ℤ ×ₗ ℤ := place a.toModel.unpack

theorem lt_iff : a < b ↔ a.isNaN = false ∧ b.isNaN = false ∧ stand a < stand b := by
  have defined : a < b ↔ a.toModel.unpack.compare b.toModel.unpack = some .lt := by
    show decide ((a.toModel.unpack.compare b.toModel.unpack == some .lt) = true) = true ↔ _
    rw [decide_eq_true_iff, beq_iff_eq]
  rw [defined]
  constructor
  · intro less
    obtain ⟨number, number'⟩ := isSome_compare_iff.mp (Option.isSome_of_eq_some less)
    exact ⟨number, number', (compare_iff_place number number').1.mp less⟩
  · intro h
    obtain ⟨number, number', before⟩ := h
    exact (compare_iff_place number number').1.mpr before

theorem le_iff : a ≤ b ↔ a.isNaN = false ∧ b.isNaN = false ∧ stand a ≤ stand b := by
  have defined : a ≤ b ↔ (a.toModel.unpack.compare b.toModel.unpack).isSome = true ∧
      a.toModel.unpack.compare b.toModel.unpack ≠ some .gt := by
    show decide ((a.toModel.unpack.compare b.toModel.unpack).any Ordering.isLE = true) = true ↔ _
    rw [decide_eq_true_iff]
    cases a.toModel.unpack.compare b.toModel.unpack with
    | none => simp
    | some o => cases o <;> simp
  rw [defined, isSome_compare_iff, and_assoc]
  refine and_congr_right (fun number => and_congr_right (fun number' => ?_))
  rw [ne_eq, (compare_iff_place number number').2, not_lt]
  rfl

theorem beq_iff : (a == b) = true ↔ a ≤ b ∧ b ≤ a := by
  have defined : (a == b) = true ↔ (a.toModel.unpack.compare b.toModel.unpack).isSome = true ∧
      a.toModel.unpack.compare b.toModel.unpack ≠ some .lt ∧
      a.toModel.unpack.compare b.toModel.unpack ≠ some .gt := by
    show (a.toModel.unpack.compare b.toModel.unpack == some .eq) = true ↔ _
    cases a.toModel.unpack.compare b.toModel.unpack with
    | none => simp
    | some o => cases o <;> simp
  rw [defined, isSome_compare_iff, le_iff, le_iff]
  constructor
  · intro h
    obtain ⟨⟨number, number'⟩, not_less, not_greater⟩ := h
    rw [ne_eq, (compare_iff_place number number').1, not_lt] at not_less
    rw [ne_eq, (compare_iff_place number number').2, not_lt] at not_greater
    exact ⟨⟨number, number', not_greater⟩, number', number, not_less⟩
  · intro h
    obtain ⟨⟨number, number', upper⟩, _, _, lower⟩ := h
    rw [ne_eq, ne_eq, (compare_iff_place number number').1, (compare_iff_place number number').2,
      not_lt, not_lt]
    exact ⟨⟨number, number'⟩, lower, upper⟩

theorem le_refl (number : a.isNaN = false) : a ≤ a := le_iff.mpr ⟨number, number, le_rfl⟩

theorem le_trans (first : a ≤ b) (second : b ≤ c) : a ≤ c := by
  obtain ⟨number, _, lower⟩ := le_iff.mp first
  obtain ⟨_, number', upper⟩ := le_iff.mp second
  exact le_iff.mpr ⟨number, number', lower.trans upper⟩

theorem le_of_lt (less : a < b) : a ≤ b := by
  obtain ⟨number, number', before⟩ := lt_iff.mp less
  exact le_iff.mpr ⟨number, number', before.le⟩

theorem le_of_not_lt (number : a.isNaN = false) (number' : b.isNaN = false) (least : ¬b < a) :
    a ≤ b := by
  rw [lt_iff] at least
  exact le_iff.mpr ⟨number, number', not_lt.mp (fun less => least ⟨number', number, less⟩)⟩

theorem lesser_le (number : a.isNaN = false) (number' : b.isNaN = false) :
    (if b < a then b else a) ≤ a ∧ (if b < a then b else a) ≤ b := by
  split
  · rename_i less
    exact ⟨le_of_lt less, le_refl number'⟩
  · rename_i least
    exact ⟨le_refl number, le_of_not_lt number number' least⟩

theorem le_greater (number : a.isNaN = false) (number' : b.isNaN = false) :
    a ≤ (if a < b then b else a) ∧ b ≤ (if a < b then b else a) := by
  split
  · rename_i less
    exact ⟨le_of_lt less, le_refl number'⟩
  · rename_i greatest
    exact ⟨le_refl number, le_of_not_lt number' number greatest⟩

end Floats
end FleetHealth.Binary64
