import FleetHealth.Store
import FleetHealth.Proofs.Binary64Sums
import FleetHealth.Proofs.Buckets
/-!
Compensated sums beside plain ones. Where no partial sum is rounded nothing is lost, so the
compensated average is the plain one; a sum from zero is never the negative zero, which alone would
tell a finite double from another of the same number.
-/
namespace FleetHealth

namespace Binary64

open Float.Model Float.Model.UnpackedFloat

section Unpacked

variable {u v : UnpackedFloat}

theorem number_neg (u : UnpackedFloat) : number u.neg = -number u := by
  cases u with
  | notANumber => exact neg_zero.symm
  | infinity s => exact neg_zero.symm
  | zero s => exact neg_zero.symm
  | finite s m e pos =>
    cases s with
    | positive => rfl
    | negative => exact (neg_neg _).symm

theorem isFinite_neg (u : UnpackedFloat) : u.neg.isFinite = u.isFinite := by
  cases u <;> rfl

theorem stored_neg (stored : Stored u) : Stored u.neg := by
  cases u with
  | notANumber => trivial
  | infinity s => trivial
  | zero s => trivial
  | finite s m e pos => exact stored

/-- A difference is a sum with the negated subtrahend. -/
theorem unpacked_sub (u v : UnpackedFloat) :
    UnpackedFloat.sub Format.binary64 u v = UnpackedFloat.add Format.binary64 u v.neg := by
  cases u with
  | notANumber => cases v <;> rfl
  | infinity s => cases v <;> rfl
  | zero s => cases v <;> rfl
  | finite s m e pos =>
    cases v with
    | notANumber => rfl
    | infinity t => rfl
    | zero t => rfl
    | finite t n f pos' =>
      cases t with
      | positive => rfl
      | negative =>
        show UnpackedFloat.normalize Format.binary64 (_ - -_) _ .positive = _
        rw [sub_neg_eq_add]
        rfl

theorem number_ne_zero (s : Sign) {m : ℕ} (e : ℤ) (pos : 0 < m) : number (.finite s m e pos) ≠ 0 := by
  have size : (m : ℚ) * 2 ^ e ≠ 0 :=
    mul_ne_zero (Nat.cast_ne_zero.mpr pos.ne') (zpow_ne_zero e two_ne_zero)
  cases s with
  | positive => exact size
  | negative => exact neg_ne_zero.mpr size

/-- What cancels out gives the positive zero, unless both terms are the negative one. -/
theorem unpacked_add_of_cancel (finite : u.isFinite = true) (finite' : v.isFinite = true)
    (plain : u ≠ .zero .negative ∨ v ≠ .zero .negative) (cancel : number u + number v = 0) :
    UnpackedFloat.add Format.binary64 u v = .zero .positive := by
  cases u with
  | notANumber => cases finite
  | infinity s => cases finite
  | zero s =>
    have none : number (.zero s) = 0 := rfl
    rw [none, zero_add] at cancel
    cases v with
    | notANumber => cases finite'
    | infinity t => cases finite'
    | zero t =>
      cases s with
      | positive => cases t <;> rfl
      | negative =>
        cases t with
        | positive => rfl
        | negative => exact absurd rfl (plain.elim id id)
    | finite t n f pos => exact absurd cancel (number_ne_zero t f pos)
  | finite s m e pos =>
    cases v with
    | notANumber => cases finite'
    | infinity t => cases finite'
    | zero t =>
      have none : number (.zero t) = 0 := rfl
      rw [none, add_zero] at cancel
      exact absurd cancel (number_ne_zero s e pos)
    | finite t n f pos' =>
      rw [number_finite, number_finite, signed_eq_apply s m (min_le_left e f),
        signed_eq_apply t n (min_le_right e f), ← add_mul, ← Int.cast_add] at cancel
      have none := (mul_eq_zero.mp cancel).resolve_right (zpow_ne_zero _ two_ne_zero)
      show UnpackedFloat.normalize Format.binary64 _ _ .positive = _
      rw [Int.cast_eq_zero.mp none]
      rfl

end Unpacked

section Differences

variable {a b c d : Float}

/-- The double is the negative zero. -/
def IsNegZero (a : Float) : Prop := a.toModel.unpack = .zero .negative

theorem worth_neg (p : ℤ ×ₗ ℤ ×ₗ ℤ) : worth (-p) = -worth p := by
  simp [worth]

theorem Rounded.neg {x : ℚ} {p : ℤ ×ₗ ℤ ×ₗ ℤ} (rounded : Rounded x p) : Rounded (-x) (-p) := by
  obtain ⟨s, k, r, rounds, rfl⟩ := rounded
  cases s with
  | positive =>
    have same : signed .negative (-x) = x := neg_neg x
    exact ⟨.negative, k, r, same.symm ▸ rounds, rfl⟩
  | negative => exact ⟨.positive, k, r, rounds, neg_neg _⟩

theorem rounded_sub (finite : a.isFinite = true) (finite' : b.isFinite = true) :
    Rounded (value a - value b) (stand (a - b)) := by
  have rounded := rounded_pack_add (stored_unpack a) (stored_neg (stored_unpack b)) finite
    ((isFinite_neg _).trans finite')
  rw [number_neg, ← unpacked_sub, ← sub_eq_add_neg] at rounded
  exact rounded

theorem sub_isNaN (number : a.isNaN = false) (finite : b.isFinite = true) :
    (a - b).isNaN = false := by
  have negated := unpacked_add_isNaN number ((isFinite_neg b.toModel.unpack).trans finite)
  rw [← unpacked_sub] at negated
  exact (unpack_pack_isNaN _).trans negated

theorem stand_of_isFinite (finite : a.isFinite = true) (s : Sign) : stand a ≠ side s top := by
  intro infinite
  have finite : a.toModel.unpack.isFinite = true := finite
  rw [eq_infinity infinite] at finite
  cases finite

/-- A difference that is the number of a negated double is that number. -/
theorem sub_exact (finite : a.isFinite = true) (finite' : b.isFinite = true)
    (result : d.isFinite = true) (exact : value a - value b = -value d) :
    (a - b).isFinite = true ∧ value (a - b) = -value d := by
  have rounded := rounded_sub finite finite'
  rw [exact] at rounded
  have same : stand (a - b) = -stand d := rounded.unique (rounded_value result).neg
  have above : stand (a - b) ≠ -top := by
    rw [same]
    exact fun infinite => stand_of_isFinite result .positive (neg_injective infinite)
  have below : stand (a - b) ≠ top := by
    rw [same]
    exact fun infinite => stand_of_isFinite result .negative (neg_eq_iff_eq_neg.mp infinite)
  constructor
  · exact finite_of_between (sub_isNaN (isNaN_of_isFinite finite) finite') above below
  · rw [value, ← worth_place, ← stand, same, worth_neg, value, ← worth_place]
    rfl

theorem add_of_cancel (finite : a.isFinite = true) (finite' : b.isFinite = true)
    (plain : ¬IsNegZero a ∨ ¬IsNegZero b) (cancel : value a + value b = 0) : a + b = 0.0 := by
  have sum := unpacked_add_of_cancel finite finite' plain cancel
  show (⟨Float.Model.pack (UnpackedFloat.add Format.binary64 _ _)⟩ : Float) = _
  rw [sum]
  rfl

theorem sub_of_cancel (finite : a.isFinite = true) (finite' : b.isFinite = true)
    (plain : ¬IsNegZero a) (cancel : value a - value b = 0) : a - b = 0.0 := by
  have terms : value a + number b.toModel.unpack.neg = 0 := by
    rw [number_neg, ← sub_eq_add_neg]
    exact cancel
  have sum := unpacked_add_of_cancel finite ((isFinite_neg b.toModel.unpack).trans finite')
    (.inl plain) terms
  show (⟨Float.Model.pack (UnpackedFloat.sub Format.binary64 _ _)⟩ : Float) = _
  rw [unpacked_sub, sum]
  rfl

theorem add_zero_of_plain (finite : a.isFinite = true) (plain : ¬IsNegZero a) : a + 0.0 = a := by
  have sum : UnpackedFloat.add Format.binary64 a.toModel.unpack (0.0 : Float).toModel.unpack =
      a.toModel.unpack := by
    have finite : a.toModel.unpack.isFinite = true := finite
    have zero : (0.0 : Float).toModel.unpack = .zero .positive := rfl
    unfold IsNegZero at plain
    rw [zero]
    cases unpacked : a.toModel.unpack with
    | notANumber =>
      rw [unpacked] at finite
      cases finite
    | infinity s =>
      rw [unpacked] at finite
      cases finite
    | zero s =>
      cases s with
      | positive => rfl
      | negative => exact absurd unpacked plain
    | finite s m e pos => rfl
  show (⟨Float.Model.pack (UnpackedFloat.add Format.binary64 _ _)⟩ : Float) = _
  rw [sum, pack_unpack]

theorem value_of_isNegZero (negative : IsNegZero a) : value a = 0 := by
  rw [value, negative]
  rfl

/-- A sum of which nothing is rounded away leaves nothing behind of either term. -/
theorem loss_of_exact (finite : a.isFinite = true) (finite' : b.isFinite = true)
    (result : c.isFinite = true) (exact : value c = value a + value b)
    (plain : ¬IsNegZero a ∨ ¬IsNegZero b) : a - c + b = 0.0 := by
  have rest : value a - value c = -value b := by rw [exact, sub_add_cancel_left]
  obtain ⟨remains, number⟩ := sub_exact finite result finite' rest
  have cancel : value (a - c) + value b = 0 := by rw [number, neg_add_cancel]
  apply add_of_cancel remains finite' _ cancel
  by_cases negative : IsNegZero b
  · left
    have none : value a - value c = 0 := by rw [rest, value_of_isNegZero negative, neg_zero]
    rw [sub_of_cancel finite result (plain.resolve_right (not_not.mpr negative)) none]
    intro zero
    cases zero
  · exact .inr negative

end Differences
end Binary64

namespace CompensatedSum

open Binary64

def ofValues (values : List Float) : CompensatedSum := values.foldl add empty

theorem foldl_add (values : List Float) (s : CompensatedSum) :
    (values.foldl add s).sum = values.foldl (· + ·) s.sum ∧
      (values.foldl add s).count = s.count + values.length := by
  induction values generalizing s with
  | nil => exact ⟨rfl, rfl⟩
  | cons v rest ih =>
    obtain ⟨sum, count⟩ := ih (s.add v)
    refine ⟨sum, count.trans ?_⟩
    rw [List.length_cons]
    show s.count + 1 + rest.length = _
    omega

/-- A sum of the values of which nothing is lost. -/
structure Lossless (values : List Float) (s : CompensatedSum) : Prop where
  finite : s.sum.isFinite = true
  plain : ¬IsNegZero s.sum
  whole : value s.sum = (values.map value).sum
  lost : s.lost = 0.0

variable {values : List Float} {s : CompensatedSum}

theorem Lossless.add (lossless : Lossless values s) {v d : Float} (finite : v.isFinite = true)
    (result : d.isFinite = true) (exact : value d = ((values ++ [v]).map value).sum) :
    Lossless (values ++ [v]) (s.add v) := by
  obtain ⟨sum, plain, whole, lost⟩ := lossless
  rw [List.map_append, List.sum_append, ← whole, List.map_singleton, List.sum_singleton] at exact
  obtain ⟨next, number⟩ := add_exact sum finite result exact.symm
  rw [exact] at number
  have loss : (s.add v).lost = s.lost + 0.0 := by
    show s.lost + (if v.abs < s.sum.abs then s.sum - (s.sum + v) + v
      else v - (s.sum + v) + s.sum) = _
    split
    case isTrue => rw [loss_of_exact sum finite next number (.inl plain)]
    case isFalse =>
      rw [add_comm] at number
      rw [loss_of_exact finite sum next number (.inr plain)]
  refine ⟨next, ?_, ?_, ?_⟩
  · intro negative
    have cancel := number.symm.trans (value_of_isNegZero negative)
    have zero := add_of_cancel sum finite (.inl plain) cancel
    have negative : IsNegZero (s.sum + v) := negative
    rw [zero] at negative
    cases negative
  · rw [List.map_append, List.sum_append, ← whole, List.map_singleton, List.sum_singleton]
    exact number
  · rw [loss, lost]
    rfl

/-- Nothing is lost of values no partial sum of which is rounded. -/
theorem lossless_of_exact (finite : ∀ v ∈ values, v.isFinite = true)
    (exact : SumsExactly values) : Lossless values (ofValues values) := by
  induction values using List.reverseRecOn with
  | nil => exact ⟨rfl, nofun, rfl, rfl⟩
  | append_singleton values v ih =>
    have lossless := ih (fun x inside => finite x (List.mem_append_left [v] inside))
      (fun front before => exact front (before.trans (List.prefix_append values [v])))
    have last := finite v (List.mem_append_right values List.mem_cons_self)
    obtain ⟨d, result, same⟩ := exact (values ++ [v]) List.prefix_rfl
    rw [ofValues, List.foldl_append]
    exact lossless.add last result same

theorem average_of_exact (finite : ∀ v ∈ values, v.isFinite = true)
    (exact : SumsExactly values) : (ofValues values).average = Bucket.mean values := by
  obtain ⟨sum, plain, _, lost⟩ := lossless_of_exact finite exact
  obtain ⟨folded, count⟩ := foldl_add values empty
  have total : (ofValues values).total = values.foldl (· + ·) 0.0 := by
    have known : (0.0 : Float).isFinite = true := rfl
    rw [CompensatedSum.total, lost, if_pos known, add_zero_of_plain sum plain]
    exact folded
  have size : (ofValues values).count = values.length := count.trans (Nat.zero_add _)
  rw [average, total, size, Bucket.mean]

end CompensatedSum

/-- What a store answers as the average of some values. -/
def Store.mean (values : List Float) : Float := groupAverage (.ofValues values)

/-- Of values that add up exactly a store answers the sum from zero, over the number. -/
theorem Store.mean_of_exact {values : List Float} (filled : values ≠ [])
    (few : values.length ≤ 2 ^ 64) (finite : ∀ v ∈ values, v.isFinite = true)
    (exact : Binary64.SumsExactly values) : mean values = Bucket.mean values := by
  have average := CompensatedSum.average_of_exact finite exact
  have sum : (values.foldl (· + ·) 0.0).isFinite = true :=
    (CompensatedSum.foldl_add values .empty).1 ▸
      (CompensatedSum.lossless_of_exact finite exact).finite
  have number : (Bucket.mean values).isNaN = false :=
    Binary64.div_count_isNaN (Binary64.isNaN_of_isFinite sum) (List.length_pos_iff.mpr filled) few
  rw [mean, groupAverage, average, number]
  rfl

/- A sum that is rounded on the way; what was lost comes back at the end. -/
example : Store.mean [0.1, 0.2, 0.3] = 0.19999999999999998 ∧
    Bucket.mean [0.1, 0.2, 0.3] = 0.20000000000000004 := by decide +kernel

end FleetHealth
