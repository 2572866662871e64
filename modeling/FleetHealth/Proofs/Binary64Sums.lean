import Mathlib.Algebra.BigOperators.Ring.Finset
import FleetHealth.Proofs.Binary64Quotients
import FleetHealth.Proofs.Tallies
/-!
Sums of doubles. A finite double is a rational number, and a sum or a quotient of doubles is that of
their numbers, rounded. Rounding keeps the order, so of two lists the one with the greater values
has no lesser sum, and nothing is rounded away where every partial sum is the number of a double.
-/
namespace FleetHealth.Binary64

open Float.Model Float.Model.UnpackedFloat

def signed (s : Sign) (x : ℚ) : ℚ :=
  match s with
  | .positive => x
  | .negative => -x

def number : UnpackedFloat → ℚ
  | .finite s m e _ => signed s (m * 2 ^ e)
  | _ => 0

theorem number_finite (s : Sign) {m : ℕ} (e : ℤ) (pos : 0 < m) :
    number (.finite s m e pos) = signed s (m * 2 ^ e) := rfl

/-- The number that a finite double is. -/
def value (a : Float) : ℚ := number a.toModel.unpack

/- The number at a place. -/
def worth (p : ℤ ×ₗ ℤ ×ₗ ℤ) : ℚ :=
  (ofLex (ofLex p).2).2 * 2 ^ ((ofLex p).1 * (ofLex (ofLex p).2).1)

theorem worth_eq_zero (k e : ℤ) : worth (toLex (k, toLex (e, 0))) = 0 := by
  show ((0 : ℤ) : ℚ) * _ = 0
  rw [Int.cast_zero, zero_mul]

theorem worth_place (u : UnpackedFloat) : worth (place u) = number u := by
  cases u with
  | notANumber => exact worth_eq_zero 0 0
  | infinity s => exact worth_eq_zero (s.apply 2) 0
  | zero s => exact worth_eq_zero 0 0
  | finite s m e pos =>
    show ((s.apply m : ℤ) : ℚ) * 2 ^ (s.apply 1 * s.apply e) = signed s (m * 2 ^ e)
    cases s <;> simp [signed]

/- A number is rounded to a place on the side of its sign. -/
def Rounded (x : ℚ) (p : ℤ ×ₗ ℤ ×ₗ ℤ) : Prop :=
  ∃ s k r, RoundsTo (signed s x) k r ∧ p = side s (settle (carry k r))

section Rounding

variable {x y : ℚ} {k : ℤ} {r : ℕ} {p q : ℤ ×ₗ ℤ ×ₗ ℤ}

theorem RoundsTo.nonneg (rounds : RoundsTo x k r) : 0 ≤ x := by
  obtain ⟨_, em, tells, _⟩ := rounds
  have floor : 0 ≤ x / 2 ^ k := (Nat.cast_nonneg _).trans (tells_bounds tells).1
  rwa [le_div_iff₀ (zpow_pos two_pos k), zero_mul] at floor

theorem roundsTo_zero : RoundsTo 0 (-1074) 0 :=
  ⟨⟨le_rfl, zpow_pos two_pos _, .inl rfl⟩, ⟨0, false, false⟩, by simp [Tells], rfl⟩

theorem RoundsTo.settle_of_nonpos (rounds : RoundsTo x k r) (none : x ≤ 0) :
    settle (carry k r) = 0 :=
  le_antisymm (settle_carry_mono rounds roundsTo_zero none) (settle_nonneg _)

theorem rounded_zero : Rounded 0 0 := ⟨.positive, -1074, 0, roundsTo_zero, rfl⟩

theorem rounded_pack_zero (s : Sign) : Rounded 0 (place (Float.Model.pack (.zero s)).unpack) := by
  cases s <;> exact rounded_zero

/-- Of two numbers the greater one is rounded to no lower place. -/
theorem Rounded.mono (rounded : Rounded x p) (rounded' : Rounded y q) (less : x ≤ y) : p ≤ q := by
  obtain ⟨s, k, r, rounds, rfl⟩ := rounded
  obtain ⟨t, l, r', rounds', rfl⟩ := rounded'
  have sign := rounds.nonneg
  have sign' := rounds'.nonneg
  cases s <;> cases t <;> simp only [signed, side] at *
  · exact neg_le_neg (settle_carry_mono rounds' rounds (neg_le_neg less))
  · exact (neg_nonpos.mpr (settle_nonneg _)).trans (settle_nonneg _)
  · -- both numbers are zero
    rw [rounds.settle_of_nonpos (by linarith), rounds'.settle_of_nonpos (by linarith), neg_zero]
  · exact settle_carry_mono rounds rounds' less

theorem Rounded.unique (rounded : Rounded x p) (rounded' : Rounded x q) : p = q :=
  le_antisymm (rounded.mono rounded' le_rfl) (rounded'.mono rounded le_rfl)

/- A mantissa in its place is not rounded. -/
theorem roundsTo_of_canonical {m : ℕ} {e : ℤ} (canonical : Canonical m e) :
    RoundsTo (m * 2 ^ e) e m := by
  have scale : (0 : ℚ) < 2 ^ e := zpow_pos two_pos e
  have upper : (m : ℚ) < 2 ^ (53 : ℤ) := by
    have : m < 2 ^ 53 := by rcases canonical with ⟨⟨_, _⟩, _⟩ | ⟨_, _⟩ <;> omega
    exact_mod_cast this
  refine ⟨⟨?_, ?_, ?_⟩, ⟨m, false, false⟩, ?_, rfl⟩
  · rcases canonical with ⟨_, low⟩ | ⟨_, rfl⟩ <;> omega
  · rw [add_comm, zpow_add₀ two_ne_zero]
    exact mul_lt_mul_of_pos_right upper scale
  · rcases canonical with ⟨full, _⟩ | ⟨_, least⟩
    · have lower : (2 : ℚ) ^ (52 : ℤ) ≤ m := by exact_mod_cast full.1
      rw [add_comm, zpow_add₀ two_ne_zero]
      exact .inr (mul_le_mul_of_nonneg_right lower scale.le)
    · exact .inl least
  · exact mul_div_cancel_right₀ _ scale.ne'

theorem carry_of_canonical {m : ℕ} {e : ℤ} (canonical : Canonical m e) : carry e m = (e, m) := by
  refine if_neg ?_
  rcases canonical with ⟨⟨_, _⟩, _⟩ | ⟨_, _⟩ <;> omega

theorem signed_signed (s : Sign) (x : ℚ) : signed s (signed s x) = x := by
  cases s <;> simp [signed]

/- What is finite is where its own number is rounded to. -/
theorem rounded_pack {u : UnpackedFloat} (stored : Stored u) (finite : u.isFinite = true) :
    Rounded (number u) (place (Float.Model.pack u).unpack) := by
  cases u with
  | notANumber => cases finite
  | infinity s => cases finite
  | zero s => exact rounded_pack_zero s
  | finite s m e pos =>
    refine ⟨s, e, m, ?_, ?_⟩
    · rw [number_finite, signed_signed]
      exact roundsTo_of_canonical stored
    · rw [place_pack_finite stored, carry_of_canonical stored]

/- Before it is rounded, a mantissa gets the bits it needs. -/
theorem rounded_pack_round {m : ℕ} (pos : 0 < m) (e : ℤ) (s : Sign) :
    Rounded (signed s (m * 2 ^ e))
      (place (Float.Model.pack (UnpackedFloat.round Format.binary64 s m e)).unpack) := by
  let amount : ℕ := (e - target m e).toNat
  have tells : Tells (ExtendedMantissa.ofMantissaAndAccuracy (m <<< amount) .exact)
      ((m * 2 ^ e : ℚ) / 2 ^ (e - amount)) := by
    show (m * 2 ^ e : ℚ) / 2 ^ (e - amount) = (m <<< amount : ℕ)
    rw [Nat.shiftLeft_eq, zpow_sub₀ two_ne_zero, zpow_natCast]
    push_cast
    field_simp
  have enough : e - amount ≤ -1074 ∨ 2 ^ 52 ≤ m <<< amount := by
    by_cases low : e - amount ≤ -1074
    · exact .inl low
    · refine .inr ?_
      calc 2 ^ 52 ≤ 2 ^ (m.log2 + amount) :=
            Nat.pow_le_pow_right two_pos (by unfold amount target at *; omega)
        _ = 2 ^ m.log2 * 2 ^ amount := Nat.pow_add _ _ _
        _ ≤ m * 2 ^ amount := Nat.mul_le_mul_right _ (Nat.log2_self_le pos.ne')
        _ = m <<< amount := (Nat.shiftLeft_eq _ _).symm
  obtain ⟨k, r, rounds, placed⟩ := place_pack_round tells enough s
  exact ⟨s, k, r, by rwa [signed_signed], placed⟩

theorem rounded_pack_normalize (m e : ℤ) (s : Sign) :
    Rounded (m * 2 ^ e)
      (place (Float.Model.pack (UnpackedFloat.normalize Format.binary64 m e s)).unpack) := by
  rcases lt_trichotomy m 0 with negative | rfl | positive
  · have size : (m : ℚ) = -((-m).toNat : ℕ) := by
      have : (((-m).toNat : ℕ) : ℤ) = -m := Int.toNat_of_nonneg (by omega)
      exact_mod_cast (by omega : m = -(((-m).toNat : ℕ) : ℤ))
    rw [UnpackedFloat.normalize, Int.compare_eq_lt.mpr negative, size, neg_mul]
    exact rounded_pack_round (by omega) e .negative
  · rw [UnpackedFloat.normalize, Int.compare_eq_eq.mpr rfl, Int.cast_zero, zero_mul]
    exact rounded_pack_zero s
  · have size : (m : ℚ) = (m.toNat : ℕ) := by
      exact_mod_cast (Int.toNat_of_nonneg positive.le).symm
    rw [UnpackedFloat.normalize, Int.compare_eq_gt.mpr positive, size]
    exact rounded_pack_round (by omega) e .positive

/- A mantissa moved up to a lower exponent is the same number. -/
theorem signed_eq_apply (s : Sign) (m : ℕ) {e k : ℤ} (lower : k ≤ e) :
    signed s (m * 2 ^ e) = (s.apply ((m <<< (e - k).toNat : ℕ) : ℤ) : ℤ) * 2 ^ k := by
  have split : (2 : ℚ) ^ e = 2 ^ (e - k).toNat * 2 ^ k := by
    rw [← zpow_natCast, Int.toNat_of_nonneg (by omega), ← zpow_add₀ two_ne_zero, sub_add_cancel]
  rw [Nat.shiftLeft_eq, split]
  cases s <;> simp [signed, mul_assoc]

theorem rounded_pack_add {u v : UnpackedFloat} (stored : Stored u) (stored' : Stored v)
    (finite : u.isFinite = true) (finite' : v.isFinite = true) :
    Rounded (number u + number v)
      (place (Float.Model.pack (UnpackedFloat.add Format.binary64 u v)).unpack) := by
  cases u with
  | notANumber => cases finite
  | infinity s => cases finite
  | zero s =>
    have none : number (.zero s) = 0 := rfl
    rw [none, zero_add]
    cases v with
    | notANumber => cases finite'
    | infinity t => cases finite'
    | zero t => cases s <;> cases t <;> exact rounded_zero
    | finite t n f pos => exact rounded_pack stored' rfl
  | finite s m e pos =>
    cases v with
    | notANumber => cases finite'
    | infinity t => cases finite'
    | zero t =>
      have none : number (.zero t) = 0 := rfl
      rw [none, add_zero]
      exact rounded_pack stored rfl
    | finite t n f pos' =>
      rw [number_finite, number_finite, signed_eq_apply s m (min_le_left e f),
        signed_eq_apply t n (min_le_right e f), ← add_mul, ← Int.cast_add]
      exact rounded_pack_normalize _ _ .positive

theorem rounded_pack_div {u : UnpackedFloat} (finite : u.isFinite = true) {n : ℕ} {f : ℤ}
    (divisor : 0 < n) : Rounded (number u / (n * 2 ^ f)) (place (Float.Model.pack
      (UnpackedFloat.div Format.binary64 u (.finite .positive n f divisor))).unpack) := by
  cases u with
  | notANumber => cases finite
  | infinity s => cases finite
  | zero s =>
    have none : number (.zero s) = 0 := rfl
    have quotient : UnpackedFloat.div Format.binary64 (.zero s) (.finite .positive n f divisor) =
        .zero (s / .positive) := rfl
    rw [none, zero_div, quotient]
    exact rounded_pack_zero _
  | finite s m e pos =>
    obtain ⟨k, r, rounds, placed⟩ := place_pack_div pos divisor s .positive
    refine ⟨s, k, r, ?_, ?_⟩
    · show RoundsTo (signed s (signed s (m * 2 ^ e) / (n * 2 ^ f))) k r
      cases s <;> simpa [signed, neg_div] using rounds
    · rw [placed]
      cases s <;> rfl

end Rounding

section Floats

variable {a b c d : Float}

theorem isNaN_of_isFinite (finite : a.isFinite = true) : a.isNaN = false := by
  have finite : a.toModel.unpack.isFinite = true := finite
  show a.toModel.unpack.isNaN = false
  cases unpacked : a.toModel.unpack with
  | notANumber =>
    rw [unpacked] at finite
    cases finite
  | infinity s => rfl
  | zero s => rfl
  | finite s m e pos => rfl

theorem place_pack_unpack (a : Float) :
    place (Float.Model.pack a.toModel.unpack).unpack = stand a := by
  have stored := stored_unpack a
  unfold stand
  cases unpacked : a.toModel.unpack with
  | notANumber => rfl
  | infinity s => cases s <;> rfl
  | zero s => cases s <;> rfl
  | finite s m e pos =>
    rw [unpacked] at stored
    rw [place_pack_finite stored, settle, if_neg pos.ne', if_pos (canonical_unpack unpacked).2]
    cases s <;> rfl

theorem rounded_value (finite : a.isFinite = true) : Rounded (value a) (stand a) :=
  place_pack_unpack a ▸ rounded_pack (stored_unpack a) finite

theorem rounded_add (finite : a.isFinite = true) (finite' : b.isFinite = true) :
    Rounded (value a + value b) (stand (a + b)) :=
  rounded_pack_add (stored_unpack a) (stored_unpack b) finite finite'

theorem value_congr (same : stand a = stand b) : value a = value b := by
  rw [value, value, ← worth_place, ← worth_place]
  exact congrArg worth same

/-- Finite doubles are in the order of their numbers. -/
theorem le_iff_value_le (finite : a.isFinite = true) (finite' : b.isFinite = true) :
    a ≤ b ↔ value a ≤ value b := by
  constructor
  · intro order
    obtain ⟨_, _, places⟩ := le_iff.mp order
    by_contra greater
    have back := (rounded_value finite').mono (rounded_value finite) (not_le.mp greater).le
    exact greater (value_congr (le_antisymm places back)).le
  · intro order
    exact le_iff.mpr ⟨isNaN_of_isFinite finite, isNaN_of_isFinite finite',
      (rounded_value finite).mono (rounded_value finite') order⟩

theorem place_bounds (u : UnpackedFloat) : -top ≤ place u ∧ place u ≤ top := by
  have below : -top ≤ 0 := neg_nonpos.mpr zero_lt_top.le
  have low : -size u ≤ 0 := neg_nonpos.mpr (size_nonneg u)
  rw [place_eq_side]
  cases signOf u with
  | positive => exact ⟨below.trans (size_nonneg u), size_le_top u⟩
  | negative => exact ⟨neg_le_neg (size_le_top u), low.trans zero_lt_top.le⟩

theorem eq_infinity {u : UnpackedFloat} {s : Sign} (infinite : place u = side s top) :
    u = .infinity s := by
  have first : (ofLex (place u)).1 = (ofLex (side s top)).1 :=
    congrArg (fun p => (ofLex p).1) infinite
  cases u with
  | notANumber => cases s <;> cases first
  | infinity t =>
    cases s with
    | positive =>
      cases t with
      | positive => rfl
      | negative => cases first
    | negative =>
      cases t with
      | positive => cases first
      | negative => rfl
  | zero t => cases s <;> cases first
  | finite t m e pos => cases s <;> cases t <;> cases first

theorem infinity_add {v : UnpackedFloat} (finite : v.isFinite = true) (s : Sign) :
    UnpackedFloat.add Format.binary64 (.infinity s) v = .infinity s := by
  cases v with
  | notANumber => cases finite
  | infinity t => cases finite
  | zero t => rfl
  | finite t m e pos => rfl

/- Nothing finite that is added to the infinite changes it. -/
theorem add_of_infinite {s : Sign} (infinite : stand a = side s top) (finite : c.isFinite = true) :
    stand (a + c) = side s top := by
  show place (Float.Model.pack (UnpackedFloat.add Format.binary64 a.toModel.unpack
    c.toModel.unpack)).unpack = _
  rw [eq_infinity infinite, infinity_add finite]
  cases s <;> rfl

theorem finite_of_between (number : a.isNaN = false) (above : stand a ≠ -top)
    (below : stand a ≠ top) : a.isFinite = true := by
  have number : a.toModel.unpack.isNaN = false := number
  show a.toModel.unpack.isFinite = true
  unfold stand at above below
  generalize a.toModel.unpack = u at number above below
  cases u with
  | notANumber => cases number
  | infinity s =>
    cases s with
    | positive => exact absurd rfl below
    | negative => exact absurd rfl above
  | zero s => rfl
  | finite s m e pos => rfl

/-- Of finite terms the greater one adds no less, also to what has overflowed. -/
theorem add_mono (order : a ≤ b) (order' : c ≤ d) (finite : c.isFinite = true)
    (finite' : d.isFinite = true) : a + c ≤ b + d := by
  obtain ⟨number, number', places⟩ := le_iff.mp order
  refine le_iff.mpr ⟨add_isNaN number finite, add_isNaN number' finite', ?_⟩
  by_cases low : stand a = -top
  · rw [add_of_infinite (s := .negative) low finite]
    exact (place_bounds _).1
  by_cases high : stand b = top
  · rw [add_of_infinite (s := .positive) high finite']
    exact (place_bounds _).2
  have below : stand a ≠ top := fun same => high (le_antisymm (place_bounds _).2 (same ▸ places))
  have above : stand b ≠ -top := fun same => low (le_antisymm (same ▸ places) (place_bounds _).1)
  have left := finite_of_between number low below
  have right := finite_of_between number' above high
  exact (rounded_add left finite).mono (rounded_add right finite')
    (add_le_add ((le_iff_value_le left right).mp order)
      ((le_iff_value_le finite finite').mp order'))

/-- A sum that is the number of a double is that double's number. -/
theorem add_exact (finite : a.isFinite = true) (finite' : b.isFinite = true)
    (result : d.isFinite = true) (exact : value a + value b = value d) :
    (a + b).isFinite = true ∧ value (a + b) = value d := by
  have rounded := rounded_add finite finite'
  rw [exact] at rounded
  have same : stand (a + b) = stand d := rounded.unique (rounded_value result)
  have outside (s : Sign) : stand d ≠ side s top := by
    intro infinite
    have finite : d.toModel.unpack.isFinite = true := result
    rw [eq_infinity infinite] at finite
    cases finite
  refine ⟨finite_of_between (add_isNaN (isNaN_of_isFinite finite) finite') ?_ ?_, value_congr same⟩
  · rw [same]
    exact outside .negative
  · rw [same]
    exact outside .positive

theorem whole_mantissa {n : ℕ} (pos : 0 < n) (small : n < 2 ^ 53) :
    ((n * 2 ^ (52 - n.log2) : ℕ) * 2 ^ ((n.log2 : ℤ) - 52) : ℚ) = n := by
  have place : n.log2 < 53 := (Nat.log2_lt pos.ne').mpr small
  have none : ((52 - n.log2 : ℕ) : ℤ) + (n.log2 - 52) = 0 := by omega
  push_cast
  rw [mul_assoc, ← zpow_natCast, ← zpow_add₀ two_ne_zero, none, zpow_zero, mul_one]

/-- Whole numbers of at most 53 bits are the numbers of their doubles. -/
theorem value_whole {n : ℕ} (small : n < 2 ^ 53) : value n.toFloat = n := by
  rcases Nat.eq_zero_or_pos n with rfl | pos
  · rfl
  · rw [value, unpack_whole pos small]
    exact whole_mantissa pos small

/-- A quotient by a count is that of the numbers, rounded. -/
theorem rounded_div_count (finite : a.isFinite = true) {n : ℕ} (pos : 0 < n)
    (small : n < 2 ^ 53) : Rounded (value a / n) (stand (a / n.toFloat)) := by
  have rounded := rounded_pack_div (f := n.log2 - 52) finite (full_pos (full_shift pos small))
  rw [whole_mantissa pos small, ← unpack_whole pos small] at rounded
  exact rounded

end Floats

section Sums

/-- Every partial sum is the number of a double. -/
def SumsExactly (xs : List Float) : Prop :=
  ∀ front, front <+: xs → ∃ d : Float, d.isFinite = true ∧ value d = (front.map value).sum

variable {xs ys : List Float}

theorem foldl_add_le {a b : Float}
    (terms : List.Forall₂ (fun x y => x ≤ y ∧ x.isFinite = true ∧ y.isFinite = true) xs ys)
    (start : a ≤ b) : xs.foldl (· + ·) a ≤ ys.foldl (· + ·) b := by
  induction terms generalizing a b with
  | nil => exact start
  | cons term _ ih => exact ih (add_mono start term.1 term.2.1 term.2.2)

/-- Of finite values the greater ones have no lesser sum. -/
theorem sumFromFirst_le
    (terms : List.Forall₂ (fun x y => x ≤ y ∧ x.isFinite = true ∧ y.isFinite = true) xs ys) :
    sumFromFirst xs ≤ sumFromFirst ys := by
  cases terms with
  | nil => exact le_refl rfl
  | cons first rest => exact foldl_add_le rest first.1

theorem sumFromFirst_exact (finite : ∀ x ∈ xs, x.isFinite = true) (exact : SumsExactly xs) :
    (sumFromFirst xs).isFinite = true ∧ value (sumFromFirst xs) = (xs.map value).sum := by
  induction xs using List.reverseRecOn with
  | nil => exact ⟨rfl, rfl⟩
  | append_singleton xs x ih =>
    obtain ⟨sum, total⟩ := ih (fun y inside => finite y (List.mem_append_left [x] inside))
      (fun front before => exact front (before.trans (List.prefix_append xs [x])))
    have last := finite x (List.mem_append_right xs List.mem_cons_self)
    obtain ⟨d, result, same⟩ := exact (xs ++ [x]) List.prefix_rfl
    have split : ((xs ++ [x]).map value).sum = value (sumFromFirst xs) + value x := by
      rw [List.map_append, List.sum_append, total]
      simp
    by_cases filled : xs = []
    · subst filled
      exact ⟨last, (List.sum_singleton).symm⟩
    · obtain ⟨finite, whole⟩ := add_exact sum last result (split.symm.trans same.symm)
      rw [sumFromFirst_concat filled]
      exact ⟨finite, whole.trans same⟩

/-- Whole numbers add up exactly while the sum has at most 53 bits. -/
theorem sumsExactly_of_whole {ns : List ℕ} (small : ns.sum < 2 ^ 53) :
    SumsExactly (ns.map Nat.toFloat) := by
  intro front before
  obtain ⟨ms, shorter, rfl⟩ := List.prefix_map_iff.mp before
  have lesser : ms.sum ≤ ns.sum := shorter.sublist.sum_le_sum (fun _ _ => Nat.zero_le _)
  have values : (ms.map Nat.toFloat).map value = ms.map Nat.cast := by
    rw [List.map_map]
    refine List.map_congr_left (fun m inside => value_whole ?_)
    have := List.single_le_sum (fun _ _ => Nat.zero_le _) m inside
    omega
  refine ⟨ms.sum.toFloat, ?_, ?_⟩
  · rcases Nat.eq_zero_or_pos ms.sum with zero | pos
    · rw [zero]
      rfl
    · exact whole_isFinite pos (by omega)
  · rw [value_whole (by omega), values, Nat.cast_list_sum]

end Sums

end FleetHealth.Binary64
