import Mathlib.Algebra.Order.Field.Power
import Mathlib.Algebra.Order.Monoid.Prod
import Mathlib.Tactic.NormNum
import Mathlib.Tactic.Positivity
import FleetHealth.Proofs.Binary64Rounding
/-!
Division keeps the order of doubles: of two numbers the greater one has the greater quotient by a
positive double, and by the greater of two such divisors the quotient is no greater. A positive
double divided by itself is one, and any double times one is itself. Counts are in the order of
their doubles, and a number divided by a count is a number.
-/
namespace FleetHealth.Binary64

open Float.Model Float.Model.UnpackedFloat

theorem place_pack_div {m n : ℕ} {e f : ℤ} (pos : 0 < m) (divisor : 0 < n) (s t : Sign) :
    ∃ k r, RoundsTo (m * 2 ^ e / (n * 2 ^ f)) k r ∧
      place (Float.Model.pack (UnpackedFloat.div Format.binary64 (.finite s m e pos)
        (.finite t n f divisor))).unpack = side (s / t) (settle (carry k r)) := by
  let exponent : ℤ := min (e - f) (max (m.log2 + 1 + e - (n.log2 + 1 + f) - 53) (-1074))
  let amount : ℕ := (e - f - exponent).toNat
  have scaled : (m * 2 ^ e / (n * 2 ^ f) : ℚ) / 2 ^ exponent = (m * 2 ^ amount : ℕ) / n := by
    have split : (2 : ℚ) ^ e = 2 ^ amount * 2 ^ exponent * 2 ^ f := by
      rw [← zpow_natCast, ← zpow_add₀ two_ne_zero, ← zpow_add₀ two_ne_zero]
      congr 1
      omega
    have nonzero : (n : ℚ) ≠ 0 := by exact_mod_cast divisor.ne'
    rw [split]
    push_cast
    field_simp
  have tells := tells_fraction (m := m * 2 ^ amount) divisor
  rw [← scaled] at tells
  have enough : exponent ≤ -1074 ∨ 2 ^ 52 ≤ m * 2 ^ amount / n := by
    by_cases low : exponent ≤ -1074
    · exact .inl low
    · refine .inr ((Nat.le_div_iff_mul_le divisor).mpr ?_)
      calc 2 ^ 52 * n ≤ 2 ^ 52 * 2 ^ (n.log2 + 1) := Nat.mul_le_mul_left _ Nat.lt_log2_self.le
        _ = 2 ^ (52 + (n.log2 + 1)) := (Nat.pow_add _ _ _).symm
        _ ≤ 2 ^ (m.log2 + amount) := Nat.pow_le_pow_right two_pos (by omega)
        _ = 2 ^ m.log2 * 2 ^ amount := Nat.pow_add _ _ _
        _ ≤ m * 2 ^ amount := Nat.mul_le_mul_right _ (Nat.log2_self_le pos.ne')
  rw [← Nat.shiftLeft_eq] at tells enough
  exact place_pack_round tells enough (s / t)

/- The place of the infinite. -/
def top : ℤ ×ₗ ℤ ×ₗ ℤ := toLex (2, toLex (0, 0))

theorem settle_nonneg (p : ℤ × ℕ) : 0 ≤ settle p := by
  unfold settle
  split_ifs <;> simp [Prod.Lex.le_iff]

theorem settle_le_top (p : ℤ × ℕ) : settle p ≤ top := by
  unfold settle top
  split_ifs <;> simp [Prod.Lex.le_iff]

def signOf : UnpackedFloat → Sign
  | .notANumber => .positive
  | .infinity s | .zero s | .finite s _ _ _ => s

/- The place of a number without its sign. -/
def size : UnpackedFloat → ℤ ×ₗ ℤ ×ₗ ℤ
  | .notANumber | .zero _ => 0
  | .infinity _ => top
  | .finite _ m e _ => toLex (1, toLex (e, (m : ℤ)))

theorem place_eq_side (u : UnpackedFloat) : place u = side (signOf u) (size u) := by
  cases u with
  | notANumber => rfl
  | infinity s => cases s <;> rfl
  | zero s => cases s <;> rfl
  | finite s m e pos => cases s <;> rfl

theorem zero_lt_top : 0 < top := by decide

theorem zero_lt_place_one (p : ℤ ×ₗ ℤ) : 0 < toLex ((1 : ℤ), p) :=
  Prod.Lex.lt_iff.mpr (.inl zero_lt_one)

theorem place_one_lt_top (p : ℤ ×ₗ ℤ) : toLex ((1 : ℤ), p) < top :=
  Prod.Lex.lt_iff.mpr (.inl one_lt_two)

theorem place_one_le_iff {m n : ℕ} {e f : ℤ} :
    toLex ((1 : ℤ), toLex (e, (m : ℤ))) ≤ toLex ((1 : ℤ), toLex (f, (n : ℤ))) ↔
      e < f ∨ e = f ∧ m ≤ n := by
  simp [Prod.Lex.le_iff]

theorem size_nonneg (u : UnpackedFloat) : 0 ≤ size u := by
  cases u with
  | notANumber => rfl
  | infinity s => exact zero_lt_top.le
  | zero s => rfl
  | finite s m e pos => exact (zero_lt_place_one _).le

theorem size_le_top (u : UnpackedFloat) : size u ≤ top := by
  cases u with
  | notANumber => exact zero_lt_top.le
  | infinity s => rfl
  | zero s => exact zero_lt_top.le
  | finite s m e pos => exact (place_one_lt_top _).le

/- A number as doubles are unpacked to, with no more bits than it needs. -/
def Stored : UnpackedFloat → Prop
  | .finite _ m e _ => Canonical m e
  | _ => True

theorem canonical_unpack {a : Float} {s : Sign} {m : ℕ} {e : ℤ} {pos : 0 < m}
    (unpacked : a.toModel.unpack = .finite s m e pos) : Canonical m e ∧ e ≤ 971 := by
  have parts : ∃ t x y, a.toModel.unpack = ofParts t x y := ⟨_, _, _, rfl⟩
  obtain ⟨t, x, y, eq⟩ := parts
  exact canonical_of_parts (eq.symm.trans unpacked)

theorem stored_unpack (a : Float) : Stored a.toModel.unpack := by
  cases unpacked : a.toModel.unpack with
  | notANumber => trivial
  | infinity s => trivial
  | zero s => trivial
  | finite s m e pos => exact (canonical_unpack unpacked).1

theorem unpack_one :
    (1.0 : Float).toModel.unpack = .finite .positive (2 ^ 52) (-52) (by decide) := by
  have bits : (1.0 : Float) = Float.ofBits 0x3FF0000000000000 := by decide +kernel
  rw [bits]
  rfl

/-- A double times one is the same double. -/
theorem times_one (a : Float) : a * 1.0 = a := by
  have product : UnpackedFloat.mul Format.binary64 a.toModel.unpack (1.0 : Float).toModel.unpack =
      a.toModel.unpack := by
    have stored := stored_unpack a
    rw [unpack_one]
    cases unpacked : a.toModel.unpack with
    | notANumber => rfl
    | infinity s => cases s <;> rfl
    | zero s => cases s <;> rfl
    | finite s m e pos =>
      rw [unpacked] at stored
      have exact := round_exact (k := e + -52) (j := 52) stored pos (by omega) s
      cases s <;> exact exact
  show Float.ofModel (Float.Model.pack (UnpackedFloat.mul Format.binary64 a.toModel.unpack
    (1.0 : Float).toModel.unpack)) = a
  rw [product, pack_unpack]

theorem magnitude_le {m n : ℕ} {e f : ℤ} (canonical : Canonical m e)
    (canonical' : Canonical n f) (order : e < f ∨ e = f ∧ m ≤ n) :
    (m * 2 ^ e : ℚ) ≤ n * 2 ^ f := by
  rcases order with lower | ⟨rfl, less⟩
  · have low : -1074 ≤ e := by rcases canonical with ⟨_, low⟩ | ⟨_, rfl⟩ <;> omega
    have upper : (m : ℚ) ≤ 2 ^ (53 : ℤ) := by
      have : m ≤ 2 ^ 53 := by rcases canonical with ⟨⟨_, _⟩, _⟩ | ⟨_, _⟩ <;> omega
      exact_mod_cast this
    have full : (2 : ℚ) ^ (52 : ℤ) ≤ n := by
      have : 2 ^ 52 ≤ n := by rcases canonical' with ⟨⟨_, _⟩, _⟩ | ⟨_, _⟩ <;> omega
      exact_mod_cast this
    calc (m * 2 ^ e : ℚ) ≤ 2 ^ (53 : ℤ) * 2 ^ e :=
          mul_le_mul_of_nonneg_right upper (zpow_pos two_pos e).le
      _ = 2 ^ (53 + e) := (zpow_add₀ two_ne_zero _ _).symm
      _ ≤ 2 ^ (52 + f) := two_zpow_le (by omega)
      _ = 2 ^ (52 : ℤ) * 2 ^ f := zpow_add₀ two_ne_zero _ _
      _ ≤ n * 2 ^ f := mul_le_mul_of_nonneg_right full (zpow_pos two_pos f).le
  · exact mul_le_mul_of_nonneg_right (by exact_mod_cast less) (zpow_pos two_pos e).le

/- The size of a number's quotient by `n * 2 ^ f`. -/
def Divided (n : ℕ) (f : ℤ) : UnpackedFloat → ℤ ×ₗ ℤ ×ₗ ℤ → Prop
  | .notANumber, _ => False
  | .zero _, p => p = 0
  | .infinity _, p => p = top
  | .finite _ m e _, p =>
    ∃ k r, RoundsTo (m * 2 ^ e / (n * 2 ^ f)) k r ∧ p = settle (carry k r)

section

variable {n : ℕ} {f : ℤ} {u v : UnpackedFloat} {p q : ℤ ×ₗ ℤ ×ₗ ℤ}

theorem exists_divided (number : u.isNaN = false) (divisor : 0 < n) :
    ∃ p, Divided n f u p ∧
      place (Float.Model.pack (UnpackedFloat.div Format.binary64 u
        (.finite .positive n f divisor))).unpack = side (signOf u) p := by
  cases u with
  | notANumber => cases number
  | infinity s =>
    refine ⟨top, rfl, ?_⟩
    show place (Float.Model.pack (.infinity (s / .positive))).unpack = _
    cases s <;> rfl
  | zero s =>
    refine ⟨0, rfl, ?_⟩
    show place (Float.Model.pack (.zero (s / .positive))).unpack = _
    cases s <;> rfl
  | finite s m e pos =>
    obtain ⟨k, r, rounds, placed⟩ := place_pack_div pos divisor s .positive
    exact ⟨_, ⟨k, r, rounds, rfl⟩, by rw [placed]; cases s <;> rfl⟩

theorem Divided.nonneg (divided : Divided n f u p) : 0 ≤ p := by
  cases u with
  | notANumber => cases divided
  | infinity s =>
    subst divided
    decide
  | zero s => exact divided.ge
  | finite s m e pos =>
    obtain ⟨k, r, _, rfl⟩ := divided
    exact settle_nonneg _

/-- The greater of two numbers without their signs has the greater quotient. -/
theorem Divided.mono (stored : Stored u) (stored' : Stored v)
    (divided : Divided n f u p) (divided' : Divided n f v q) (order : size u ≤ size v) :
    p ≤ q := by
  cases u with
  | notANumber => cases divided
  | zero s =>
    subst divided
    exact divided'.nonneg
  | infinity s =>
    cases v with
    | notANumber => cases divided'
    | infinity t => exact (divided.trans divided'.symm).le
    | zero t => exact absurd order zero_lt_top.not_ge
    | finite t m' e' pos' => exact absurd order (place_one_lt_top _).not_ge
  | finite s m e pos =>
    obtain ⟨k, r, rounds, rfl⟩ := divided
    cases v with
    | notANumber => cases divided'
    | infinity t =>
      subst divided'
      exact settle_le_top _
    | zero t => exact absurd order (zero_lt_place_one _).not_ge
    | finite t m' e' pos' =>
      obtain ⟨l, r', rounds', rfl⟩ := divided'
      have dividends := magnitude_le stored stored' (place_one_le_iff.mp order)
      exact settle_carry_mono rounds rounds' (div_le_div_of_nonneg_right dividends (by positivity))

/-- The greater of two numbers has the greater quotient. -/
theorem Divided.side_mono (stored : Stored u) (stored' : Stored v)
    (divided : Divided n f u p) (divided' : Divided n f v q) (order : place u ≤ place v) :
    side (signOf u) p ≤ side (signOf v) q := by
  rw [place_eq_side, place_eq_side] at order
  have fits : Stored (.zero .positive) := trivial
  have zero : Divided n f (.zero .positive) 0 := rfl
  cases sign : signOf u <;> cases sign' : signOf v <;>
    simp only [sign, sign', side] at order ⊢
  · exact neg_le_neg_iff.mpr (divided'.mono stored' stored divided (neg_le_neg_iff.mp order))
  · exact (neg_nonpos.mpr divided.nonneg).trans divided'.nonneg
  · -- neither is above zero, so neither quotient is
    have low : size u ≤ 0 := order.trans (neg_nonpos.mpr (size_nonneg v))
    have low' : size v ≤ 0 := neg_nonneg.mp ((size_nonneg u).trans order)
    have none : p ≤ 0 := divided.mono stored fits zero low
    have none' : q ≤ 0 := divided'.mono stored' fits zero low'
    exact none.trans (neg_nonneg.mpr none')
  · exact divided.mono stored stored' divided' order

end

theorem stand_zero : stand 0.0 = 0 := by decide +kernel

theorem exists_unpack_of_pos {d : Float} (finite : d.isFinite = true) (positive : 0.0 < d) :
    ∃ n f, ∃ pos : 0 < n, d.toModel.unpack = .finite .positive n f pos := by
  obtain ⟨_, _, greater⟩ := lt_iff.mp positive
  rw [stand_zero] at greater
  have finite : d.toModel.unpack.isFinite = true := finite
  unfold stand at greater
  generalize d.toModel.unpack = u at greater finite ⊢
  cases u with
  | notANumber => cases finite
  | infinity s => cases finite
  | zero s => exact absurd greater (lt_irrefl 0)
  | finite s n f pos =>
    cases s with
    | positive => exact ⟨n, f, pos, rfl⟩
    | negative =>
      have low : place (.finite .negative n f pos) ≤ 0 :=
        neg_nonpos.mpr (size_nonneg (.finite .positive n f pos))
      exact absurd greater low.not_gt

/-- A quotient by a positive double is a number exactly if the dividend is. -/
theorem div_isNaN (a : Float) {d : Float} (finite : d.isFinite = true) (positive : 0.0 < d) :
    (a / d).isNaN = a.isNaN := by
  obtain ⟨n, f, divisor, unpacked⟩ := exists_unpack_of_pos finite positive
  show (Float.Model.pack (UnpackedFloat.div Format.binary64 a.toModel.unpack
    d.toModel.unpack)).unpack.isNaN = a.toModel.unpack.isNaN
  rw [unpack_pack_isNaN, unpacked]
  generalize a.toModel.unpack = u
  cases number : u.isNaN with
  | false => exact unpacked_div_isNaN number .positive f divisor
  | true =>
    cases u with
    | notANumber => rfl
    | infinity s => cases number
    | zero s => cases number
    | finite s m e pos => cases number

theorem exists_stand_div {a d : Float} (number : a.isNaN = false) {n : ℕ} {f : ℤ} {divisor : 0 < n}
    (unpacked : d.toModel.unpack = .finite .positive n f divisor) :
    ∃ p, Divided n f a.toModel.unpack p ∧ stand (a / d) = side (signOf a.toModel.unpack) p := by
  obtain ⟨p, divided, placed⟩ := exists_divided (f := f) number divisor
  rw [← unpacked] at placed
  exact ⟨p, divided, placed⟩

/-- Dividing by a positive double keeps the order. -/
theorem div_le_div {a b d : Float} (order : a ≤ b) (finite : d.isFinite = true)
    (positive : 0.0 < d) : a / d ≤ b / d := by
  obtain ⟨n, f, divisor, unpacked⟩ := exists_unpack_of_pos finite positive
  obtain ⟨number, number', places⟩ := le_iff.mp order
  obtain ⟨p, divided, placed⟩ := exists_stand_div number unpacked
  obtain ⟨q, divided', placed'⟩ := exists_stand_div number' unpacked
  refine le_iff.mpr ⟨(div_isNaN a finite positive).trans number,
    (div_isNaN b finite positive).trans number', ?_⟩
  rw [placed, placed']
  exact divided.side_mono (stored_unpack a) (stored_unpack b) divided' places

/-- A greater divisor gives no greater size. -/
theorem Divided.antitone {u : UnpackedFloat} {m n : ℕ} {e f : ℤ} {p q : ℤ ×ₗ ℤ ×ₗ ℤ} (pos : 0 < m)
    (order : (m * 2 ^ e : ℚ) ≤ n * 2 ^ f) (divided : Divided m e u p) (divided' : Divided n f u q) :
    q ≤ p := by
  cases u with
  | notANumber => cases divided
  | infinity s => exact (divided'.trans divided.symm).le
  | zero s => exact (divided'.trans divided.symm).le
  | finite s k i nonzero =>
    obtain ⟨l, r, rounds, rfl⟩ := divided
    obtain ⟨l', r', rounds', rfl⟩ := divided'
    exact settle_carry_mono rounds' rounds
      (div_le_div_of_nonneg_left (by positivity) (by positivity) order)

/-- A number that is not negative has no greater quotient by a greater divisor. -/
theorem div_le_div_left {a b d : Float} (nonneg : 0.0 ≤ a) (positive : 0.0 < b) (order : b ≤ d)
    (finite : b.isFinite = true) (finite' : d.isFinite = true) : a / d ≤ a / b := by
  obtain ⟨_, number, above⟩ := le_iff.mp nonneg
  obtain ⟨_, number_d, places⟩ := le_iff.mp order
  have positive' : 0.0 < d := lt_iff.mpr ⟨rfl, number_d, (lt_iff.mp positive).2.2.trans_le places⟩
  obtain ⟨m, e, pos, unpacked⟩ := exists_unpack_of_pos finite positive
  obtain ⟨n, f, pos', unpacked'⟩ := exists_unpack_of_pos finite' positive'
  have divisors : (m * 2 ^ e : ℚ) ≤ n * 2 ^ f := by
    have stored := stored_unpack b
    have stored' := stored_unpack d
    unfold stand at places
    rw [unpacked] at places stored
    rw [unpacked'] at places stored'
    exact magnitude_le stored stored' (place_one_le_iff.mp places)
  obtain ⟨p, divided, placed⟩ := exists_stand_div number unpacked
  obtain ⟨q, divided', placed'⟩ := exists_stand_div number unpacked'
  have lesser := divided.antitone pos divisors divided'
  refine le_iff.mpr ⟨(div_isNaN a finite' positive').trans number,
    (div_isNaN a finite positive).trans number, ?_⟩
  rw [placed, placed']
  rw [stand_zero, stand, place_eq_side] at above
  cases sign : signOf a.toModel.unpack with
  | positive => exact lesser
  | negative =>
    -- of what is not below zero only a zero has this sign
    rw [sign] at above
    have fits : Stored (.zero .positive) := trivial
    have none : p ≤ 0 := divided.mono (stored_unpack a) fits rfl (neg_nonneg.mp above)
    exact neg_le_neg (none.trans divided'.nonneg)

theorem stand_one : stand 1.0 = settle (carry (-52) (2 ^ 52)) := by decide +kernel

/-- A positive double divided by itself is one. -/
theorem one_le_div_self {d : Float} (finite : d.isFinite = true) (positive : 0.0 < d) :
    1.0 ≤ d / d := by
  obtain ⟨n, f, divisor, unpacked⟩ := exists_unpack_of_pos finite positive
  obtain ⟨_, number, _⟩ := lt_iff.mp positive
  obtain ⟨k, r, rounds, placed⟩ :=
    place_pack_div (e := f) (f := f) divisor divisor .positive .positive
  have one : (n * 2 ^ f / (n * 2 ^ f) : ℚ) = 1 := by
    have nonzero : (n : ℚ) ≠ 0 := by exact_mod_cast divisor.ne'
    exact div_self (mul_ne_zero nonzero (zpow_ne_zero f two_ne_zero))
  rw [one] at rounds
  have whole : RoundsTo 1 (-52) (2 ^ 52) :=
    ⟨⟨by decide, by norm_num, .inr (by norm_num)⟩, ⟨2 ^ 52, false, false⟩,
      by norm_num [Tells, zpow_neg], rfl⟩
  refine le_iff.mpr ⟨by decide +kernel, (div_isNaN d finite positive).trans number, ?_⟩
  rw [stand_one]
  show _ ≤ place (Float.Model.pack (UnpackedFloat.div Format.binary64 d.toModel.unpack
    d.toModel.unpack)).unpack
  rw [unpacked, placed]
  exact settle_carry_mono whole rounds le_rfl

section Counts

variable {v w : UInt32}

theorem unpack_count (pos : 0 < w.toNat) :
    w.toUInt64.toFloat.toModel.unpack = .finite .positive
      (w.toNat * 2 ^ (52 - w.toNat.log2)) (w.toNat.log2 - 52)
        (full_pos (full_shift pos (w.toNat_lt.trans (by decide)))) :=
  unpack_word (UInt32.toNat_toUInt64 w) pos (w.toNat_lt.trans (by decide))

theorem stand_count (pos : 0 < w.toNat) :
    stand w.toUInt64.toFloat = toLex (1, toLex ((w.toNat.log2 : ℤ) - 52,
      ((w.toNat * 2 ^ (52 - w.toNat.log2) : ℕ) : ℤ))) := by
  rw [stand, unpack_count pos]
  rfl

theorem eq_zero_or_pos (w : UInt32) : w = 0 ∨ 0 < w.toNat := by
  rcases Nat.eq_zero_or_pos w.toNat with zero | pos
  · exact .inl (UInt32.toNat_inj.mp zero)
  · exact .inr pos

theorem count_isFinite (w : UInt32) : w.toUInt64.toFloat.isFinite = true := by
  rcases eq_zero_or_pos w with rfl | pos
  · rfl
  · show w.toUInt64.toFloat.toModel.unpack.isFinite = true
    rw [unpack_count pos]
    rfl

theorem count_isNaN (w : UInt32) : w.toUInt64.toFloat.isNaN = false := by
  rcases eq_zero_or_pos w with rfl | pos
  · rfl
  · show w.toUInt64.toFloat.toModel.unpack.isNaN = false
    rw [unpack_count pos]
    rfl

theorem count_pos (nonzero : w ≠ 0) : 0.0 < w.toUInt64.toFloat := by
  have pos := (eq_zero_or_pos w).resolve_left nonzero
  refine lt_iff.mpr ⟨rfl, count_isNaN w, ?_⟩
  rw [stand_zero, stand_count pos]
  simp [Prod.Lex.lt_iff]

theorem count_le_count (less : v.toNat ≤ w.toNat) : v.toUInt64.toFloat ≤ w.toUInt64.toFloat := by
  rcases eq_zero_or_pos v with rfl | pos
  · rcases eq_zero_or_pos w with rfl | pos'
    · exact le_refl rfl
    · refine le_iff.mpr ⟨rfl, count_isNaN w, ?_⟩
      rw [stand_count pos']
      show stand 0.0 ≤ _
      rw [stand_zero]
      simp [Prod.Lex.le_iff]
  · refine le_iff.mpr ⟨count_isNaN v, count_isNaN w, ?_⟩
    rw [stand_count pos, stand_count (pos.trans_le less)]
    have places : v.toNat.log2 ≤ w.toNat.log2 :=
      (Nat.le_log2 (pos.trans_le less).ne').mpr ((Nat.log2_self_le pos.ne').trans less)
    rcases places.lt_or_eq with lower | same
    · simp [Prod.Lex.le_iff, lower]
    · rw [same]
      simp only [Prod.Lex.le_iff, ofLex_toLex, lt_irrefl, true_and, false_or]
      exact_mod_cast Nat.mul_le_mul_right _ less

end Counts

/-- Whole numbers of 54 bits or a few more are rounded, and not to zero and not to infinity. -/
theorem exists_unpack_large {n : ℕ} (large : 2 ^ 53 ≤ n) (few : n ≤ 2 ^ 64) :
    ∃ m f, ∃ nonzero : 0 < m, n.toFloat.toModel.unpack = .finite .positive m f nonzero := by
  have pos : 0 < n := by omega
  have rounded : n.toFloat.toModel.unpack = (Float.Model.pack (roundWithAccuracy Format.binary64
      .positive (n <<< 53 * 10 ^ 0) (-53 + 0) .exact)).unpack := by
    have slow : ¬(n < 2 ^ 53 ∧ 0 ≤ 22) := fun h => absurd h.1 (not_lt.mpr large)
    have bits : (0 : ℤ) < 2 ^ Format.binary64.exponentBits := by decide
    show (Float.ofScientific n false 0).toModel.unpack = _
    unfold Float.ofScientific
    rw [dif_neg slow]
    show (Float.Model.pack (UnpackedFloat.ofScientific Format.binary64 n 0)).unpack = _
    unfold UnpackedFloat.ofScientific
    rw [dif_neg pos.ne', if_neg (by decide), if_neg (by omega), if_pos le_rfl]
    rfl
  have shifted : n <<< 53 * 10 ^ 0 = n * 2 ^ 53 := by rw [Nat.shiftLeft_eq, pow_zero, mul_one]
  have tells : Tells (ExtendedMantissa.ofMantissaAndAccuracy (n <<< 53 * 10 ^ 0) .exact)
      ((n : ℚ) / 2 ^ (-53 + 0 : ℤ)) := by
    rw [shifted]
    show (n : ℚ) / 2 ^ (-53 + 0 : ℤ) = (n * 2 ^ 53 : ℕ)
    push_cast
    norm_num [zpow_neg, div_div_eq_mul_div]
  obtain ⟨k, r, rounds, placed⟩ := place_pack_round tells (.inr (by omega)) .positive
  rw [← rounded] at placed
  have lower : (2 : ℚ) ^ (53 : ℤ) ≤ n := by exact_mod_cast large
  have upper : (n : ℚ) ≤ 2 ^ (64 : ℤ) := by exact_mod_cast few
  -- rounding may carry once, and from here that is far from the greatest exponent
  have exponents : 0 < k ∧ k ≤ 12 := by
    obtain ⟨_, small, least⟩ := rounds.at_exponent
    have higher : (53 : ℤ) < k + 53 :=
      (zpow_lt_zpow_iff_right₀ one_lt_two).mp (lower.trans_lt small)
    refine ⟨by omega, ?_⟩
    rcases least with least | full
    · omega
    · have := (zpow_le_zpow_iff_right₀ one_lt_two).mp (full.trans upper)
      omega
  have full := rounds.full (by omega)
  have settled : settle (carry k r) =
      toLex (1, toLex ((carry k r).1, ((carry k r).2 : ℤ))) := by
    unfold carry settle
    split <;> rw [if_neg (by simp only; omega), if_pos (by simp only; omega)]
  rw [settled] at placed
  generalize n.toFloat.toModel.unpack = u at placed
  have first : (ofLex (place u)).1 = 1 := congrArg (fun p => (ofLex p).1) placed
  cases u with
  | notANumber => cases first
  | infinity s => cases s <;> cases first
  | zero s => cases first
  | finite s m f nonzero =>
    cases s with
    | positive => exact ⟨m, f, nonzero, rfl⟩
    | negative => cases first

/-- Counts of at most 64 bits are positive and finite. -/
theorem exists_unpack_whole {n : ℕ} (pos : 0 < n) (few : n ≤ 2 ^ 64) :
    ∃ m f, ∃ nonzero : 0 < m, n.toFloat.toModel.unpack = .finite .positive m f nonzero := by
  by_cases small : n < 2 ^ 53
  · exact ⟨_, _, _, unpack_whole pos small⟩
  · exact exists_unpack_large (not_lt.mp small) few

theorem whole_isFinite {n : ℕ} (pos : 0 < n) (few : n ≤ 2 ^ 64) : n.toFloat.isFinite = true := by
  obtain ⟨m, f, nonzero, unpacked⟩ := exists_unpack_whole pos few
  show n.toFloat.toModel.unpack.isFinite = true
  rw [unpacked]
  rfl

theorem whole_pos {n : ℕ} (pos : 0 < n) (few : n ≤ 2 ^ 64) : 0.0 < n.toFloat := by
  obtain ⟨m, f, nonzero, unpacked⟩ := exists_unpack_whole pos few
  have number : n.toFloat.toModel.unpack.isNaN = false := by
    rw [unpacked]
    rfl
  refine lt_iff.mpr ⟨rfl, number, ?_⟩
  rw [stand_zero, stand, unpacked]
  exact zero_lt_place_one _

/-- A number divided by a count is a number, if perhaps an infinite one. -/
theorem div_count_isNaN {a : Float} (number : a.isNaN = false) {n : ℕ} (pos : 0 < n)
    (few : n ≤ 2 ^ 64) : (a / n.toFloat).isNaN = false :=
  (div_isNaN a (whole_isFinite pos few) (whole_pos pos few)).trans number

end FleetHealth.Binary64
