import Mathlib.Algebra.Order.Field.Basic
import Mathlib.Tactic.FieldSimp
import Mathlib.Tactic.Linarith
import FleetHealth.Proofs.Binary64Order
/-!
Rounding keeps the order of numbers. A number is rounded at the exponent its size gives; a greater
one has no lower exponent and, at the same exponent, no lower mantissa.
-/
namespace FleetHealth.Binary64

open Float.Model Float.Model.UnpackedFloat

/- The number a mantissa with its two bits stands for, as far as they tell it. -/
def Tells (em : ExtendedMantissa) (x : ℚ) : Prop :=
  match em.roundBit, em.stickyBit with
  | false, false => x = em.mantissa
  | false, true => em.mantissa < x ∧ x < em.mantissa + 1 / 2
  | true, false => x = em.mantissa + 1 / 2
  | true, true => em.mantissa + 1 / 2 < x ∧ x < em.mantissa + 1

theorem tells_bounds {em : ExtendedMantissa} {x : ℚ} (tells : Tells em x) :
    em.mantissa ≤ x ∧ x < em.mantissa + 1 := by
  obtain ⟨m, r, s⟩ := em
  cases r <;> cases s <;> simp only [Tells] at tells <;> constructor <;> linarith

theorem roundedMantissa_bounds (em : ExtendedMantissa) :
    em.mantissa ≤ em.roundedMantissa ∧ em.roundedMantissa ≤ em.mantissa + 1 := by
  obtain ⟨m, r, s⟩ := em
  cases r <;> cases s <;> simp only [ExtendedMantissa.roundedMantissa, ExtendedMantissa.accuracy,
    Accuracy.roundToNearestEven] <;> omega

/-- Of two numbers the greater one is not rounded lower. -/
theorem roundedMantissa_mono {em en : ExtendedMantissa} {x y : ℚ} (tells : Tells em x)
    (tells' : Tells en y) (less : x ≤ y) : em.roundedMantissa ≤ en.roundedMantissa := by
  obtain ⟨lower, _⟩ := tells_bounds tells
  obtain ⟨_, upper⟩ := tells_bounds tells'
  have floors : em.mantissa < en.mantissa + 1 := by
    exact_mod_cast lower.trans_lt (less.trans_lt upper)
  rcases Nat.lt_succ_iff_lt_or_eq.mp floors with apart | same
  · have := (roundedMantissa_bounds em).2
    have := (roundedMantissa_bounds en).1
    omega
  · -- one floor: the bits decide
    obtain ⟨m, r, s⟩ := em
    obtain ⟨n, r', s'⟩ := en
    obtain rfl : m = n := same
    cases r <;> cases s <;> cases r' <;> cases s' <;>
      simp only [Tells, ExtendedMantissa.roundedMantissa, ExtendedMantissa.accuracy,
        Accuracy.roundToNearestEven] at tells tells' ⊢ <;>
      first | omega | (exfalso; linarith)

theorem tells_shiftRightOne {em : ExtendedMantissa} {x : ℚ} (tells : Tells em x) :
    Tells em.shiftRightOne (x / 2) := by
  obtain ⟨m, r, s⟩ := em
  rcases Nat.even_or_odd' m with ⟨k, rfl | rfl⟩
  · have half : 2 * k / 2 = k := by omega
    have bit : (2 * k % 2 != 0) = false := by simp
    cases r <;> cases s <;>
      simp only [Tells, ExtendedMantissa.shiftRightOne, half, bit, Bool.or_false,
        Bool.or_true] at tells ⊢ <;>
      push_cast at tells <;> first | linarith | (constructor <;> linarith)
  · have half : (2 * k + 1) / 2 = k := by omega
    have bit : ((2 * k + 1) % 2 != 0) = true := by simp [Nat.add_mod]
    cases r <;> cases s <;>
      simp only [Tells, ExtendedMantissa.shiftRightOne, half, bit, Bool.or_false,
        Bool.or_true] at tells ⊢ <;>
      push_cast at tells <;> first | linarith | (constructor <;> linarith)

theorem tells_shift {em : ExtendedMantissa} {x : ℚ} (tells : Tells em x) (k : ℕ) :
    Tells (em >>> k) (x / 2 ^ k) := by
  induction k with
  | zero =>
    rw [pow_zero, div_one]
    exact tells
  | succ k ih =>
    have step : em >>> (k + 1) = (em >>> k).shiftRightOne := rfl
    rw [step, pow_succ, ← div_div]
    exact tells_shiftRightOne ih

/- Quotient and remainder tell a fraction. -/
theorem tells_fraction {m d : ℕ} (pos : 0 < d) :
    Tells (ExtendedMantissa.ofMantissaAndAccuracy (m / d) (accuracyOfFraction (m % d) d))
      (m / d : ℚ) := by
  have whole : (m : ℚ) = d * (m / d : ℕ) + (m % d : ℕ) := by
    exact_mod_cast (Nat.div_add_mod m d).symm
  have divisor : (0 : ℚ) < d := by exact_mod_cast pos
  have remainder : ((m % d : ℕ) : ℚ) < d := by exact_mod_cast Nat.mod_lt m pos
  have quotient : (m / d : ℚ) = (m / d : ℕ) + (m % d : ℕ) / d := by
    rw [whole]
    field_simp
  unfold accuracyOfFraction
  by_cases divides : m % d = 0
  · rw [if_pos divides, quotient, divides]
    simp [Tells, ExtendedMantissa.ofMantissaAndAccuracy]
  · rw [if_neg divides]
    have positive := div_pos (by exact_mod_cast Nat.pos_of_ne_zero divides :
      (0 : ℚ) < (m % d : ℕ)) divisor
    have below := (div_lt_one divisor).mpr remainder
    rcases lt_trichotomy (2 * (m % d)) d with less | half | more
    · have : ((m % d : ℕ) : ℚ) / d < 1 / 2 := by
        rw [div_lt_div_iff₀ divisor two_pos]
        exact_mod_cast (by omega : m % d * 2 < 1 * d)
      rw [Nat.compare_eq_lt.mpr less]
      simp only [Tells, ExtendedMantissa.ofMantissaAndAccuracy, quotient]
      constructor <;> linarith
    · have : ((m % d : ℕ) : ℚ) / d = 1 / 2 := by
        rw [div_eq_div_iff divisor.ne' two_ne_zero]
        exact_mod_cast (by omega : m % d * 2 = 1 * d)
      rw [Nat.compare_eq_eq.mpr half]
      simp only [Tells, ExtendedMantissa.ofMantissaAndAccuracy, quotient, this]
    · have : 1 / 2 < ((m % d : ℕ) : ℚ) / d := by
        rw [div_lt_div_iff₀ two_pos divisor]
        exact_mod_cast (by omega : 1 * d < m % d * 2)
      rw [Nat.compare_eq_gt.mpr more]
      simp only [Tells, ExtendedMantissa.ofMantissaAndAccuracy, quotient]
      constructor <;> linarith

/- The exponent a positive number is rounded at. -/
def RoundsAt (x : ℚ) (k : ℤ) : Prop :=
  -1074 ≤ k ∧ x < 2 ^ (k + 53) ∧ (k = -1074 ∨ 2 ^ (k + 52) ≤ x)

theorem two_zpow_le {i j : ℤ} (less : i ≤ j) : (2 : ℚ) ^ i ≤ 2 ^ j :=
  zpow_le_zpow_right₀ one_le_two less

theorem RoundsAt.mono {x y : ℚ} {k l : ℤ} (rounds : RoundsAt x k) (rounds' : RoundsAt y l)
    (less : x ≤ y) : k ≤ l := by
  by_contra greater
  rcases rounds.2.2 with least | large
  · have := rounds'.1
    omega
  · have small : y < 2 ^ (k + 52) := rounds'.2.1.trans_le (two_zpow_le (by omega))
    linarith

/- A number rounded at its exponent to a mantissa, which may have carried into a bit too many. -/
structure RoundsTo (x : ℚ) (k : ℤ) (r : ℕ) : Prop where
  at_exponent : RoundsAt x k
  told : ∃ em : ExtendedMantissa, Tells em (x / 2 ^ k) ∧ em.roundedMantissa = r

namespace RoundsTo

variable {x y : ℚ} {k l : ℤ} {r s : ℕ}

theorem le (rounds : RoundsTo x k r) : r ≤ 2 ^ 53 := by
  obtain ⟨⟨_, small, _⟩, em, tells, rfl⟩ := rounds
  have scaled : x / 2 ^ k < 2 ^ 53 := by
    rw [div_lt_iff₀ (zpow_pos two_pos k), ← zpow_natCast, ← zpow_add₀ two_ne_zero]
    rwa [add_comm] at small
  have floor : em.mantissa < 2 ^ 53 := by
    exact_mod_cast (tells_bounds tells).1.trans_lt scaled
  have := (roundedMantissa_bounds em).2
  omega

theorem full (rounds : RoundsTo x k r) (normal : k ≠ -1074) : 2 ^ 52 ≤ r := by
  obtain ⟨⟨_, _, large⟩, em, tells, rfl⟩ := rounds
  have scaled : 2 ^ 52 ≤ x / 2 ^ k := by
    rw [le_div_iff₀ (zpow_pos two_pos k), ← zpow_natCast, ← zpow_add₀ two_ne_zero, add_comm]
    exact large.resolve_left normal
  have floor : 2 ^ 52 < em.mantissa + 1 := by
    exact_mod_cast scaled.trans_lt (tells_bounds tells).2
  have := (roundedMantissa_bounds em).1
  omega

end RoundsTo

/- A mantissa rounded up to a bit too many is halved. -/
def carry (k : ℤ) (r : ℕ) : ℤ × ℕ := if r = 2 ^ 53 then (k + 1, 2 ^ 52) else (k, r)

/- The place of a mantissa at an exponent: infinite where the exponent is too high. -/
def settle (p : ℤ × ℕ) : ℤ ×ₗ ℤ ×ₗ ℤ :=
  if p.2 = 0 then toLex (0, toLex (0, 0))
  else if p.1 ≤ 971 then toLex (1, toLex (p.1, (p.2 : ℤ)))
  else toLex (2, toLex (0, 0))

theorem settle_mono {e f : ℤ} {m n : ℕ} (order : e < f ∧ 0 < n ∨ e = f ∧ m ≤ n) :
    settle (e, m) ≤ settle (f, n) := by
  unfold settle
  split_ifs <;> simp [Prod.Lex.le_iff] <;> omega

theorem RoundsTo.canonical {x : ℚ} {k : ℤ} {r : ℕ} (rounds : RoundsTo x k r) :
    Canonical (carry k r).2 (carry k r).1 := by
  have upper := rounds.le
  have low := rounds.at_exponent.1
  unfold carry
  split
  · refine .inl ⟨⟨le_rfl, ?_⟩, by omega⟩
    norm_num
  · by_cases normal : 2 ^ 52 ≤ r
    · exact .inl ⟨⟨normal, by omega⟩, low⟩
    · refine .inr ⟨by omega, ?_⟩
      by_contra higher
      exact normal (rounds.full higher)

theorem settle_carry_mono {x y : ℚ} {k l : ℤ} {r s : ℕ} (rounds : RoundsTo x k r)
    (rounds' : RoundsTo y l s) (less : x ≤ y) : settle (carry k r) ≤ settle (carry l s) := by
  have exponents := rounds.at_exponent.mono rounds'.at_exponent less
  have upper := rounds.le
  have upper' := rounds'.le
  have order : k < l ∧ 2 ^ 52 ≤ s ∨ k = l ∧ r ≤ s := by
    rcases exponents.lt_or_eq with lower | rfl
    · refine .inl ⟨lower, rounds'.full ?_⟩
      have := rounds.at_exponent.1
      omega
    · obtain ⟨_, em, tells, rfl⟩ := rounds
      obtain ⟨_, en, tells', rfl⟩ := rounds'
      exact .inr ⟨rfl, roundedMantissa_mono tells tells'
        (div_le_div_of_nonneg_right less (zpow_pos two_pos k).le)⟩
  unfold carry
  split_ifs <;> exact settle_mono (by omega)

theorem unpack_pack_subnormal {m : ℕ} (pos : 0 < m) (small : m < 2 ^ 52) (s : Sign) :
    (Float.Model.pack (.finite s m (-1074) pos)).unpack = .finite s m (-1074) pos := by
  have packed : UnpackedFloat.pack Format.binary64 (.finite s m (-1074) pos) =
      packComponents Format.binary64 s 0#11 (BitVec.ofNat 52 m) := by
    have bits : m.log2 < 52 := (Nat.log2_lt pos.ne').mpr small
    show (if 2048 ≤ (-1074 + 1023 + 52 : ℤ).toNat + 1 then packedInfinity Format.binary64 s
      else if m.log2 + 1 = 53 then packComponents Format.binary64 s 1#11 (BitVec.ofNat 52 m)
      else _) = _
    rw [if_neg (by omega), if_neg (by omega)]
  have mantissa : (BitVec.ofNat 52 m).toNat = m := by
    rw [BitVec.toNat_ofNat]
    exact Nat.mod_eq_of_lt small
  have nonzero : BitVec.ofNat 52 m ≠ 0#52 := by
    intro h
    have := congrArg BitVec.toNat h
    rw [mantissa] at this
    simp at this
    omega
  show UnpackedFloat.unpack Format.binary64 (UnpackedFloat.pack Format.binary64 _) = _
  rw [packed, unpack_packComponents, ofParts, if_neg (by decide), if_pos rfl, dif_neg nonzero]
  exact finite_congr mantissa (by simp) _

theorem unpack_pack_overflow {m : ℕ} (pos : 0 < m) {e : ℤ} (high : 971 < e) (s : Sign) :
    (Float.Model.pack (.finite s m e pos)).unpack = .infinity s := by
  have packed : UnpackedFloat.pack Format.binary64 (.finite s m e pos) =
      packedInfinity Format.binary64 s := by
    show (if 2048 ≤ (e + 1023 + 52).toNat + 1 then _ else _) = _
    rw [if_pos (by omega)]
  show UnpackedFloat.unpack Format.binary64 (UnpackedFloat.pack Format.binary64 _) = _
  rw [packed]
  cases s <;> rfl

/- A place on the side of a sign. -/
def side (s : Sign) (p : ℤ ×ₗ ℤ ×ₗ ℤ) : ℤ ×ₗ ℤ ×ₗ ℤ :=
  match s with
  | .positive => p
  | .negative => -p

theorem place_pack_finite {m : ℕ} {e : ℤ} (canonical : Canonical m e) (s : Sign) (pos : 0 < m) :
    place (Float.Model.pack (.finite s m e pos)).unpack = side s (settle (e, m)) := by
  unfold settle
  rw [if_neg pos.ne']
  by_cases high : e ≤ 971
  · have same : (Float.Model.pack (.finite s m e pos)).unpack = .finite s m e pos := by
      rcases canonical with ⟨full, low⟩ | ⟨small, rfl⟩
      · exact unpack_pack_normal full low high s
      · exact unpack_pack_subnormal pos small s
    rw [same, if_pos high]
    cases s <;> rfl
  · rw [unpack_pack_overflow pos (by omega) s, if_neg high]
    cases s <;> rfl

/- The exponent a mantissa is rounded at, by the place of its leading bit. -/
def target (q : ℕ) (t : ℤ) : ℤ := max (q.log2 + 1 + t - 53) (-1074)

theorem target_eq (q : ℕ) (t : ℤ) :
    Format.binary64.targetExponent (totalExponent q t) = target q t := rfl

theorem roundsAt_target {q : ℕ} {t : ℤ} {x : ℚ} (lower : q ≤ x / 2 ^ t)
    (upper : x / 2 ^ t < q + 1) (enough : t ≤ -1074 ∨ 2 ^ 52 ≤ q) : RoundsAt x (target q t) := by
  have scale : (0 : ℚ) < 2 ^ t := zpow_pos two_pos t
  rw [le_div_iff₀ scale] at lower
  rw [div_lt_iff₀ scale] at upper
  refine ⟨le_max_right _ _, ?_, ?_⟩
  · have bits : (q : ℚ) + 1 ≤ 2 ^ ((q.log2 : ℤ) + 1) := by
      exact_mod_cast (Nat.lt_log2_self : q < 2 ^ (q.log2 + 1))
    calc x < (q + 1) * 2 ^ t := upper
      _ ≤ 2 ^ ((q.log2 : ℤ) + 1) * 2 ^ t := mul_le_mul_of_nonneg_right bits scale.le
      _ = 2 ^ ((q.log2 : ℤ) + 1 + t) := (zpow_add₀ two_ne_zero _ _).symm
      _ ≤ 2 ^ (target q t + 53) := two_zpow_le (by unfold target; omega)
  · by_cases normal : target q t = -1074
    · exact .inl normal
    · have nonzero : q ≠ 0 := by
        rintro rfl
        have none : Nat.log2 0 = 0 := by simp
        unfold target at normal
        omega
      have bits : (2 : ℚ) ^ (q.log2 : ℤ) ≤ q := by exact_mod_cast Nat.log2_self_le nonzero
      refine .inr ?_
      calc (2 : ℚ) ^ (target q t + 52) ≤ 2 ^ ((q.log2 : ℤ) + t) := by
            refine two_zpow_le ?_
            unfold target at normal ⊢
            omega
        _ = 2 ^ (q.log2 : ℤ) * 2 ^ t := zpow_add₀ two_ne_zero _ _
        _ ≤ q * 2 ^ t := mul_le_mul_of_nonneg_right bits scale.le
        _ ≤ x := lower

theorem le_target {q : ℕ} {t : ℤ} (enough : t ≤ -1074 ∨ 2 ^ 52 ≤ q) : t ≤ target q t := by
  unfold target
  rcases enough with low | full
  · omega
  · have := (Nat.le_log2 (by omega)).mpr full
    omega

/- The second shift of rounding undoes a carry and nothing else. -/
theorem shift_rounded {k : ℤ} {r : ℕ} (low : -1074 ≤ k) (bound : r ≤ 2 ^ 53) :
    let shifted := shiftToTargetExponent Format.binary64 r k .exact
    shifted.1.mantissa = (carry k r).2 ∧ shifted.2 = (carry k r).1 := by
  unfold carry
  by_cases carried : r = 2 ^ 53
  · subst carried
    have full : Full (2 ^ 52) := ⟨le_rfl, by decide⟩
    have shifted := shift_canonical (k := k) (.inl ⟨full, by omega⟩) (full_pos full) (j := 1) rfl
    rw [if_pos rfl]
    dsimp only
    rw [show 2 ^ 53 = 2 ^ 52 * 2 ^ 1 by rfl, shifted]
    exact ⟨rfl, rfl⟩
  · have bits : r.log2 < 53 := by
      by_cases zero : r = 0
      · subst zero
        decide
      · exact (Nat.log2_lt zero).mpr (by omega)
    have amount : (target r k - k).toNat = 0 := by
      unfold target
      omega
    rw [if_neg carried]
    dsimp only
    rw [shiftToTargetExponent, target_eq, shiftToExponent, amount]
    exact ⟨rfl, add_zero k⟩

theorem place_pack_round {q : ℕ} {t : ℤ} {accuracy : Accuracy} {x : ℚ}
    (tells : Tells (ExtendedMantissa.ofMantissaAndAccuracy q accuracy) (x / 2 ^ t))
    (enough : t ≤ -1074 ∨ 2 ^ 52 ≤ q) (s : Sign) :
    ∃ k r, RoundsTo x k r ∧
      place (Float.Model.pack (roundWithAccuracy Format.binary64 s q t accuracy)).unpack =
        side s (settle (carry k r)) := by
  have floor : (ExtendedMantissa.ofMantissaAndAccuracy q accuracy).mantissa = q := by
    unfold ExtendedMantissa.ofMantissaAndAccuracy
    split <;> rfl
  have bounds := tells_bounds tells
  rw [floor] at bounds
  have higher := le_target enough
  have split : (2 : ℚ) ^ target q t = 2 ^ t * 2 ^ (target q t - t).toNat := by
    rw [← zpow_natCast, Int.toNat_of_nonneg (by omega), ← zpow_add₀ two_ne_zero]
    congr 1
    omega
  have shifted := tells_shift tells (target q t - t).toNat
  rw [div_div, ← split] at shifted
  have rounds : RoundsTo x (target q t) _ :=
    ⟨roundsAt_target bounds.1 bounds.2 enough, _, shifted, rfl⟩
  refine ⟨_, _, rounds, ?_⟩
  have exponent : t + ((target q t - t).toNat : ℤ) = target q t := by omega
  have second := shift_rounded rounds.at_exponent.1 rounds.le
  unfold roundWithAccuracy
  rw [shiftToTargetExponent, target_eq, shiftToExponent]
  dsimp only
  rw [exponent]
  generalize shiftToTargetExponent Format.binary64 _ (target q t) .exact = shifted at second ⊢
  obtain ⟨⟨m, _, _⟩, e⟩ := shifted
  have canonical := rounds.canonical
  generalize carry (target q t) _ = p at second canonical ⊢
  obtain ⟨k, r⟩ := p
  obtain ⟨rfl, rfl⟩ := second
  by_cases zero : m = 0
  · rw [dif_pos zero, settle, if_pos zero]
    cases s <;> rfl
  · rw [dif_neg zero]
    exact place_pack_finite canonical s _

end FleetHealth.Binary64
