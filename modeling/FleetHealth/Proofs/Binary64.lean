import Mathlib.Algebra.Order.Field.Rat
/-!
Doubles by the numbers they decode to. A sum that starts from a number and adds finite numbers may
overflow but stays a number, and so does its quotient by a finite number other than zero.
-/
namespace FleetHealth.Binary64

open Float.Model Float.Model.UnpackedFloat

/- A mantissa of 53 bits, the leading one included. -/
def Full (m : Nat) : Prop := 2 ^ 52 ≤ m ∧ m < 2 ^ 53

theorem full_pos {m : Nat} (full : Full m) : 0 < m := by
  have := full.1
  omega

/- A mantissa of a double at its exponent: all bits in use, or the least exponent. -/
def Canonical (m : Nat) (e : Int) : Prop := Full m ∧ -1074 ≤ e ∨ m < 2 ^ 52 ∧ e = -1074

theorem log2_mul_two_pow {m : Nat} (pos : 0 < m) (j : Nat) : (m * 2 ^ j).log2 = m.log2 + j := by
  have shifted : m * 2 ^ j ≠ 0 := (Nat.mul_pos pos (Nat.two_pow_pos j)).ne'
  refine (Nat.log2_eq_iff shifted).mpr ⟨?_, ?_⟩
  · rw [Nat.pow_add]
    exact Nat.mul_le_mul_right _ (Nat.log2_self_le pos.ne')
  · rw [Nat.add_right_comm, Nat.pow_add]
    exact Nat.mul_lt_mul_of_pos_right Nat.lt_log2_self (Nat.two_pow_pos j)

theorem log2_full {m : Nat} (full : Full m) : m.log2 = 52 :=
  (Nat.log2_eq_iff (full_pos full).ne').mpr full

/- Zeros shifted in from the right are shifted out again without a trace. -/
theorem shift_back (m j : Nat) :
    (⟨m * 2 ^ j, false, false⟩ : ExtendedMantissa) >>> j = ⟨m, false, false⟩ := by
  induction j generalizing m with
  | zero =>
    rw [Nat.pow_zero, Nat.mul_one]
    rfl
  | succ j ih =>
    have step : (⟨m * 2 ^ (j + 1), false, false⟩ : ExtendedMantissa) >>> (j + 1) =
        ((⟨m * 2 * 2 ^ j, false, false⟩ : ExtendedMantissa) >>> j).shiftRightOne := by
      rw [Nat.pow_succ, Nat.mul_comm (2 ^ j), ← Nat.mul_assoc]
      rfl
    rw [step, ih]
    simp [ExtendedMantissa.shiftRightOne]

theorem shift_canonical {m : Nat} {e k : Int} (canonical : Canonical m e) (pos : 0 < m) {j : Nat}
    (start : k + j = e) :
    shiftToTargetExponent Format.binary64 (m * 2 ^ j) k .exact = (⟨m, false, false⟩, e) := by
  have target : Format.binary64.targetExponent (totalExponent (m * 2 ^ j) k) = e := by
    rw [totalExponent, log2_mul_two_pow pos]
    show max (_ - (53 : Int)) (-1074) = _
    rcases canonical with ⟨full, low⟩ | ⟨small, rfl⟩
    · rw [log2_full full]
      omega
    · have := (Nat.log2_lt pos.ne').mpr small
      omega
  have amount : (e - k).toNat = j := by omega
  rw [shiftToTargetExponent, target, shiftToExponent, amount]
  exact Prod.ext (shift_back m j) start

/-- Nothing is rounded away where all the bits beyond the mantissa are zeros. -/
theorem round_exact {m : Nat} {e k : Int} (canonical : Canonical m e) (pos : 0 < m) {j : Nat}
    (start : k + j = e) (s : Sign) :
    roundWithAccuracy Format.binary64 s (m * 2 ^ j) k .exact = .finite s m e pos := by
  have first := shift_canonical canonical pos start
  have second := shift_canonical canonical pos (j := 0) (Int.add_zero e)
  rw [Nat.pow_zero, Nat.mul_one] at second
  have rounded : (⟨m, false, false⟩ : ExtendedMantissa).roundedMantissa = m := rfl
  unfold roundWithAccuracy
  rw [first]
  dsimp only
  rw [rounded, second]
  exact dif_neg pos.ne'

theorem toNat_leading_one (y : BitVec 52) : (1#1 ++ y).toNat = 2 ^ 52 + y.toNat := by
  rw [BitVec.toNat_append, ← Nat.shiftLeft_add_eq_or_of_lt y.isLt, Nat.shiftLeft_eq]
  rfl

theorem full_leading_one (y : BitVec 52) : Full (1#1 ++ y).toNat := by
  rw [Full, toNat_leading_one]
  omega

/- All ones stand for what is not finite and all zeros for the least numbers. -/
theorem biased_bounds {x : BitVec 11} (least : x ≠ 0#11) (ones : x ≠ -1#11) :
    1 ≤ x.toNat ∧ x.toNat ≤ 2046 := by
  have exponent := x.isLt
  have biased : x.toNat ≠ 0 := fun none => least (BitVec.eq_of_toNat_eq none)
  have below : x.toNat ≠ 2047 := fun all => ones (BitVec.eq_of_toNat_eq all)
  omega

/-- The number of a sign, an exponent with its bias and a mantissa without its leading one. -/
def ofParts (s : Sign) (x : BitVec 11) (y : BitVec 52) : UnpackedFloat :=
  if x = -1#11 then
    if y = 0#52 then .infinity s else .notANumber
  else if x = 0#11 then
    if h : y = 0#52 then .zero s
    else .finite s y.toNat ((x.toNat : Int) - (1023 + 52) + 1)
      (by simpa [BitVec.toNat_pos, BitVec.pos_iff_ne_zero])
  else .finite s (1#1 ++ y).toNat ((x.toNat : Int) - (1023 + 52))
    (by rw [toNat_leading_one]; omega)

/-- The sign is what its bit says. -/
theorem sign_of_components (s : Sign) (x : BitVec 11) (y : BitVec 52) :
    Sign.ofBitVec (unpackSign (packComponents Format.binary64 s x y)) = s := by
  have bit : unpackSign (packComponents Format.binary64 s x y) = s.toBitVec := by
    show (s.toBitVec ++ x ++ y).extractLsb' 63 1 = s.toBitVec
    rw [BitVec.extractLsb'_append_eq_of_le (by decide),
      BitVec.extractLsb'_append_eq_of_le (by decide)]
    exact BitVec.extractLsb'_eq_self
  rw [bit]
  cases s <;> rfl

theorem unpack_packComponents (s : Sign) (x : BitVec 11) (y : BitVec 52) :
    UnpackedFloat.unpack Format.binary64 (packComponents Format.binary64 s x y) = ofParts s x y := by
  show ofParts (Sign.ofBitVec (unpackSign (packComponents Format.binary64 s x y)))
    (unpackExponent (packComponents Format.binary64 s x y))
    (unpackMantissa (packComponents Format.binary64 s x y)) = _
  rw [sign_of_components, unpackExponent_packComponents, unpackMantissa_packComponents]

theorem finite_congr {s : Sign} {m n : Nat} {e f : Int} (mantissa : m = n) (exponent : e = f)
    (pos : 0 < m) : UnpackedFloat.finite s m e pos = .finite s n f (mantissa ▸ pos) := by
  subst mantissa
  subst exponent
  rfl

theorem pack_normal {m : Nat} (full : Full m) {e : Int} (low : -1074 ≤ e) (high : e ≤ 971)
    (s : Sign) : UnpackedFloat.pack Format.binary64 (.finite s m e (full_pos full)) =
      packComponents Format.binary64 s (BitVec.ofNat 11 (e + 1023 + 52).toNat)
        (BitVec.ofNat 52 m) := by
  show (if 2048 ≤ (e + 1023 + 52).toNat + 1 then _ else if m.log2 + 1 = 53 then _ else _) = _
  rw [if_neg (by omega), if_pos (by rw [log2_full full])]
  rfl

theorem pack_subnormal {m : Nat} (pos : 0 < m) (small : m < 2 ^ 52) {e : Int} (least : e = -1074)
    (s : Sign) : UnpackedFloat.pack Format.binary64 (.finite s m e pos) =
      packComponents Format.binary64 s 0#11 (BitVec.ofNat 52 m) := by
  have short : m.log2 < 52 := (Nat.log2_lt pos.ne').mpr small
  show (if 2048 ≤ (e + 1023 + 52).toNat + 1 then _ else if m.log2 + 1 = 53 then _ else _) = _
  rw [if_neg (by omega), if_neg (by omega)]

/-- Parts that do not stand for what is not a number are found again. -/
theorem pack_ofParts (s : Sign) (x : BitVec 11) (y : BitVec 52) (number : x = -1#11 → y = 0#52) :
    UnpackedFloat.pack Format.binary64 (ofParts s x y) =
      packComponents Format.binary64 s x y := by
  have bits := y.isLt
  by_cases ones : x = -1#11
  · rw [ofParts, if_pos ones, if_pos (number ones), ones, number ones]
    rfl
  by_cases least : x = 0#11
  · by_cases blank : y = 0#52
    · rw [ofParts, if_neg ones, if_pos least, dif_pos blank, least, blank]
      rfl
    · have pos : 0 < y.toNat := Nat.pos_of_ne_zero (fun none => blank (BitVec.eq_of_toNat_eq none))
      have unbiased : (x.toNat : Int) - (1023 + 52) + 1 = -1074 := by
        rw [least]
        rfl
      rw [ofParts, if_neg ones, if_pos least, dif_neg blank, pack_subnormal pos bits unbiased,
        least, BitVec.ofNat_toNat, BitVec.setWidth_eq]
  · have biased := biased_bounds least ones
    have restored : ((x.toNat : Int) - (1023 + 52) + 1023 + 52).toNat = x.toNat := by omega
    have mantissa : BitVec.ofNat 52 (1#1 ++ y).toNat = y := by
      apply BitVec.eq_of_toNat_eq
      rw [BitVec.toNat_ofNat, toNat_leading_one]
      omega
    rw [ofParts, if_neg ones, if_neg least, pack_normal (full_leading_one y) (by omega)
      (by omega), restored, mantissa, BitVec.ofNat_toNat, BitVec.setWidth_eq]

/-- What parts stand for that is finite and not zero has its mantissa in its place. -/
theorem canonical_of_parts {s t : Sign} {x : BitVec 11} {y : BitVec 52} {m : Nat} {e : Int}
    {pos : 0 < m} (parts : ofParts s x y = .finite t m e pos) : Canonical m e ∧ e ≤ 971 := by
  have bits := y.isLt
  unfold ofParts at parts
  by_cases ones : x = -1#11
  · rw [if_pos ones] at parts
    by_cases blank : y = 0#52
    · rw [if_pos blank] at parts
      cases parts
    · rw [if_neg blank] at parts
      cases parts
  rw [if_neg ones] at parts
  by_cases least : x = 0#11
  · rw [if_pos least] at parts
    by_cases blank : y = 0#52
    · rw [dif_pos blank] at parts
      cases parts
    · rw [dif_neg blank] at parts
      cases parts
      have unbiased : x.toNat = 0 := congrArg BitVec.toNat least
      exact ⟨.inr ⟨bits, by omega⟩, by omega⟩
  · rw [if_neg least] at parts
    cases parts
    have biased := biased_bounds least ones
    exact ⟨.inl ⟨full_leading_one y, by omega⟩, by omega⟩

theorem packComponents_parts (b : BitVec 64) :
    packComponents Format.binary64 (Sign.ofBitVec (@unpackSign .binary64 b))
      (unpackExponent b) (unpackMantissa b) = b := by
  have sign : ∀ w : BitVec 1, (Sign.ofBitVec w).toBitVec = w := by decide
  have high : b.extractLsb' 63 1 ++ b.extractLsb' 52 11 = b.extractLsb' 52 12 :=
    BitVec.extractLsb'_append_extractLsb'_eq_extractLsb' rfl
  have all : b.extractLsb' 52 12 ++ b.extractLsb' 0 52 = b.extractLsb' 0 64 :=
    BitVec.extractLsb'_append_extractLsb'_eq_extractLsb' rfl
  show (Sign.ofBitVec (b.extractLsb' 63 1)).toBitVec ++ b.extractLsb' 52 11 ++ b.extractLsb' 0 52 = b
  rw [sign, high, all]
  exact BitVec.extractLsb'_eq_self

theorem eq_of_toBits {f g : Float.Model} (same : f.toBits = g.toBits) : f = g := by
  cases f
  cases g
  cases same
  rfl

/-- No double is lost where it is unpacked. -/
theorem pack_unpack (f : Float.Model) : Float.Model.pack f.unpack = f := by
  obtain ⟨⟨bits⟩, valid⟩ := f
  have same : UnpackedFloat.pack Format.binary64 (UnpackedFloat.unpack Format.binary64 bits) =
      bits := by
    by_cases number : @unpackExponent .binary64 bits = -1#11 →
        @unpackMantissa .binary64 bits = 0#52
    · exact (pack_ofParts _ _ _ number).trans (packComponents_parts bits)
    · obtain ⟨ones, filled⟩ := Classical.not_imp.mp number
      have packed : bits = packedNaN Format.binary64 := valid.eq_packedNaN ones filled
      rw [packed]
      rfl
  exact eq_of_toBits (congrArg UInt64.ofBitVec same)

theorem unpack_pack_normal {m : Nat} (full : Full m) {e : Int} (low : -1074 ≤ e) (high : e ≤ 971)
    (s : Sign) :
    (Float.Model.pack (.finite s m e (full_pos full))).unpack = .finite s m e (full_pos full) := by
  let biased := (e + 1023 + 52).toNat
  have bound : 1 ≤ biased ∧ biased ≤ 2046 := by omega
  have packed : UnpackedFloat.pack Format.binary64 (.finite s m e (full_pos full)) =
      packComponents Format.binary64 s (BitVec.ofNat 11 biased) (BitVec.ofNat 52 m) :=
    pack_normal full low high s
  have exponent : (BitVec.ofNat 11 biased).toNat = biased := by
    rw [BitVec.toNat_ofNat]
    exact Nat.mod_eq_of_lt (by omega)
  have not_ones : BitVec.ofNat 11 biased ≠ -1#11 := by
    intro h
    have := congrArg BitVec.toNat h
    rw [exponent] at this
    simp at this
    omega
  have not_zero : BitVec.ofNat 11 biased ≠ 0#11 := by
    intro h
    have := congrArg BitVec.toNat h
    rw [exponent] at this
    simp at this
    omega
  have mantissa : (1#1 ++ BitVec.ofNat 52 m).toNat = m := by
    obtain ⟨lower, upper⟩ := full
    rw [toNat_leading_one, BitVec.toNat_ofNat]
    omega
  show UnpackedFloat.unpack Format.binary64 (UnpackedFloat.pack Format.binary64 _) = _
  rw [packed, unpack_packComponents, ofParts, if_neg not_ones, if_neg not_zero]
  have unbiased : ((BitVec.ofNat 11 biased).toNat : Int) - (1023 + 52) = e := by
    rw [exponent]
    omega
  exact finite_congr mantissa unbiased _

theorem isNaN_dite {p : Prop} [Decidable p] {u : p → UnpackedFloat} {v : ¬p → UnpackedFloat}
    (left : ∀ h, (u h).isNaN = false) (right : ∀ h, (v h).isNaN = false) :
    (dite p u v).isNaN = false := by
  by_cases h : p
  · rw [dif_pos h]
    exact left h
  · rw [dif_neg h]
    exact right h

theorem ofParts_isNaN {x : BitVec 11} (below : x ≠ -1#11) (s : Sign) (y : BitVec 52) :
    (ofParts s x y).isNaN = false := by
  rw [ofParts, if_neg below]
  exact isNaN_dite (fun _ => isNaN_dite (fun _ => rfl) (fun _ => rfl)) (fun _ => rfl)

theorem round_isNaN (s : Sign) (m : Nat) (e : Int) (accuracy : Accuracy) :
    (roundWithAccuracy Format.binary64 s m e accuracy).isNaN = false := by
  unfold roundWithAccuracy
  exact isNaN_dite (fun _ => rfl) (fun _ => rfl)

theorem normalize_isNaN (m e : Int) (s : Sign) :
    (UnpackedFloat.normalize Format.binary64 m e s).isNaN = false := by
  unfold UnpackedFloat.normalize
  split
  · exact round_isNaN _ _ _ _
  · rfl
  · exact round_isNaN _ _ _ _

theorem unpack_pack_isNaN (u : UnpackedFloat) : (Float.Model.pack u).unpack.isNaN = u.isNaN := by
  cases u with
  | notANumber => rfl
  | infinity s => cases s <;> rfl
  | zero s => cases s <;> rfl
  | finite s m e pos =>
    have number {x : BitVec 11} (below : x ≠ -1#11) (y : BitVec 52) :
        (UnpackedFloat.unpack Format.binary64
          (packComponents Format.binary64 s x y)).isNaN = false := by
      rw [unpack_packComponents]
      exact ofParts_isNaN below s y
    show (UnpackedFloat.unpack Format.binary64 (if 2048 ≤ (e + 1023 + 52).toNat + 1 then _
      else if m.log2 + 1 = 53 then _ else _)).isNaN = false
    by_cases large : 2048 ≤ (e + 1023 + 52).toNat + 1
    · rw [if_pos large]
      cases s <;> rfl
    rw [if_neg large]
    by_cases long : m.log2 + 1 = 53
    · rw [if_pos long]
      refine number ?_ _
      intro ones
      have biased : (e + 1023 + 52).toNat % 2048 = 2047 := congrArg BitVec.toNat ones
      omega
    · rw [if_neg long]
      exact number (by decide) _

theorem unpacked_add_isNaN {u v : UnpackedFloat} (number : u.isNaN = false)
    (finite : v.isFinite = true) : (UnpackedFloat.add Format.binary64 u v).isNaN = false := by
  cases v with
  | notANumber => cases finite
  | infinity s => cases finite
  | zero t =>
    cases u with
    | notANumber => cases number
    | infinity s => rfl
    | zero s => cases s <;> cases t <;> rfl
    | finite s m e pos => rfl
  | finite t n f nonzero =>
    cases u with
    | notANumber => cases number
    | infinity s => rfl
    | zero s => rfl
    | finite s m e pos => exact normalize_isNaN _ _ _

/- Dividing by a finite number other than zero. -/
theorem unpacked_div_isNaN {u : UnpackedFloat} (number : u.isNaN = false) (t : Sign) {n : Nat}
    (f : Int) (nonzero : 0 < n) :
    (UnpackedFloat.div Format.binary64 u (.finite t n f nonzero)).isNaN = false := by
  cases u with
  | notANumber => cases number
  | infinity s => rfl
  | zero s => rfl
  | finite s m e pos => exact round_isNaN _ _ _ _

/-- A number plus a finite number is a number, if perhaps an infinite one. -/
theorem add_isNaN {a b : Float} (number : a.isNaN = false) (finite : b.isFinite = true) :
    (a + b).isNaN = false :=
  (unpack_pack_isNaN _).trans (unpacked_add_isNaN number finite)

theorem full_shift {n : Nat} (pos : 0 < n) (small : n < 2 ^ 53) : Full (n * 2 ^ (52 - n.log2)) := by
  have lower := Nat.log2_self_le (Nat.ne_of_gt pos)
  have upper : n < 2 ^ (n.log2 + 1) := Nat.lt_log2_self
  have place : n.log2 ≤ 52 := by
    have := (Nat.log2_lt (Nat.ne_of_gt pos)).mpr small
    omega
  constructor
  · calc 2 ^ 52 = 2 ^ n.log2 * 2 ^ (52 - n.log2) := by rw [← Nat.pow_add]; congr 1; omega
      _ ≤ n * 2 ^ (52 - n.log2) := Nat.mul_le_mul_right _ lower
  · calc n * 2 ^ (52 - n.log2) < 2 ^ (n.log2 + 1) * 2 ^ (52 - n.log2) :=
          Nat.mul_lt_mul_of_pos_right upper (Nat.two_pow_pos _)
      _ = 2 ^ 53 := by rw [← Nat.pow_add]; congr 1; omega

/- A whole number of at most 53 bits, moved up until it fills the mantissa. -/
theorem round_whole {n : Nat} (pos : 0 < n) (small : n < 2 ^ 53) :
    UnpackedFloat.round Format.binary64 .positive n 0 =
      .finite .positive (n * 2 ^ (52 - n.log2)) (n.log2 - 52) (full_pos (full_shift pos small)) := by
  have place : n.log2 < 53 := (Nat.log2_lt (Nat.ne_of_gt pos)).mpr small
  have target : Format.binary64.targetExponent (totalExponent n 0) = n.log2 - 52 := by
    show max ((n.log2 : Int) + 1 + 0 - 53) (-1074) = _
    omega
  have amount : ((0 : Int) - (n.log2 - 52)).toNat = 52 - n.log2 := by omega
  have exponent : (0 : Int) - ((52 - n.log2 : Nat) : Int) = n.log2 - 52 := by omega
  have low : (-1074 : Int) ≤ n.log2 - 52 := by omega
  have rounded := round_exact (.inl ⟨full_shift pos small, low⟩) (full_pos (full_shift pos small))
    (j := 0) (Int.add_zero _) .positive
  rw [Nat.pow_zero, Nat.mul_one] at rounded
  rw [UnpackedFloat.round, target, decreaseExponent, amount, exponent, Nat.shiftLeft_eq]
  exact rounded

theorem unpack_word {w : UInt64} {n : Nat} (value : w.toNat = n) (pos : 0 < n)
    (small : n < 2 ^ 53) :
    w.toFloat.toModel.unpack = .finite .positive (n * 2 ^ (52 - n.log2)) (n.log2 - 52)
      (full_pos (full_shift pos small)) := by
  subst value
  have place : w.toNat.log2 < 53 := (Nat.log2_lt (Nat.ne_of_gt pos)).mpr small
  have sign : compare (w.toNat : Int) 0 = .gt := by
    rw [Int.compare_eq_gt]
    omega
  have rounded : UnpackedFloat.ofUInt64 Format.binary64 w = .finite .positive
      (w.toNat * 2 ^ (52 - w.toNat.log2)) (w.toNat.log2 - 52)
        (full_pos (full_shift pos small)) := by
    show (match compare (w.toNat : Int) 0 with | .lt => _ | .eq => _ | .gt => _) = _
    rw [sign]
    exact round_whole pos small
  show (Float.Model.pack (UnpackedFloat.ofUInt64 Format.binary64 w)).unpack = _
  rw [rounded]
  exact unpack_pack_normal (full_shift pos small) (by omega) (by omega) .positive

/-- Whole numbers of at most 53 bits are doubles. -/
theorem unpack_whole {n : Nat} (pos : 0 < n) (small : n < 2 ^ 53) :
    n.toFloat.toModel.unpack = .finite .positive (n * 2 ^ (52 - n.log2)) (n.log2 - 52)
      (full_pos (full_shift pos small)) := by
  have full := full_shift pos small
  have place : n.log2 < 53 := (Nat.log2_lt (Nat.ne_of_gt pos)).mpr small
  have word : n.toUInt64.toNat = n := Nat.mod_eq_of_lt (by omega)
  -- small whole numbers are read as a word times ten to the power of zero
  have product : n.toFloat = n.toUInt64.toFloat * Float.ofBits 0x3FF0000000000000 := by
    have fast : n < 2 ^ 53 ∧ 0 ≤ 22 := ⟨small, by decide⟩
    show Float.ofScientific n false 0 = _
    unfold Float.ofScientific
    rw [dif_pos fast]
    rfl
  have one : (Float.ofBits 0x3FF0000000000000).toModel.unpack =
      .finite .positive (2 ^ 52) (-52) (by decide) := rfl
  have left := unpack_word word pos small
  have low : (-1074 : Int) ≤ n.log2 - 52 := by omega
  have exact : roundWithAccuracy Format.binary64 .positive _ (n.log2 - 52 + -52) .exact = _ :=
    round_exact (.inl ⟨full, low⟩) (full_pos full) (j := 52) (by omega) .positive
  rw [product]
  show (Float.Model.pack (UnpackedFloat.mul Format.binary64 n.toUInt64.toFloat.toModel.unpack
    (Float.ofBits 0x3FF0000000000000).toModel.unpack)).unpack = _
  rw [left, one]
  show (Float.Model.pack (roundWithAccuracy Format.binary64 .positive _ _ .exact)).unpack = _
  rw [exact]
  exact unpack_pack_normal full (by omega) (by omega) .positive

end FleetHealth.Binary64
