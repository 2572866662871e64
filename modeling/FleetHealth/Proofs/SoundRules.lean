import FleetHealth.Proofs.Classification
/-!
What a sound rule makes of every double and every share. Values follow the direction of the rule,
the cutoffs belong to the better side, and no number is lost before it is compared with them. A
share counts by itself: more healthy members are never worse and more members never better.
-/
namespace FleetHealth

open Binary64

namespace Direction

variable {direction : Direction} {value good warn : Float}

theorem ordered_of_beq {cutoff : Float} (same : (value == cutoff) = true) :
    direction.Ordered value cutoff := by
  obtain ⟨upper, lower⟩ := beq_iff.mp same
  cases direction with
  | lowerIsBetter => exact upper
  | higherIsBetter => exact lower

theorem grade_of_good (same : (value == good) = true) :
    direction.grade value good warn = .healthy := by
  rw [grade_eq, if_pos (ordered_of_beq same)]

theorem grade_of_warn (same : (value == warn) = true) :
    direction.grade value good warn ≠ .critical := by
  rw [grade_eq, if_pos (ordered_of_beq same)]
  split <;> decide

theorem grade_of_isNaN (direction : Direction) (missing : value.isNaN = true) (good warn : Float) :
    direction.grade value good warn = .critical := by
  have unordered : ∀ cutoff, ¬direction.Ordered value cutoff := by
    intro cutoff ordered
    have number : value.isNaN = false := by
      cases direction with
      | lowerIsBetter => exact (le_iff.mp ordered).1
      | higherIsBetter => exact (le_iff.mp ordered).2.1
    rw [number] at missing
    cases missing
  rw [grade_eq, if_neg (unordered good), if_neg (unordered warn)]

end Direction

namespace Rule

def good : Rule → Float
  | banded _ good _ | capacityRatio _ good _ | populationRatio good _ => good

def warn : Rule → Float
  | banded _ _ warn | capacityRatio _ _ warn | populationRatio _ warn => warn

/-- What is compared with the cutoffs; nothing is for an empty population. -/
def reading? (rule : Rule) (value : Float) (share : Option Share) : Option Float :=
  match rule, share with
  | banded _ _ _, _ => some value
  | capacityRatio nominalMax _ _, _ => some (value / nominalMax)
  | populationRatio _ _, none => some value
  | populationRatio _ _, some s =>
    if s.total = 0 then none else some (s.healthy.toUInt64.toFloat / s.total.toUInt64.toFloat)

theorem classify_eq (rule : Rule) (value : Float) (share : Option Share) :
    rule.classify value share = match rule.reading? value share with
      | none => .healthy
      | some reading => rule.direction.grade reading rule.good rule.warn := by
  cases rule with
  | banded direction good warn => rfl
  | capacityRatio nominalMax good warn => rfl
  | populationRatio good warn =>
    cases share with
    | none => rfl
    | some s =>
      simp only [classify, reading?]
      split <;> rfl

theorem checkCutoffs_eq_ok_iff {direction : Direction} {good warn : Float} :
    checkCutoffs direction good warn = .ok () ↔
      (good.isFinite = true ∧ warn.isFinite = true) ∧ direction.Ordered good warn := by
  unfold checkCutoffs
  split
  case isTrue infinite => simp [infinite]
  case isFalse finite =>
    rw [not_not] at finite
    split <;> simp_all

/-- The cutoffs of a sound rule are finite and in the order of its direction. -/
theorem cutoffs_of_valid {rule : Rule} (valid : rule.validate = .ok ()) :
    (rule.good.isFinite = true ∧ rule.warn.isFinite = true) ∧
      rule.direction.Ordered rule.good rule.warn := by
  apply checkCutoffs_eq_ok_iff.mp
  unfold validate at valid
  split at valid
  · exact valid
  · split at valid
    · exact valid
    · cases valid
  · split at valid
    · exact valid
    · cases valid

/-- Values alone count: shares are disregarded, what is not a number is critical, and what is graded
is a number exactly if the value is one. -/
structure OfValues (rule : Rule) : Prop where
  shareless : ∀ value share, rule.classify value share = rule.classify value none
  critical : ∀ value share, value.isNaN = true → rule.classify value share = .critical
  graded : ∀ value share, ∃ reading, rule.reading? value share = some reading ∧
    rule.classify value share = rule.direction.grade reading rule.good rule.warn ∧
    reading.isNaN = value.isNaN

/-- A share counts alone: values are disregarded, nobody and everybody are healthy, and the tier
follows both counts. -/
structure OfShares (rule : Rule) : Prop where
  valueless : ∀ value value' share,
    rule.classify value (some share) = rule.classify value' (some share)
  population : ∀ (t : Thresholds) (p : Population) (value : Float) (share : Share),
    t.populations p = some rule → t.classifyPopulation p share = rule.classify value (some share)
  nobody : ∀ value healthy, rule.classify value (some ⟨healthy, 0⟩) = .healthy
  everybody : ∀ value n, rule.classify value (some ⟨n, n⟩) = .healthy
  healthier : ∀ value few many total, few ≤ many →
    rule.classify value (some ⟨many, total⟩) ≤ rule.classify value (some ⟨few, total⟩)
  larger : ∀ value healthy small large, 0 < small → small ≤ large →
    rule.classify value (some ⟨healthy, small⟩) ≤ rule.classify value (some ⟨healthy, large⟩)

theorem ofValues_banded (direction : Direction) (good warn : Float) :
    (banded direction good warn).OfValues where
  shareless := fun _ _ => rfl
  critical := fun _ _ missing => direction.grade_of_isNaN missing good warn
  graded := fun value _ => ⟨value, rfl, rfl, rfl⟩

theorem ofValues_capacityRatio {nominalMax good warn : Float}
    (valid : (capacityRatio nominalMax good warn).validate = .ok ()) :
    (capacityRatio nominalMax good warn).OfValues := by
  obtain ⟨finite, positive⟩ := nominalMax_of_valid valid
  have number (value : Float) := div_isNaN value finite positive
  refine ⟨fun _ _ => rfl, ?_, fun value _ => ⟨_, rfl, rfl, number value⟩⟩
  intro value share missing
  exact Direction.grade_of_isNaN .higherIsBetter ((number value).trans missing) good warn

/-- Of two populations with as many healthy members the larger is in no better tier. -/
theorem classify_share_le_larger (good warn value : Float) (healthy : UInt32)
    {small large : UInt32} (nonempty : 0 < small) (order : small ≤ large) :
    (populationRatio good warn).classify value (some ⟨healthy, small⟩) ≤
      (populationRatio good warn).classify value (some ⟨healthy, large⟩) := by
  have nonzero : small ≠ 0 := by
    rintro rfl
    exact absurd nonempty (by decide)
  have nonzero' : large ≠ 0 := by
    rintro rfl
    exact nonzero (UInt32.le_zero_iff.mp order)
  have nonneg : 0.0 ≤ healthy.toUInt64.toFloat := count_le_count (v := 0) (Nat.zero_le _)
  have ratios : Direction.higherIsBetter.Ordered
      (healthy.toUInt64.toFloat / small.toUInt64.toFloat)
      (healthy.toUInt64.toFloat / large.toUInt64.toFloat) :=
    div_le_div_left nonneg (count_pos nonzero) (count_le_count (UInt32.le_iff_toNat_le.mp order))
      (count_isFinite small) (count_isFinite large)
  unfold classify
  dsimp only
  rw [if_neg nonzero, if_neg nonzero']
  exact Direction.grade_le_grade ratios

theorem ofShares_populationRatio {good warn : Float}
    (valid : (populationRatio good warn).validate = .ok ()) :
    (populationRatio good warn).OfShares where
  valueless := fun _ _ _ => rfl
  population := by
    intro t p value share ruled
    rw [Thresholds.classifyPopulation, ruled]
    rfl
  nobody := fun _ _ => rfl
  everybody := classify_whole (good_le_one_of_valid valid) warn
  healthier := fun value _ _ total more =>
    classify_share_le _ value total (UInt32.le_iff_toNat_le.mp more)
  larger := fun value healthy _ _ nonempty order =>
    classify_share_le_larger good warn value healthy nonempty order

/-- A sound rule has finite cutoffs that belong to the better side; its tiers follow the values, in
the direction of the rule, or the shares. -/
theorem sound_rule_classifies {rule : Rule} (sound : rule.validate = .ok ()) :
    (rule.good.isFinite = true ∧ rule.warn.isFinite = true) ∧
    (∀ value share reading, rule.reading? value share = some reading →
      ((reading == rule.good) = true → rule.classify value share = .healthy) ∧
      ((reading == rule.warn) = true → rule.classify value share ≠ .critical)) ∧
    match rule with
    | banded .lowerIsBetter _ _ =>
      rule.OfValues ∧ ∀ a b : Float, a ≤ b → rule.classify a none ≤ rule.classify b none
    | banded .higherIsBetter _ _ | capacityRatio _ _ _ =>
      rule.OfValues ∧ ∀ a b : Float, a ≤ b → rule.classify b none ≤ rule.classify a none
    | populationRatio _ _ => rule.OfShares := by
  refine ⟨(cutoffs_of_valid sound).1, ?_, ?_⟩
  · intro value share reading read
    rw [classify_eq, read]
    exact ⟨Direction.grade_of_good, Direction.grade_of_warn⟩
  · cases rule with
    | banded direction good warn =>
      have values := ofValues_banded direction good warn
      cases direction with
      | lowerIsBetter => exact ⟨values, fun a b order => classify_le_classify sound order⟩
      | higherIsBetter => exact ⟨values, fun a b order => classify_le_classify sound order⟩
    | capacityRatio nominalMax good warn =>
      exact ⟨ofValues_capacityRatio sound, fun a b order => classify_le_classify sound order⟩
    | populationRatio good warn => exact ofShares_populationRatio sound

/-- A share of the nominal maximum and one of a population, each under a sound rule. -/
theorem sound_rule_classifies_ratios :
    (∀ a b : Float, a ≤ b → (capacityRatio 1000.0 0.5 0.2).classify b none ≤
      (capacityRatio 1000.0 0.5 0.2).classify a none) ∧
    (populationRatio 0.9 0.7).OfShares := by
  have capacity : (capacityRatio 1000.0 0.5 0.2).validate = .ok () := by decide +kernel
  have population : (populationRatio 0.9 0.7).validate = .ok () := by decide +kernel
  exact ⟨(sound_rule_classifies capacity).2.2.2, (sound_rule_classifies population).2.2⟩

end Rule
end FleetHealth
