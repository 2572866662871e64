import FleetHealth.Proofs.Acceptance
import FleetHealth.Proofs.Binary64Quotients
import FleetHealth.Proofs.HealthTiers
/-!
How a tier depends on what is classified: a better reading is in no worse tier, nor is a greater
share, and a population that is healthy throughout is healthy under every accepted rule.
-/
namespace FleetHealth

open Binary64

/- The side a rule takes for the better one. -/
def Rule.direction : Rule → Direction
  | .banded direction _ _ => direction
  | .capacityRatio _ _ _ | .populationRatio _ _ => .higherIsBetter

namespace Direction

variable {direction : Direction} {a b c good warn : Float}

theorem Ordered.trans (first : direction.Ordered a b) (second : direction.Ordered b c) :
    direction.Ordered a c := by
  cases direction with
  | lowerIsBetter => exact Binary64.le_trans first second
  | higherIsBetter => exact Binary64.le_trans second first

/- Readings are compared with cutoffs as cutoffs are with each other. -/
theorem grade_eq (direction : Direction) (value good warn : Float) :
    direction.grade value good warn = if direction.Ordered value good then .healthy
      else if direction.Ordered value warn then .warning else .critical := by
  cases direction <;> rfl

theorem grade_le_grade (better : direction.Ordered b a) :
    direction.grade b good warn ≤ direction.grade a good warn := by
  rw [grade_eq, grade_eq]
  by_cases well : direction.Ordered a good
  · rw [if_pos well, if_pos (better.trans well)]
    exact Health.le_refl _
  · rw [if_neg well]
    by_cases passable : direction.Ordered a warn
    · rw [if_pos passable, if_pos (better.trans passable)]
      split <;> decide
    · rw [if_neg passable]
      exact Health.le_critical _

end Direction

namespace Rule

variable {rule : Rule}

theorem nominalMax_of_valid {nominalMax good warn : Float}
    (valid : (capacityRatio nominalMax good warn).validate = .ok ()) :
    nominalMax.isFinite = true ∧ 0.0 < nominalMax := by
  by_contra bad
  have refused : (capacityRatio nominalMax good warn).validate = .error (.nominalMax nominalMax) :=
    if_neg bad
  rw [refused] at valid
  cases valid

theorem good_le_one_of_valid {good warn : Float}
    (valid : (populationRatio good warn).validate = .ok ()) : good ≤ 1.0 := by
  by_contra bad
  have refused : (populationRatio good warn).validate = .error (.ratioCutoffs good warn) :=
    if_neg (fun within => bad within.1.2)
  rw [refused] at valid
  cases valid

/-- Under a sound rule a reading at least as good is in no worse tier. -/
theorem classify_le_classify (valid : rule.validate = .ok ()) {a b : Float}
    (better : rule.direction.Ordered b a) : rule.classify b none ≤ rule.classify a none := by
  cases rule with
  | banded direction good warn => exact Direction.grade_le_grade better
  | populationRatio good warn => exact Direction.grade_le_grade better
  | capacityRatio nominalMax good warn =>
    obtain ⟨finite, positive⟩ := nominalMax_of_valid valid
    have ratios : Direction.higherIsBetter.Ordered (b / nominalMax) (a / nominalMax) :=
      div_le_div better finite positive
    exact Direction.grade_le_grade ratios

/-- Of two shares of one total the greater is in no worse tier. -/
theorem classify_share_le (rule : Rule) (value : Float) {few many : UInt32} (total : UInt32)
    (more : few.toNat ≤ many.toNat) :
    rule.classify value (some ⟨many, total⟩) ≤ rule.classify value (some ⟨few, total⟩) := by
  cases rule with
  | banded direction good warn => exact Health.le_refl _
  | capacityRatio nominalMax good warn => exact Health.le_refl _
  | populationRatio good warn =>
    unfold classify
    dsimp only
    by_cases nobody : total = 0
    · rw [if_pos nobody, if_pos nobody]
      exact Health.le_refl _
    · have ratios : Direction.higherIsBetter.Ordered
          (many.toUInt64.toFloat / total.toUInt64.toFloat)
          (few.toUInt64.toFloat / total.toUInt64.toFloat) :=
        div_le_div (count_le_count more) (count_isFinite total) (count_pos nobody)
      rw [if_neg nobody, if_neg nobody]
      exact Direction.grade_le_grade ratios

/-- A population healthy throughout is healthy, no cutoff being above one. -/
theorem classify_whole {good : Float} (cutoff : good ≤ 1.0) (warn value : Float) (n : UInt32) :
    (populationRatio good warn).classify value (some ⟨n, n⟩) = .healthy := by
  unfold classify
  dsimp only
  by_cases nobody : n = 0
  · rw [if_pos nobody]
  · rw [if_neg nobody, Direction.grade_eq, if_pos]
    exact Binary64.le_trans cutoff (one_le_div_self (count_isFinite n) (count_pos nobody))

end Rule

theorem Population.builtinRule_eq (p : Population) :
    ∃ good warn, p.builtinRule = .populationRatio good warn ∧ good ≤ 1.0 := by
  cases p <;> exact ⟨_, _, rfl, by decide +kernel⟩

namespace Catalog

variable {c : Catalog}

theorem Sound.valid_metricRule (sound : c.Sound) {m : Metric} {rule : Rule}
    (ruled : c.thresholds.metrics m = some rule) : rule.validate = .ok () := by
  have passed := sound.metricRules m rule ruled
  unfold checkMetricRule at passed
  split at passed
  · cases passed
  · cases rule with
    | populationRatio good warn => cases passed
    | banded direction good warn => exact mapError_eq_ok passed
    | capacityRatio nominalMax good warn => exact mapError_eq_ok passed

/- A population without a rule of its own has the built-in one. -/
theorem Sound.populationRule (sound : c.Sound) (p : Population) :
    ∃ good warn, (c.thresholds.populations p).getD p.builtinRule = .populationRatio good warn ∧
      good ≤ 1.0 := by
  cases ruled : c.thresholds.populations p with
  | none => exact p.builtinRule_eq
  | some rule =>
    have passed := sound.populationRules p rule ruled
    cases rule with
    | banded direction good warn => cases passed
    | capacityRatio nominalMax good warn => cases passed
    | populationRatio good warn =>
      exact ⟨good, warn, rfl, Rule.good_le_one_of_valid (mapError_eq_ok passed)⟩

theorem Sound.classify_le_classify (sound : c.Sound) {m : Metric} {a b : Float}
    (better : ∀ rule, c.thresholds.metrics m = some rule → rule.direction.Ordered b a) :
    c.thresholds.classify m b none ≤ c.thresholds.classify m a none := by
  unfold Thresholds.classify
  cases ruled : c.thresholds.metrics m with
  | none => exact Health.le_refl _
  | some rule => exact Rule.classify_le_classify (sound.valid_metricRule ruled) (better rule ruled)

theorem Sound.classifyPopulation_whole (sound : c.Sound) (p : Population) {share : Share}
    (whole : share.healthy = share.total) : c.thresholds.classifyPopulation p share = .healthy := by
  obtain ⟨n, _⟩ := share
  obtain rfl : n = _ := whole
  obtain ⟨good, warn, rule, cutoff⟩ := sound.populationRule p
  rw [Thresholds.classifyPopulation, rule]
  exact Rule.classify_whole cutoff warn 0.0 n

end Catalog
end FleetHealth
