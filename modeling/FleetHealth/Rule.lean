import FleetHealth.Health
import FleetHealth.Decimal.Layout
/-!
Threshold rules. The cutoffs belong to the better side, so every number falls into exactly one
tier; what is not a number meets no cutoff and is critical.
-/
namespace FleetHealth

inductive Direction where
  | lowerIsBetter
  | higherIsBetter
  deriving DecidableEq, Repr

namespace Direction

def all : List Direction := [lowerIsBetter, higherIsBetter]

def name : Direction → String
  | lowerIsBetter => "lower_is_better"
  | higherIsBetter => "higher_is_better"

def ofName? (s : String) : Option Direction := all.find? (fun d => d.name = s)

end Direction

/-- Healthy members out of a total. -/
structure Share where
  healthy : UInt32
  total : UInt32
  deriving DecidableEq, Repr

inductive Rule where
  /- A value against the cutoffs. -/
  | banded (direction : Direction) (good warn : Float)
  /- A value as a fraction of the nominal maximum, higher being better. -/
  | capacityRatio (nominalMax good warn : Float)
  /- A share of healthy members, higher being better. -/
  | populationRatio (good warn : Float)
  deriving DecidableEq, Repr

inductive RuleFault where
  | nominalMax (value : Float)
  | ratioCutoffs (good warn : Float)
  | infiniteCutoffs (good warn : Float)
  | cutoffOrder (direction : Direction) (good warn : Float)
  deriving DecidableEq, Repr

def RuleFault.message : RuleFault → String
  | nominalMax value => "nominal_max must be > 0, got " ++ Decimal.plain value
  | ratioCutoffs good warn =>
    "population ratio cutoffs must be within 0..=1, got good=" ++ Decimal.plain good ++
      " warn=" ++ Decimal.plain warn
  | infiniteCutoffs good warn =>
    "cutoffs must be finite, got good=" ++ Decimal.plain good ++ " warn=" ++ Decimal.plain warn
  | cutoffOrder .lowerIsBetter good warn =>
    "lower_is_better requires good <= warn, got good=" ++ Decimal.plain good ++
      " warn=" ++ Decimal.plain warn
  | cutoffOrder .higherIsBetter good warn =>
    "higher_is_better requires good >= warn, got good=" ++ Decimal.plain good ++
      " warn=" ++ Decimal.plain warn

def Direction.grade (direction : Direction) (value good warn : Float) : Health :=
  match direction with
  | .lowerIsBetter =>
    if value ≤ good then .healthy else if value ≤ warn then .warning else .critical
  | .higherIsBetter =>
    if value ≥ good then .healthy else if value ≥ warn then .warning else .critical

def Direction.Ordered (direction : Direction) (good warn : Float) : Prop :=
  match direction with
  | .lowerIsBetter => good ≤ warn
  | .higherIsBetter => good ≥ warn

instance (direction : Direction) (good warn : Float) : Decidable (direction.Ordered good warn) := by
  cases direction <;> unfold Direction.Ordered <;> infer_instance

namespace Rule

/-- The tier of a value. A population rule takes the share if one is given, and an empty
population is healthy; otherwise the value counts as a ratio already. The other shapes have no
use for a share. -/
def classify (rule : Rule) (value : Float) (share : Option Share) : Health :=
  match rule with
  | banded direction good warn => direction.grade value good warn
  | capacityRatio nominalMax good warn =>
    Direction.higherIsBetter.grade (value / nominalMax) good warn
  | populationRatio good warn =>
    match share with
    | none => Direction.higherIsBetter.grade value good warn
    | some s =>
      if s.total = 0 then .healthy
      else
        Direction.higherIsBetter.grade (s.healthy.toUInt64.toFloat / s.total.toUInt64.toFloat)
          good warn

def checkCutoffs (direction : Direction) (good warn : Float) : Except RuleFault Unit :=
  if ¬(good.isFinite ∧ warn.isFinite) then .error (.infiniteCutoffs good warn)
  else if direction.Ordered good warn then .ok ()
  else .error (.cutoffOrder direction good warn)

/-- Cutoffs finite and in order, ratios within 0 and 1, a positive nominal maximum. -/
def validate (rule : Rule) : Except RuleFault Unit :=
  match rule with
  | banded direction good warn => checkCutoffs direction good warn
  | capacityRatio nominalMax good warn =>
    if nominalMax.isFinite ∧ nominalMax > 0.0 then checkCutoffs .higherIsBetter good warn
    else .error (.nominalMax nominalMax)
  | populationRatio good warn =>
    if (0.0 ≤ good ∧ good ≤ 1.0) ∧ (0.0 ≤ warn ∧ warn ≤ 1.0) then
      checkCutoffs .higherIsBetter good warn
    else .error (.ratioCutoffs good warn)

end Rule
end FleetHealth
