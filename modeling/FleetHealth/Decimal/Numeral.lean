import FleetHealth.Decimal.Digits
/-!
Numerals as they stand in documents, and the doubles nearest to them.
-/
namespace FleetHealth.Decimal

/-- The number (-1)^negative * significand * 10^exponent. -/
structure Numeral where
  negative : Bool
  significand : Nat
  exponent : Int
  deriving DecidableEq, Repr

namespace Numeral

/- Beyond the first bound a number exceeds every double, beyond the second it is closer to zero
   than to any other. -/
def toFloat (n : Numeral) : Float :=
  let magnitude : Float :=
    if n.significand = 0 then 0.0
    else
      let leading := n.exponent + (digits n.significand).length
      if 310 < leading then 1.0 / 0.0
      else if leading < -330 then 0.0
      else Float.ofScientific n.significand (n.exponent < 0) n.exponent.natAbs
  if n.negative then -magnitude else magnitude

end Numeral
end FleetHealth.Decimal
