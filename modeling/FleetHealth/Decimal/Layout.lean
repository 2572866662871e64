import FleetHealth.Decimal.Digits
import FleetHealth.Decimal.Shortest
/-!
Two layouts of a double's shortest decimal: the one in messages, which never uses an exponent, and
the one in documents, which always shows a fraction or an exponent.
-/
namespace FleetHealth.Decimal

/-- Digits with the point in its place, and zeros as far as the units. -/
def positional (s : Scaled) : List Char :=
  let ds := digits s.significand
  if 0 ≤ s.exponent then ds ++ List.replicate s.exponent.toNat '0'
  else
    let places := (-s.exponent).toNat
    let ds := List.replicate (places + 1 - ds.length) '0' ++ ds
    ds.take (ds.length - places) ++ '.' :: ds.drop (ds.length - places)

/-- As messages show it: a whole number has no point. -/
def plain (x : Float) : String :=
  if x.isNaN then "NaN"
  else
    let sign := if isNegative x then ['-'] else []
    if x.isFinite then String.ofList (sign ++ positional (shortest x))
    else String.ofList (sign ++ ['i', 'n', 'f'])

/-- As documents show a finite number: positional while the leading digit stands for at most
fifteen places before the point and five behind it, scientific beyond. -/
def notated (x : Float) : List Char :=
  let s := shortest x
  let ds := digits s.significand
  let leading := s.exponent + ds.length - 1
  let sign := if isNegative x then ['-'] else []
  if s.significand = 0 then sign ++ ['0', '.', '0']
  else if -5 ≤ leading ∧ leading ≤ 15 then
    sign ++ positional s ++ (if 0 ≤ s.exponent then ['.', '0'] else [])
  else
    sign ++ ds.take 1 ++ (if ds.length = 1 then [] else '.' :: ds.drop 1) ++
      'e' :: signed leading

end FleetHealth.Decimal
