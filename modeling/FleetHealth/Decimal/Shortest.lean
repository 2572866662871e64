/-!
The shortest decimal that reads back as a given double. A finite double is m * 2^q exactly; the
decimals that read back as it form an interval around it, and among the coarsest grid of powers of
ten with a point inside, the point nearest to it is taken.
-/
namespace FleetHealth.Decimal

/-- The number significand * 10^exponent. -/
structure Scaled where
  significand : Nat
  exponent : Int
  deriving DecidableEq, Repr

/-- The leading bit of most doubles, which their bits leave out. -/
def impliedBit : Nat := 0x10000000000000

/-- Magnitude of a finite double as m * 2^q. -/
def magnitude (x : Float) : Nat × Int :=
  let bits : Nat := x.toBits.toNat
  let fraction : Nat := bits % impliedBit
  let exponent : Nat := bits / impliedBit % 0x800
  if exponent = 0 then (fraction, -1074) else (fraction + impliedBit, (exponent : Int) - 1075)

def isNegative (x : Float) : Bool := 0x8000000000000000 ≤ x.toBits.toNat

/- A fraction of naturals, for exact comparison. -/
structure Ratio where
  num : Nat
  den : Nat

namespace Ratio

def ofScaled (m : Nat) (base : Nat) (e : Int) : Ratio :=
  if 0 ≤ e then ⟨m * Nat.pow base e.toNat, 1⟩ else ⟨m, Nat.pow base (-e).toNat⟩

def mul (a b : Ratio) : Ratio := ⟨a.num * b.num, a.den * b.den⟩

def floor (a : Ratio) : Nat := a.num / a.den

def lt (a b : Ratio) : Bool := a.num * b.den < b.num * a.den

def le (a b : Ratio) : Bool := a.num * b.den ≤ b.num * a.den

def distance (a b : Ratio) : Ratio :=
  let x := a.num * b.den
  let y := b.num * a.den
  ⟨if x ≤ y then y - x else x - y, a.den * b.den⟩

end Ratio

/- The bounds are a quarter unit in the last place where the next smaller double is only half as
   far away; they belong to the interval when m is even. -/
def nearBounds (m : Nat) (q : Int) : Ratio × Ratio :=
  let below := if m = impliedBit ∧ -1074 < q then 1 else 2
  (Ratio.ofScaled (4 * m - below) 2 (q - 2), Ratio.ofScaled (4 * m + 2) 2 (q - 2))

/-- The point of the grid of multiples of 10^e to take, if one lies inside. -/
def gridPoint? (m : Nat) (q e : Int) : Option Nat :=
  let v := Ratio.ofScaled m 2 q
  let (low, high) := nearBounds m q
  let unit := Ratio.ofScaled 1 10 e
  let down := (v.mul (Ratio.ofScaled 1 10 (-e))).floor
  let inside (n : Nat) : Bool :=
    let x := Ratio.mul ⟨n, 1⟩ unit
    if m % 2 = 0 then low.le x && x.le high else low.lt x && x.lt high
  let up := down + 1
  match inside down, inside up with
  | true, true =>
    if ((Ratio.mul ⟨down, 1⟩ unit).distance v).lt ((Ratio.mul ⟨up, 1⟩ unit).distance v)
    then some down else some up
  | true, false => some down
  | false, true => some up
  | false, false => none

/- A power of ten above the number; log10 2 is close to 1233/4096. -/
def leadingExponent (m : Nat) (q : Int) : Int := ((m.log2 : Int) + q + 1) * 1233 / 4096 + 1

/-- Tries ever finer grids; seventeen significant digits always tell doubles apart. -/
def search (m : Nat) (q : Int) : Nat → Int → Scaled
  | 0, e => ⟨(gridPoint? m q e).getD 0, e⟩
  | fuel + 1, e =>
    match gridPoint? m q e with
    | some n => ⟨n, e⟩
    | none => search m q fuel (e - 1)

def shortest (x : Float) : Scaled :=
  let (m, q) := magnitude x
  if m = 0 then ⟨0, 0⟩ else search m q 20 (leadingExponent m q)

end FleetHealth.Decimal
