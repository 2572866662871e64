/-!
Whole numbers in decimal notation.
-/
namespace FleetHealth.Decimal

def digits (n : Nat) : List Char := Nat.toDigits 10 n

/-- At least width digits, zeros in front. -/
def padded (width n : Nat) : List Char :=
  List.replicate (width - (digits n).length) '0' ++ digits n

def signed (n : Int) : List Char :=
  if n < 0 then '-' :: digits n.natAbs else digits n.natAbs

def digitValue (c : Char) : Nat := c.toNat - '0'.toNat

/-- The number a run of digits denotes; the empty run denotes zero. -/
def value (ds : List Char) : Nat := ds.foldl (fun n c => 10 * n + digitValue c) 0

end FleetHealth.Decimal
