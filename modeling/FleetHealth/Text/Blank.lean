/-!
White space of Unicode and the text between it.
-/
namespace FleetHealth.Text

/- The characters with the White_Space property. -/
def isBlank (c : Char) : Bool :=
  let n := c.toNat
  (9 ≤ n && n ≤ 13) || n = 0x20 || n = 0x85 || n = 0xA0 || n = 0x1680 ||
    (0x2000 ≤ n && n ≤ 0x200A) || n = 0x2028 || n = 0x2029 || n = 0x202F || n = 0x205F ||
    n = 0x3000

def skipBlank (cs : List Char) : List Char := cs.dropWhile isBlank

/-- What lies between the outermost characters that are not blank. -/
def trim (cs : List Char) : List Char := (skipBlank (skipBlank cs).reverse).reverse

/- Only ASCII letters have a lower case here. -/
def lower (cs : List Char) : List Char := cs.map Char.toLower

/-- A name as it is compared: surrounding blanks dropped, ASCII capitals made small. -/
def fold (s : String) : String := String.ofList (lower (trim s.toList))

end FleetHealth.Text
