import FleetHealth.Decimal.Layout
import FleetHealth.Tree
/-!
Printing JSON without spaces.
-/
namespace FleetHealth.Tree.Json

def hexDigit (n : Nat) : Char := (Nat.digitChar n)

def escape (c : Char) : List Char :=
  match c with
  | '"' => ['\\', '"']
  | '\\' => ['\\', '\\']
  | '\n' => ['\\', 'n']
  | '\r' => ['\\', 'r']
  | '\t' => ['\\', 't']
  | '\x08' => ['\\', 'b']
  | '\x0c' => ['\\', 'f']
  | c =>
    if c.toNat < 0x20 then
      ['\\', 'u', '0', '0', hexDigit (c.toNat / 16), hexDigit (c.toNat % 16)]
    else [c]

def printText (s : String) : List Char := '"' :: (s.toList.flatMap escape ++ ['"'])

mutual

/- What is not finite and what is unreadable has no spelling of its own. -/
def print : Tree → List Char
  | .null => ['n', 'u', 'l', 'l']
  | .bool true => ['t', 'r', 'u', 'e']
  | .bool false => ['f', 'a', 'l', 's', 'e']
  | .int n => Decimal.signed n
  | .real x => if x.isFinite then Decimal.notated x else ['n', 'u', 'l', 'l']
  | .text s => printText s
  | .list items => '[' :: (printItems items ++ [']'])
  | .record members => '\x7b' :: (printMembers members ++ ['\x7d'])
  | .unreadable => ['n', 'u', 'l', 'l']

def printItems : List Tree → List Char
  | [] => []
  | [t] => print t
  | t :: rest => print t ++ ',' :: printItems rest

def printMembers : List (String × Tree) → List Char
  | [] => []
  | [(name, t)] => printText name ++ ':' :: print t
  | (name, t) :: rest => printText name ++ ':' :: (print t ++ ',' :: printMembers rest)

end

end FleetHealth.Tree.Json
