/-!
# Decimal numerals

Unsigned numerals as settings are written: an optional plus sign and at least one ASCII digit.
-/

namespace Coursework.Text

def isDigit (c : Char) : Bool := '0' ≤ c && c ≤ '9'

def digitValue (c : Char) : Nat := c.toNat - '0'.toNat

/-- The number written by a run of digits. -/
def digitsValue (cs : List Char) : Nat := cs.foldl (fun n c => n * 10 + digitValue c) 0

/-- Reads a numeral that stays below `bound`. -/
def numeral? (bound : Nat) (s : String) : Option Nat :=
  let cs := match s.toList with
    | '+' :: rest => rest
    | cs => cs
  if cs ≠ [] ∧ cs.all isDigit ∧ digitsValue cs < bound then some (digitsValue cs) else none

end Coursework.Text
