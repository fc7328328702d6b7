/-!
# Decimal numerals

The number that a run of decimal digits denotes, and the bound below which it is a literal of
the language. Leading zeros do not matter for the number but are part of the numeral's spelling.
-/

namespace Scriptlet.Text

/-- Reads further digits after a number already read. -/
def readDigits (start : Nat) (digits : List Char) : Nat :=
  digits.foldl (fun number digit => 10 * number + (digit.toNat - '0'.toNat)) start

/-- The number denoted by a decimal numeral. -/
def numeralValue (numeral : String) : Nat := readDigits 0 numeral.toList

/-- The first number that is too large for a literal: literals are signed 64-bit words. -/
def literalBound : Nat := Nat.pow 2 63

end Scriptlet.Text
