/-!
# Natural numbers in decimal

Numbers are written and read with the ten ASCII digits. Leading zeros are allowed when reading.
-/
namespace PlainVerse.Text

def decimal (n : Nat) : List Char := Nat.toDigits 10 n

/-- The number that a non-empty run of ASCII digits stands for, if it is below `bound`. -/
def decimal? (bound : Nat) (digits : List Char) : Option Nat :=
  if digits ≠ [] ∧ digits.all Char.isDigit then
    let n := Nat.ofDigitChars 10 digits 0
    if n < bound then some n else none
  else none

/-- A number that fits into 64 bits. -/
def word64? (digits : List Char) : Option UInt64 := (decimal? UInt64.size digits).map UInt64.ofNat

end PlainVerse.Text
