/-!
# Floating-point numbers with 64 bits

A finite number is a sign, a mantissa of at most 53 bits and a power of two. Results of arithmetic
are rounded to the nearest such number, and a tie goes to the even mantissa. The arithmetic is
done on natural numbers, so it is exact up to that one rounding.
-/
namespace PlainVerse

/-- The number `mantissa * 2 ^ exponent`, with the given sign. -/
structure Binary64 where
  negative : Bool
  mantissa : Nat
  exponent : Int
deriving DecidableEq, Repr

/-- A magnitude, before it is known whether it is small enough to be stored. -/
structure Binary64.Magnitude where
  mantissa : Nat
  exponent : Int
deriving DecidableEq, Repr

namespace Binary64

/-- The exponent of the smallest positive number. -/
def leastExponent : Int := -1074

/-- The exponent of the largest numbers. -/
def greatestExponent : Int := 971

/-- The least mantissa with 53 bits; only the smallest numbers have fewer. -/
def leastMantissa : Nat := Nat.pow 2 52

/-- The quotient rounded to the nearest integer, a tie to the even one. -/
def divNearest (num den : Nat) : Nat :=
  let floor := num / den
  let twice := 2 * (num % den)
  if twice < den ∨ (twice = den ∧ floor % 2 = 0) then floor else floor + 1

/-- Numerator and denominator of `num / den * 2 ^ (-exponent)`. -/
def scaled (num den : Nat) (exponent : Int) : Nat × Nat :=
  if 0 ≤ exponent then (num, den * Nat.pow 2 exponent.toNat)
  else (num * Nat.pow 2 (-exponent).toNat, den)

/-- The exponent at which the quotient has a mantissa of 53 bits, or the least exponent. -/
def exponentOf (num den : Nat) : Int :=
  let guess : Int := num.log2 - den.log2 - 52
  let (n, d) := scaled num den guess
  max leastExponent (if n / d < leastMantissa then guess - 1 else guess)

namespace Magnitude

def zero : Magnitude := ⟨0, leastExponent⟩

/-- The magnitude nearest to a quotient. -/
def ofQuotient (num den : Nat) : Magnitude :=
  if num = 0 then zero
  else
    let exponent := exponentOf num den
    let (n, d) := scaled num den exponent
    let mantissa := divNearest n d
    if mantissa = 2 * leastMantissa then ⟨leastMantissa, exponent + 1⟩ else ⟨mantissa, exponent⟩

def ofNat (n : Nat) : Magnitude := ofQuotient n 1

def isZero (x : Magnitude) : Bool := x.mantissa == 0

def isFinite (x : Magnitude) : Bool := x.exponent ≤ greatestExponent

/-- The quotient of natural numbers that a magnitude stands for. -/
def quotient (x : Magnitude) : Nat × Nat := scaled x.mantissa 1 (-x.exponent)

def mul (x y : Magnitude) : Magnitude :=
  ofQuotient (x.quotient.1 * y.quotient.1) (x.quotient.2 * y.quotient.2)

def div (x y : Magnitude) : Magnitude :=
  ofQuotient (x.quotient.1 * y.quotient.2) (x.quotient.2 * y.quotient.1)

/-- The magnitude nearest to a power of ten. -/
def tenPower (n : Nat) : Magnitude := ofNat (Nat.pow 10 n)

/-- The largest power of ten that can be stored. -/
def greatestTenPower : Nat := 308

/-- Division by `10 ^ n`, in steps of the largest power of ten until `n` is small or the result
is zero. -/
def divTenPower (x : Magnitude) (n : Nat) : Magnitude :=
  if n ≤ greatestTenPower then x.div (tenPower n)
  else if x.isZero then x
  else divTenPower (x.div (tenPower greatestTenPower)) (n - greatestTenPower)
termination_by n
decreasing_by simp only [greatestTenPower] at *; omega

/-- Multiplication by `10 ^ n`, unless the result is too large. -/
def mulTenPower? (x : Magnitude) (n : Nat) : Option Magnitude :=
  if n ≤ greatestTenPower then some (x.mul (tenPower n)) |>.filter isFinite
  else if x.isZero then some x
  else none

end Magnitude

/-- The number `significand * 10 ^ exponent`, computed with one rounding of the significand and
one of the product or quotient; none if it is too large. -/
def ofDecimal? (negative : Bool) (significand : Nat) (exponent : Int) : Option Binary64 :=
  let x := Magnitude.ofNat significand
  let result :=
    if 0 ≤ exponent then x.mulTenPower? exponent.toNat else some (x.divTenPower (-exponent).toNat)
  result.map fun y => ⟨negative, y.mantissa, y.exponent⟩

/-- The number nearest to an integer of at most 64 bits. -/
def ofNat (negative : Bool) (n : Nat) : Binary64 :=
  let x := Magnitude.ofNat n
  ⟨negative, x.mantissa, x.exponent⟩

end Binary64
end PlainVerse
