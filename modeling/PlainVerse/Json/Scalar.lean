import PlainVerse.Json
import PlainVerse.Json.Token

/-!
# The values of written strings and numbers

Two 16-bit units that form a surrogate pair are one character, and half a pair has no value.
A number without fraction and exponent is an integer if it fits into 64 bits, with or without a
sign. Every other number is floating-point, and has no value if it is too large for that.
-/
namespace PlainVerse.Json

def isLeadUnit (unit : Nat) : Bool := 0xD800 ≤ unit && unit ≤ 0xDBFF

def isTrailUnit (unit : Nat) : Bool := 0xDC00 ≤ unit && unit ≤ 0xDFFF

/-- The character of a surrogate pair. -/
def pairedChar (lead trail : Nat) : Char :=
  Char.ofNat ((lead - 0xD800) * 0x400 + (trail - 0xDC00) + 0x10000)

def chars? : List Piece → Option (List Char)
  | [] => some []
  | .char c :: rest => (chars? rest).map (c :: ·)
  | .unit lead :: .unit trail :: rest =>
      if isLeadUnit lead && isTrailUnit trail then (chars? rest).map (pairedChar lead trail :: ·)
      else if isLeadUnit lead || isTrailUnit lead then none
      else (chars? (.unit trail :: rest)).map (Char.ofNat lead :: ·)
  | .unit unit :: rest =>
      if isLeadUnit unit || isTrailUnit unit then none
      else (chars? rest).map (Char.ofNat unit :: ·)

def string? (pieces : List Piece) : Option String := (chars? pieces).map String.ofList

/-- Appends digits to a significand as long as it fits into 64 bits; also how many digits are left
out. -/
def absorb : (significand : Nat) → List Char → Nat × Nat
  | significand, [] => (significand, 0)
  | significand, digit :: rest =>
      let next := 10 * significand + (digit.toNat - '0'.toNat)
      if next < UInt64.size then absorb next rest else (significand, rest.length + 1)

def signedExponent : Option (Bool × List Char) → Int
  | none => 0
  | some (negative, digits) =>
      let n : Int := Nat.ofDigitChars 10 digits 0
      if negative then -n else n

/-- An integer below `2 ^ 64`. A negative zero and integers below `-2 ^ 63` are floating-point. -/
def Number.ofMagnitude (negative : Bool) (n : Nat) : Number :=
  if !negative then .int n
  else if n = 0 ∨ UInt64.size / 2 < n then .float (Binary64.ofNat true n)
  else .int (-n)

def Numeral.value? (numeral : Numeral) : Option Number :=
  let (whole, dropped) := absorb 0 numeral.whole
  if numeral.fraction = [] ∧ numeral.exponent = none ∧ dropped = 0 then
    some (Number.ofMagnitude numeral.negative whole)
  else
    let (significand, left) := absorb whole numeral.fraction
    let kept := numeral.fraction.length - left
    let exponent : Int := dropped - kept + signedExponent numeral.exponent
    (Binary64.ofDecimal? numeral.negative significand exponent).map .float

end PlainVerse.Json
