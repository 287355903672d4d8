import PlainVerse.Binary64
import PlainVerse.Text.Decimal

/-!
# The shortest decimal of a floating-point number

A number is written with the fewest digits that read back as the same number, and of those with
the digits nearest to it. Values near one are written positionally and always with a fraction;
others in scientific form, with the sign of the exponent.
-/
namespace PlainVerse.Binary64

/-- Four times the value and the ends of the interval that rounds to it, over one denominator. -/
structure Neighbourhood where
  lower : Nat
  value : Nat
  upper : Nat
  denominator : Nat
  closed : Bool
deriving DecidableEq, Repr

/-- The interval reaches half way to both neighbours; below a power of two the neighbour is twice
as near. Its ends belong to it exactly when the mantissa is even. -/
def neighbourhood (x : Binary64) : Neighbourhood :=
  let gap := if x.mantissa = leastMantissa ∧ x.exponent ≠ leastExponent then 1 else 2
  let (scale, denominator) := scaled 1 1 (-(x.exponent - 2))
  { lower := (4 * x.mantissa - gap) * scale
    value := 4 * x.mantissa * scale
    upper := (4 * x.mantissa + 2) * scale
    denominator := denominator
    closed := x.mantissa % 2 = 0 }

def digitCount (n : Nat) : Nat := (Text.decimal n).length

/-- The `p` with `10 ^ (p - 1) ≤ num / den < 10 ^ p`, for a positive quotient. -/
def decimalPoint (num den : Nat) : Int :=
  if den ≤ num then digitCount (num / den) else 1 - digitCount ((den - 1) / num)

/-- The number `coefficient * 10 ^ exponent`. -/
structure Scientific where
  coefficient : Nat
  exponent : Int
deriving DecidableEq, Repr

/-- Numerator and denominator of a decimal. -/
def Scientific.quotient (d : Scientific) : Nat × Nat :=
  if 0 ≤ d.exponent then (d.coefficient * Nat.pow 10 d.exponent.toNat, 1)
  else (d.coefficient, Nat.pow 10 (-d.exponent).toNat)

/-- Whether a decimal reads back as the number. -/
def Neighbourhood.contains (x : Neighbourhood) (d : Scientific) : Bool :=
  let (num, den) := d.quotient
  let position := num * x.denominator
  if x.closed then x.lower * den ≤ position && position ≤ x.upper * den
  else x.lower * den < position && position < x.upper * den

/-- The decimals with the given exponent on both sides of the number, the nearer one first; of two
equally near ones the even one. -/
def Neighbourhood.candidates (x : Neighbourhood) (exponent : Int) : List Scientific :=
  let (num, den) :=
    if 0 ≤ exponent then (x.value, x.denominator * Nat.pow 10 exponent.toNat)
    else (x.value * Nat.pow 10 (-exponent).toNat, x.denominator)
  let below : Scientific := ⟨num / den, exponent⟩
  let above : Scientific := ⟨num / den + 1, exponent⟩
  if below.coefficient = divNearest num den then [below, above] else [above, below]

/-- The first hit on grids of one, two, and up to seventeen digits. -/
def Neighbourhood.shortest (x : Neighbourhood) : Scientific :=
  let point := decimalPoint x.value x.denominator
  let hit := (List.range 17).findSome? fun n =>
    (x.candidates (point - (n + 1 : Nat))).find? x.contains
  hit.getD ⟨0, 0⟩

/-- The significant digits, and the power of ten `p` for which the number is `0.d₁d₂… * 10 ^ p`. -/
def digits (x : Binary64) : List Char × Int :=
  let d := x.neighbourhood.shortest
  let written := Text.decimal d.coefficient
  (Text.decimal d.coefficient |>.reverse |>.dropWhile (· == '0') |>.reverse,
    written.length + d.exponent)

/-- Digits with a decimal point after `p` of them, and a digit on both sides of the point. -/
def positional (digits : List Char) (p : Int) : List Char :=
  if p ≤ 0 then '0' :: '.' :: List.replicate (-p).toNat '0' ++ digits
  else
    let n := p.toNat
    let whole := digits.take n ++ List.replicate (n - digits.length) '0'
    let fraction := digits.drop n
    whole ++ '.' :: (if fraction.isEmpty then ['0'] else fraction)

/-- One digit, the others after a point, and the power of ten with its sign. -/
def scientific (digits : List Char) (p : Int) : List Char :=
  let mantissa :=
    match digits with
    | first :: second :: rest => first :: '.' :: second :: rest
    | short => short
  mantissa ++ 'e' :: (if 1 ≤ p then '+' else '-') :: Text.decimal (p - 1).natAbs

/-- Exponents `p` written positionally. -/
def isPositional (p : Int) : Bool := -5 < p && p ≤ 16

def text (x : Binary64) : List Char :=
  let magnitude :=
    if x.mantissa = 0 then ['0', '.', '0']
    else
      let (ds, p) := x.digits
      if isPositional p then positional ds p else scientific ds p
  if x.negative then '-' :: magnitude else magnitude

end PlainVerse.Binary64
