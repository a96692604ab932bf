import Mathlib.Data.List.DropRight
import Mathlib.Data.Nat.Digits.Defs
import Mathlib.Data.Nat.Log

/-!
# The text of a float

A decimal literal becomes the nearest double, ties to the even significand,
and a double is written with the fewest digits that read back as itself.  All
of it is exact arithmetic on fractions.
-/

namespace Cats

/-- A finite double without its sign: `significand * 2 ^ exponent`. -/
structure Binary64 where
  significand : Nat
  exponent : Int
  deriving DecidableEq, Repr

/-- An unsigned decimal: `digits * 10 ^ exponent`. -/
structure Decimal where
  digits : Nat
  exponent : Int
  deriving DecidableEq, Repr

/-- A fraction scaled by a power of a base. -/
def scaled (numerator denominator base : Nat) (exponent : Int) : Nat × Nat :=
  if 0 ≤ exponent then (numerator * base ^ exponent.toNat, denominator)
  else (numerator, denominator * base ^ (-exponent).toNat)

/-- The integer nearest to a fraction, the even one of two. -/
def roundDiv (numerator denominator : Nat) : Nat :=
  let quotient := numerator / denominator
  let rest := 2 * (numerator % denominator)
  if rest < denominator then quotient
  else if denominator < rest then quotient + 1
  else if quotient % 2 = 0 then quotient
  else quotient + 1

namespace Binary64

/-- The value as a fraction. -/
def fraction (double : Binary64) : Nat × Nat :=
  scaled double.significand 1 2 double.exponent

/-- The exponent of the leading bit of a positive fraction. -/
def leadingBit (numerator denominator : Nat) : Int :=
  let estimate : Int := Nat.log2 numerator - Nat.log2 denominator
  let (upper, lower) := scaled numerator denominator 2 (-estimate)
  if lower ≤ upper then estimate else estimate - 1

/-- The double nearest to a fraction; `none` where it overflows. -/
def ofFraction (numerator denominator : Nat) : Option Binary64 :=
  if numerator = 0 then some ⟨0, -1074⟩
  else
    let exponent := max (-1074) (leadingBit numerator denominator - 52)
    let (upper, lower) := scaled numerator denominator 2 (-exponent)
    let significand := roundDiv upper lower
    let double : Binary64 :=
      if significand = 2 ^ 53 then ⟨2 ^ 52, exponent + 1⟩
      else ⟨significand, exponent⟩
    if 971 < double.exponent then none else some double

/-- The double nearest to a decimal.  Beyond these exponents every decimal
overflows or vanishes, whatever its digits. -/
def ofDecimal (decimal : Decimal) : Option Binary64 :=
  let magnitude := (Nat.toDigits 10 decimal.digits).length + decimal.exponent
  if decimal.digits = 0 ∨ magnitude < -330 then some ⟨0, -1074⟩
  else if 310 < magnitude then none
  else
    let (upper, lower) := scaled decimal.digits 1 10 decimal.exponent
    ofFraction upper lower

/-- How many digits stand before the point of a positive fraction. -/
def pointPlace (numerator denominator : Nat) : Int :=
  let estimate : Int := (Nat.toDigits 10 numerator).length -
    (Nat.toDigits 10 denominator).length
  let (upper, lower) := scaled numerator denominator 10 (-estimate)
  if lower ≤ upper then estimate + 1 else estimate

/-- The decimal of so many digits that reads back as the double, the nearer of
two; `none` when neither neighbour does. -/
def withDigits (double : Binary64) (count : Nat) : Option Decimal :=
  let (numerator, denominator) := double.fraction
  let exponent := pointPlace numerator denominator - count
  let (upper, lower) := scaled numerator denominator 10 (-exponent)
  let below : Decimal := ⟨upper / lower, exponent⟩
  let above : Decimal := ⟨upper / lower + 1, exponent⟩
  if ofDecimal below = some double then
    if ofDecimal above = some double then some ⟨roundDiv upper lower, exponent⟩
    else some below
  else if ofDecimal above = some double then some above
  else none

/-- The shortest decimal that reads back as the double. -/
def shortest (double : Binary64) : Decimal :=
  ((List.range 17).findSome? fun count => double.withDigits (count + 1)).getD
    ⟨double.significand, 0⟩

end Binary64

namespace Decimal

/-- Digits with at least two places, as in an exponent. -/
def twoDigits (value : Nat) : List Char :=
  if value < 10 then '0' :: Nat.toDigits 10 value else Nat.toDigits 10 value

/-- `format_float_short` with code `r` of nonzero digits, the point standing
after the first `place` of them. -/
def layout (digits : List Char) (place : Int) : List Char :=
  if place ≤ -4 ∨ 16 < place then
    let fraction := match digits.drop 1 with
      | [] => []
      | rest => '.' :: rest
    let sign := if place - 1 < 0 then '-' else '+'
    digits.take 1 ++ fraction ++ 'e' :: sign :: twoDigits (place - 1).natAbs
  else if place ≤ 0 then
    '0' :: '.' :: (List.replicate (-place).toNat '0' ++ digits)
  else if digits.length ≤ place then
    digits ++ List.replicate (place.toNat - digits.length) '0' ++ ['.', '0']
  else digits.take place.toNat ++ '.' :: digits.drop place.toNat

def text (decimal : Decimal) : List Char :=
  let digits := Nat.toDigits 10 decimal.digits
  layout (digits.rdropWhile (· = '0')) (digits.length + decimal.exponent)

/-- The decimal a literal without sign spells. -/
def ofLiteral (literal : List Char) : Decimal :=
  let whole := literal.takeWhile Char.isDigit
  let afterWhole := literal.dropWhile Char.isDigit
  let fraction := match afterWhole with
    | '.' :: rest => rest.takeWhile Char.isDigit
    | _ => []
  let afterFraction := match afterWhole with
    | '.' :: rest => rest.dropWhile Char.isDigit
    | rest => rest
  let exponent : Int := match afterFraction.drop 1 with
    | '-' :: rest => -(Nat.ofDigitChars 10 rest 0 : Int)
    | '+' :: rest => Nat.ofDigitChars 10 rest 0
    | rest => Nat.ofDigitChars 10 rest 0
  ⟨Nat.ofDigitChars 10 (whole ++ fraction) 0, exponent - fraction.length⟩

end Decimal

/-- The text of `float(literal)` for a literal without sign, as JSON writes it. -/
def reprMagnitude (literal : List Char) : List Char :=
  match Binary64.ofDecimal (.ofLiteral literal) with
  | none => "Infinity".toList
  | some double =>
      if double.significand = 0 then "0.0".toList else double.shortest.text

/-- `float.__repr__(float(literal))` as JSON writes it; the three constants are
written as they are read. -/
def reprFloat (literal : List Char) : List Char :=
  if literal = "NaN".toList ∨ literal = "Infinity".toList ∨
      literal = "-Infinity".toList then literal
  else
    match literal with
    | '-' :: magnitude => '-' :: reprMagnitude magnitude
    | magnitude => reprMagnitude magnitude

end Cats
