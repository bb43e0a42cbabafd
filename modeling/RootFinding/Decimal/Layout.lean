import RootFinding.Decimal.Exact
import RootFinding.Decimal.Rounding

/-!
# Decimal layouts

The three ways in which a number is shown to a chosen precision: with a fixed count of decimals,
with one digit before the point and an exponent, and in whichever of the two is shorter to read.
All round the exact value, ties to even.
-/

namespace RootFinding

namespace Decimal

/-- The digits of a number, padded with zeros on the left to at least `width` of them. -/
def paddedDigits (width n : Nat) : List Char :=
  let digits := Nat.toDigits 10 n
  List.replicate (width - digits.length) '0' ++ digits

/-- `units` of `10 ^ -places`, with that many digits behind the point. -/
def pointed (places units : Nat) : List Char :=
  let digits := paddedDigits (places + 1) units
  let whole := digits.length - places
  if places = 0 then digits else digits.take whole ++ '.' :: digits.drop whole

/-- The text behind a minus sign where the number is negative. -/
def signed (negative : Bool) (text : List Char) : String :=
  String.ofList (if negative then '-' :: text else text)

def fixedQuotient (places numerator denominator : Nat) : List Char :=
  pointed places (roundedQuotient (numerator * powerOfTen places) denominator)

def fixed (places : Nat) : ExactValue → String
  | .undefined => "nan"
  | .infinite negative => signed negative "inf".toList
  | .quotient negative numerator denominator =>
      signed negative (fixedQuotient places numerator denominator)

/-- The exponent of the last power of ten that is not above the positive quotient. -/
def leadingExponent (numerator denominator : Nat) : Int :=
  let guess : Int := (digitCount numerator : Int) - digitCount denominator
  if denominator * powerOfTen guess.toNat ≤ numerator * powerOfTen (-guess).toNat then guess
  else guess - 1

/--
A quotient as `digits` with `10 ^ exponent` at the first of `places + 1` of them; rounding up to
the next power of ten moves the exponent.
-/
def scientificParts (places numerator denominator : Nat) : Nat × Int :=
  if numerator = 0 then (0, 0)
  else
    let exponent := leadingExponent numerator denominator
    let shift := (places : Int) - exponent
    let digits :=
      roundedQuotient (numerator * powerOfTen shift.toNat)
        (denominator * powerOfTen (-shift).toNat)
    if digits = powerOfTen (places + 1) then (powerOfTen places, exponent + 1)
    else (digits, exponent)

/-- An exponent mark with a sign and at least two digits. -/
def exponentMark (exponent : Int) : List Char :=
  'e' :: (if exponent < 0 then '-' else '+') :: paddedDigits 2 exponent.natAbs

/-- The value with one digit before the point, `places` behind it, and an exponent. -/
def scientific (places : Nat) : ExactValue → String
  | .undefined => "nan"
  | .infinite negative => signed negative "inf".toList
  | .quotient negative numerator denominator =>
      let (digits, exponent) := scientificParts places numerator denominator
      signed negative (pointed places digits ++ exponentMark exponent)

/-- The text without the zeros that end its decimals, nor a point that ends it. -/
def withoutTrailingZeros (text : List Char) : List Char :=
  if text.contains '.' then
    let kept := text.reverse.dropWhile (· = '0')
    (if kept.head? = some '.' then kept.drop 1 else kept).reverse
  else text

/--
The value to `precision` significant digits without trailing zeros: positional while the exponent
is in `-4 … precision - 1`, with an exponent mark elsewhere.
-/
def general (precision : Nat) : ExactValue → String
  | .undefined => "nan"
  | .infinite negative => signed negative "inf".toList
  | .quotient negative numerator denominator =>
      let (digits, exponent) := scientificParts (precision - 1) numerator denominator
      if -4 ≤ exponent && exponent < precision then
        let places := (precision : Int) - 1 - exponent
        signed negative (withoutTrailingZeros (fixedQuotient places.toNat numerator denominator))
      else
        signed negative
          (withoutTrailingZeros (pointed (precision - 1) digits) ++ exponentMark exponent)

end Decimal

end RootFinding
