import RootFinding.Decimal.Exact
import RootFinding.Decimal.Rounding

/-!
# The double nearest to a quotient

A quotient of natural numbers is rounded once, exactly, to 53 binary digits or to the spacing of the
smallest doubles. What is out of range is infinite. Sums and quotients of doubles are the roundings
of their exact values, so the same function gives them.
-/

namespace RootFinding

/-- A double without sign: `mantissa` units of `2 ^ exponent`, or infinite. -/
inductive DoubleMagnitude where
  | finite (mantissa : Nat) (exponent : Int)
  | infinite
  deriving Repr, DecidableEq

namespace DoubleMagnitude

/-- The exponent of the spacing of the smallest doubles. -/
def leastExponent : Int := -1074

/-- The exponent of the spacing of the largest doubles. -/
def greatestExponent : Int := 971

/-- The exponent of the last power of two that is not above the positive quotient. -/
def binaryExponent (numerator denominator : Nat) : Int :=
  let guess : Int := (numerator.log2 : Int) - denominator.log2
  if denominator <<< guess.toNat ≤ numerator <<< (-guess).toNat then guess else guess - 1

/-- The exponent of the spacing of doubles around a positive quotient. -/
def spacingExponent (numerator denominator : Nat) : Int :=
  max (binaryExponent numerator denominator - 52) leastExponent

/-- The double nearest to a quotient, the middle between two going to the even mantissa. -/
def nearest (numerator denominator : Nat) : DoubleMagnitude :=
  if numerator = 0 then .finite 0 leastExponent
  else
    let spacing := spacingExponent numerator denominator
    let units :=
      Decimal.roundedQuotient (numerator <<< (-spacing).toNat) (denominator <<< spacing.toNat)
    let (mantissa, exponent) :=
      if units = 2 * BinaryValue.leadingBit then (BinaryValue.leadingBit, spacing + 1)
      else (units, spacing)
    if exponent ≤ greatestExponent then .finite mantissa exponent else .infinite

/-- The numerator of a finite double written as a quotient. -/
def numerator (mantissa : Nat) (exponent : Int) : Nat :=
  mantissa <<< exponent.toNat

/-- The denominator of a finite double written as a quotient. -/
def denominator (exponent : Int) : Nat :=
  1 <<< (-exponent).toNat

def add : DoubleMagnitude → DoubleMagnitude → DoubleMagnitude
  | .finite m p, .finite n q =>
      nearest (numerator m p * denominator q + numerator n q * denominator p)
        (denominator p * denominator q)
  | _, _ => .infinite

/-- The product of two positive doubles. -/
def multiply : DoubleMagnitude → DoubleMagnitude → DoubleMagnitude
  | .finite m p, .finite n q =>
      nearest (numerator m p * numerator n q) (denominator p * denominator q)
  | _, _ => .infinite

/-- The quotient of two doubles, the second of them positive, unless it is undefined. -/
def divide? : DoubleMagnitude → DoubleMagnitude → Option DoubleMagnitude
  | .finite m p, .finite n q =>
      some (nearest (numerator m p * denominator q) (denominator p * numerator n q))
  | .finite _ _, .infinite => some (.finite 0 leastExponent)
  | .infinite, .finite _ _ => some .infinite
  | .infinite, .infinite => none

/-- The third power, rounded once. -/
def cube : DoubleMagnitude → DoubleMagnitude
  | .finite m p =>
      nearest (numerator m p * numerator m p * numerator m p)
        (denominator p * denominator p * denominator p)
  | .infinite => .infinite

/-- The greatest integer that is not above a double. -/
def floor? : DoubleMagnitude → Option Nat
  | .finite m p => some (numerator m p / denominator p)
  | .infinite => none

/-- The least integer that is not below a double. -/
def ceiling? : DoubleMagnitude → Option Nat
  | .finite m p => some ((numerator m p + denominator p - 1) / denominator p)
  | .infinite => none

/-- The magnitude of a double that is a number. -/
def ofDouble? (value : Float) : Option DoubleMagnitude :=
  match BinaryValue.ofDouble value with
  | .undefined => none
  | .infinite _ => some .infinite
  | .finite _ mantissa exponent => some (.finite mantissa exponent)

/-- The double of a magnitude; a normal one has its leading digit in bit 52. -/
def toDouble : DoubleMagnitude → Float
  | .finite mantissa exponent =>
      let field := (exponent - leastExponent).toNat * BinaryValue.leadingBit
      Float.ofBits (UInt64.ofNat (mantissa + field))
  | .infinite => 1.0 / 0.0

end DoubleMagnitude

end RootFinding
