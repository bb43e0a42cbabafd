/-!
# Exact values

A number that is to be printed is first taken apart into a sign and a quotient of natural numbers,
so that printing is exact arithmetic. A double is a whole number of units of a power of two.
-/

namespace RootFinding

/-- What a printed number stands for. -/
inductive ExactValue where
  | undefined
  | infinite (negative : Bool)
  | quotient (negative : Bool) (numerator denominator : Nat)
  deriving Repr, DecidableEq

/-- Numbers whose exact value can be read off. -/
class HasExactValue (K : Type) where
  exactValue : K → ExactValue

/-- A double taken apart: a finite one is `mantissa` units of `2 ^ exponent`. -/
inductive BinaryValue where
  | undefined
  | infinite (negative : Bool)
  | finite (negative : Bool) (mantissa : Nat) (exponent : Int)
  deriving Repr, DecidableEq

namespace BinaryValue

/-- The leading binary digit of a normal mantissa, which is not stored. -/
def leadingBit : Nat := 0x10000000000000

/-- The sign, exponent and fraction fields of a double. -/
def ofDouble (value : Float) : BinaryValue :=
  let bits : Nat := value.toBits.toNat
  let negative := 1 <<< 63 ≤ bits
  let field : Nat := bits / leadingBit % 2048
  let fraction : Nat := bits % leadingBit
  if field = 2047 then
    if fraction = 0 then .infinite negative else .undefined
  else if field = 0 then .finite negative fraction (-1074)
  else .finite negative (leadingBit + fraction) ((field : Int) - 1075)

/-- The sign and the quotient of natural numbers. -/
def toExact : BinaryValue → ExactValue
  | .undefined => .undefined
  | .infinite negative => .infinite negative
  | .finite negative mantissa exponent =>
      .quotient negative (mantissa <<< exponent.toNat) (1 <<< (-exponent).toNat)

end BinaryValue

instance : HasExactValue Float where
  exactValue value := (BinaryValue.ofDouble value).toExact

end RootFinding
