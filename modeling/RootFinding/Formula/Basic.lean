import RootFinding.Scalar

/-!
# Formulas

Ordinary arithmetic, as it is checked after a solve: sums, differences, products, quotients and
powers over numerals and names. A formula has a value where all its names are known and its
operations are defined, and a product has one already where a factor is zero.
-/

namespace RootFinding

/-- Scalars that can be raised to powers, where the result is a scalar again. -/
class HasPower (K : Type) where
  power? : K → K → Option K

/-- A finite double with a fraction. -/
def isFractional (value : Float) : Bool :=
  value.isFinite && value.floor.lt value

/-- A power is undefined below zero at a fraction, and at zero below zero. -/
instance : HasPower Float where
  power? base exponent :=
    if base.lt 0.0 && isFractional exponent then none
    else if base == 0.0 && exponent.lt 0.0 then none
    else some (base.pow exponent)

inductive Operation where
  | sum
  | difference
  | product
  | quotient
  | power
  deriving Repr, DecidableEq

/-- A formula over names. -/
inductive Formula where
  | numeral (digits : Nat) (exponent : Int)
  | name (characters : List Char)
  | negation (operand : Formula)
  | operation (kind : Operation) (left right : Formula)
  deriving Repr, DecidableEq

/-- A value is finite and neither below nor above zero. -/
def isZero {K : Type} [Arithmetic K] (value : K) : Bool :=
  Arithmetic.isFinite value && !Arithmetic.less value 0.0 && !Arithmetic.less 0.0 value

namespace Operation

variable {K : Type} [Arithmetic K] [HasPower K]

/-- The result of an operation; what is not zero has no quotient by zero. -/
def result? : Operation → K → K → Option K
  | .sum, a, b => some (a + b)
  | .difference, a, b => some (a - b)
  | .product, a, b => some (a * b)
  | .quotient, a, b =>
      if isZero b && !isZero a && !Arithmetic.isUnordered a then none else some (a / b)
  | .power, a, b => HasPower.power? a b

/-- The result for operands that may be unknown: zero times anything is zero. -/
def applied? : Operation → Option K → Option K → Option K
  | kind, some a, some b => kind.result? a b
  | .product, some a, none => if isZero a then some a else none
  | .product, none, some b => if isZero b then some b else none
  | _, _, _ => none

@[simp]
theorem applied?_some (kind : Operation) (a b : K) :
    kind.applied? (some a) (some b) = kind.result? a b := by
  simp [applied?]

end Operation

namespace Formula

/-- The value of a formula, operands before operations, if it has one. -/
def value? {K : Type} [Arithmetic K] [HasPower K] (point : List Char → Option K) :
    Formula → Option K
  | .numeral digits exponent =>
      some (OfScientific.ofScientific digits (exponent < 0) exponent.natAbs)
  | .name characters => point characters
  | .negation operand => (operand.value? point).map fun value => -value
  | .operation kind left right => kind.applied? (left.value? point) (right.value? point)

end Formula

end RootFinding
