import RootFinding.Decimal.Nearest
import RootFinding.Decimal.Numeral
import RootFinding.Decimal.Shortest
import RootFinding.Json.Value

/-!
# Quantities of an estimate

What an estimate reckons with is a count of any size until a double takes part, and a double from
then on. A count that meets a double is rounded to one first, and may be too large for that. All
quantities are positive, but a double may be infinite, and undefined where infinities meet.
-/

namespace RootFinding

/-- Why there is no estimate. -/
inductive CostError where
  | systemSize
  | noIterations
  | noPeriod
  | notNumber
  | noMethod
  | undefined
  | outOfRange
  | tooManyDigits
  deriving Repr, DecidableEq

/-- A count, or a double that may be undefined. -/
inductive Quantity where
  | whole (count : Nat)
  | rounded (value : Option DoubleMagnitude)
  deriving Repr, DecidableEq

namespace Quantity

/-- The double of a count, which has to be finite. -/
def counted (count : Nat) : Except CostError DoubleMagnitude :=
  match DoubleMagnitude.nearest count 1 with
  | .infinite => .error .outOfRange
  | magnitude => .ok magnitude

def toDouble : Quantity → Except CostError (Option DoubleMagnitude)
  | whole count => do return some (← counted count)
  | rounded value => .ok value

/-- An operation on counts that doubles have as well. -/
def combined
    (onCounts : Nat → Nat → Nat)
    (onDoubles : DoubleMagnitude → DoubleMagnitude → DoubleMagnitude) :
    Quantity → Quantity → Except CostError Quantity
  | whole a, whole b => .ok (whole (onCounts a b))
  | a, b => do
      let x ← a.toDouble
      let y ← b.toDouble
      return rounded (x.bind fun x => y.map fun y => onDoubles x y)

def product : Quantity → Quantity → Except CostError Quantity :=
  combined (· * ·) DoubleMagnitude.multiply

def sum : Quantity → Quantity → Except CostError Quantity :=
  combined (· + ·) DoubleMagnitude.add

/-- The product of quantities, the first of them multiplied first. -/
def productOf (first : Quantity) (others : List Quantity) : Except CostError Quantity :=
  others.foldlM product first

/-- The sum of quantities, the first of them added first. -/
def sumOf (first : Quantity) (others : List Quantity) : Except CostError Quantity :=
  others.foldlM sum first

def cube : Quantity → Quantity
  | whole count => whole (count * count * count)
  | rounded value => rounded (value.map DoubleMagnitude.cube)

/-- The quotient of two quantities; that of counts is rounded once. -/
def quotient : Quantity → Quantity → Except CostError (Option DoubleMagnitude)
  | whole a, whole b =>
      match DoubleMagnitude.nearest a b with
      | .infinite => .error .outOfRange
      | magnitude => .ok (some magnitude)
  | a, b => do
      let x ← a.toDouble
      let y ← b.toDouble
      return x.bind fun x => y.bind x.divide?

/-- The integer that a rule takes from a double; neither infinite nor undefined ones have any. -/
def integral
    (toInteger : DoubleMagnitude → Option Nat) :
    Option DoubleMagnitude → Except CostError Nat
  | none => .error .undefined
  | some value =>
      match toInteger value with
      | some count => .ok count
      | none => .error .outOfRange

/-- The count of a quantity without its fraction. -/
def toCount : Quantity → Except CostError Nat
  | whole count => .ok count
  | rounded value => integral DoubleMagnitude.floor? value

/-- A double of an estimate. -/
def doubleOf : Option DoubleMagnitude → Float
  | some value => value.toDouble
  | none => 0.0 / 0.0

/-- A quantity in words; a count may have only so many digits. -/
def shown : Quantity → Except CostError String
  | whole count =>
      if count < Decimal.powerOfTen integerDigitLimit then .ok (toString count)
      else .error .tooManyDigits
  | rounded value => .ok (Decimal.shortest (doubleOf value))

/-- The quantity that a positive raw number stands for. -/
def given : JsonValue → Except CostError Quantity
  | .integer value => .ok (whole value.toNat)
  | .boolean value => .ok (whole value.toNat)
  | .number value => .ok (rounded (DoubleMagnitude.ofDouble? value))
  | _ => .error .notNumber

/-- A raw number is below a bound; an undefined one is below none. -/
def isBelow (bound : Nat) : JsonValue → Except CostError Bool
  | .integer value => .ok (value < bound)
  | .boolean value => .ok (value.toNat < bound)
  | .number value => .ok (value.lt bound.toFloat)
  | _ => .error .notNumber

/-- A raw number lies between two bounds or is one of them. -/
def isWithin (least greatest : Nat) : JsonValue → Except CostError Bool
  | .integer value => .ok (least ≤ value && value ≤ greatest)
  | .boolean value => .ok (least ≤ value.toNat && value.toNat ≤ greatest)
  | .number value => .ok (least.toFloat.le value && value.le greatest.toFloat)
  | _ => .error .notNumber

end Quantity

end RootFinding
