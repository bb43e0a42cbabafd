/-!
# Scalars

The numerical part of the library is written once over a carrier of scalars and is run on doubles.
`Arithmetic` holds what elimination, finite differences and secant updates need, so an ordered
field can carry them exactly; `Scalar` adds the square root that norms need.

Every comparison is a test with a Boolean answer, because a double may be unordered: a value that
is not at most itself compares false with everything.
-/

namespace RootFinding

/-- Field operations, decimal literals and the tests that the solver makes on its numbers. -/
class Arithmetic (K : Type) extends Add K, Sub K, Mul K, Div K, Neg K, OfScientific K where
  /-- The value without its sign. -/
  magnitude : K → K
  /-- Strictly smaller. -/
  less : K → K → Bool
  /-- Smaller or equal. -/
  atMost : K → K → Bool
  /-- Neither infinite nor undefined. -/
  isFinite : K → Bool

/-- Arithmetic with a square root. -/
class Scalar (K : Type) extends Arithmetic K where
  /-- The nonnegative square root. -/
  sqrt : K → K

namespace Arithmetic

variable {K : Type} [Arithmetic K]

/-- The second value where it is strictly larger, else the first. -/
def larger (first second : K) : K :=
  if less first second then second else first

/-- A value that does not compare with itself. -/
def isUnordered (value : K) : Bool :=
  !atMost value value

/-- The scalar that counts `n` units. -/
def ofCount (n : Nat) : K :=
  OfScientific.ofScientific n false 0

end Arithmetic

instance : Scalar Float where
  magnitude := Float.abs
  less := Float.lt
  atMost := Float.le
  isFinite := Float.isFinite
  sqrt := Float.sqrt

end RootFinding
