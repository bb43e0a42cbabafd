import RootFinding.FiniteDifference
import RootFinding.Iteration.Secant
import RootFinding.Proofs.Double.Order
import RootFinding.Proofs.Guarded.Basic

/-!
# The divisors of the solver

The methods divide by six kinds of numbers. Two of them are bounded from below by how they are
made, one is a literal, and three were compared with a bound before. On doubles none of the six can
be a zero, whether or not the numbers before it were finite.
-/

namespace RootFinding

namespace Guarded

/-- No number that the solver divides by is a zero. -/
class SafeDivisors (K : Type) [Scalar K] : Prop where
  isZero_two : isZero (2.0 : K) = false
  isZero_stepSize (coordinate : K) : isZero (FiniteDifference.stepSize coordinate) = false
  isZero_one_add_sqrt (square : K) : isZero (1.0 + Scalar.sqrt square) = false
  isZero_pivot {pivot : K} :
    Arithmetic.less (Arithmetic.magnitude pivot) Elimination.pivotTolerance = false →
      isZero pivot = false
  isZero_square {square : K} :
    Arithmetic.less square SecantUpdate.leastSquare = false → isZero square = false
  isZero_size {size : K} : Arithmetic.less 1.0 size = true → isZero size = false

section Doubles

variable {double bound : Float}

/-- A double that division refuses is one of the two zeros. -/
theorem exists_zero_of_isZero
    (zero : isZero double = true) :
    ∃ sign, Double.value double = .zero sign := by
  simp only [isZero, Bool.and_eq_true] at zero
  exact Double.exists_zero_of_atMost zero.1 zero.2

/-- A number that is not below a positive bound is no zero. -/
theorem isZero_of_not_less
    (positive : Arithmetic.less 0.0 bound = true)
    (notBelow : Arithmetic.less double bound = false) :
    isZero double = false := by
  rw [Bool.eq_false_iff]
  intro zero
  obtain ⟨sign, value⟩ := exists_zero_of_isZero zero
  have below := Double.less_of_zero value positive
  rw [notBelow] at below
  cases below

/-- What lies above zero may be divided by. -/
theorem isZero_of_positive
    (positive : Arithmetic.less 0.0 double = true) :
    isZero double = false := by
  rw [Bool.eq_false_iff]
  intro zero
  obtain ⟨sign, value⟩ := exists_zero_of_isZero zero
  have notPositive := Double.not_less_zero_of_zero value
  rw [positive] at notPositive
  cases notPositive

/-- The larger of two numbers is no zero if the second is positive. -/
theorem isZero_larger
    (positive : Arithmetic.less 0.0 bound = true) :
    isZero (Arithmetic.larger double bound) = false := by
  unfold Arithmetic.larger
  split
  · exact isZero_of_positive positive
  · rename_i notBelow
    exact isZero_of_not_less positive (Bool.eq_false_iff.mpr notBelow)

/-- What lies above one may be divided by. -/
theorem isZero_of_less_one
    (above : Arithmetic.less 1.0 double = true) :
    isZero double = false := by
  rw [Bool.eq_false_iff]
  intro zero
  obtain ⟨sign, value⟩ := exists_zero_of_isZero zero
  have notAbove := Double.not_less_one_of_zero value
  rw [above] at notAbove
  cases notAbove

/-- What is at least as large as a positive bound may be divided by. -/
theorem isZero_of_not_less_magnitude
    (positive : Arithmetic.less 0.0 bound = true)
    (notBelow : Arithmetic.less (Arithmetic.magnitude double) bound = false) :
    isZero double = false := by
  rw [Bool.eq_false_iff]
  intro zero
  obtain ⟨sign, value⟩ := exists_zero_of_isZero zero
  have below := Double.less_of_zero (Double.value_magnitude_of_zero value) positive
  rw [notBelow] at below
  cases below

/-- One plus a root may be divided by, even where the root is undefined. -/
theorem isZero_one_add_sqrt (square : Float) :
    isZero (1.0 + Scalar.sqrt square) = false := by
  rw [Bool.eq_false_iff]
  intro zero
  obtain ⟨sign, value⟩ := exists_zero_of_isZero zero
  exact Double.value_one_add_sqrt_ne_zero square sign value

end Doubles

instance : SafeDivisors Float where
  isZero_two := by decide +kernel
  isZero_stepSize _ := isZero_larger (by decide +kernel)
  isZero_one_add_sqrt := isZero_one_add_sqrt
  isZero_pivot := isZero_of_not_less_magnitude (by decide +kernel)
  isZero_square := isZero_of_not_less (by decide +kernel)
  isZero_size := isZero_of_less_one

end Guarded

end RootFinding
