import RootFinding.Proofs.Exact.Field
import RootFinding.Proofs.LineSearch.Decrease

/-!
# The norm without rounding

A sum of squares of real numbers has an exact square root. So the norm of a residual vanishes with
the residual, and a step that ends in a root is accepted whole.
-/

namespace RootFinding

open scoped Exact

namespace Exact

variable {n : Nat}

/-- The norm is the root of the product of a vector with itself. -/
theorem euclideanNorm_sq (v : Vector ℝ n) : euclideanNorm v ^ 2 = dot v v :=
  Real.sq_sqrt (dot_self_nonneg v)

@[simp]
theorem euclideanNorm_zeros : euclideanNorm (zeros n : Vector ℝ n) = 0 := by
  have square : dot (zeros n) (zeros n : Vector ℝ n) = 0 := by
    simp [dot_eq_sum]
  rw [euclideanNorm, square]
  exact Real.sqrt_zero

end Exact

namespace LineSearch

variable {m n : Nat}
variable {system : ExpressionSystem ℝ m n}
variable {x dx : Vector ℝ n}

/-- A whole step from an error to a root is taken. -/
theorem backtrack_of_root
    (root : residuals system (moved x 1.0 dx) = zeros m)
    {before : ℝ}
    (positive : 0 < before)
    (smaller : List ℝ) :
    backtrack system x dx before 1.0 smaller = { alpha := 1.0, trials := 1 } := by
  apply choose_of_isAccepted
  have share : (0 : ℝ) < 1.0 - sufficientShare * 1.0 := by
    rw [sufficientShare]
    norm_num
  rw [normAfter, root, Exact.euclideanNorm_zeros]
  exact Exact.less_iff.mpr (mul_pos positive share)

end LineSearch

end RootFinding
