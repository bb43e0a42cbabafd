import Mathlib.Analysis.InnerProductSpace.PiL2
import RootFinding.Iteration.Secant
import RootFinding.Proofs.Exact.Norm

/-!
# Distances without rounding

Vectors of real numbers are points of a Euclidean space, and the norm that the solver computes is the
norm of that space. So distances between points obey the triangle inequality, a step is as long as
its direction says, half way is half as far, and the two directions that the secant method takes are
as short as they are meant to be.
-/

namespace RootFinding

open scoped Exact

namespace Exact

variable {n : Nat}

/-- A vector as a point of a Euclidean space. -/
noncomputable def point (v : Vector ℝ n) : EuclideanSpace ℝ (Fin n) :=
  WithLp.toLp _ v.get

@[simp]
theorem point_apply (v : Vector ℝ n) (i : Fin n) : point v i = v.get i :=
  rfl

/-- The norm that the solver computes is that of Euclidean space. -/
theorem norm_point (v : Vector ℝ n) : ‖point v‖ = euclideanNorm v := by
  rw [EuclideanSpace.norm_eq, euclideanNorm, dot_self_eq_sum]
  simp only [point_apply, Real.norm_eq_abs, sq_abs]
  rfl

theorem euclideanNorm_nonneg (v : Vector ℝ n) : 0 ≤ euclideanNorm v :=
  Real.sqrt_nonneg _

/-- A map of the entries that multiplies each by the same number multiplies the norm. -/
theorem euclideanNorm_of_scaled
    {u v : Vector ℝ n}
    {factor : ℝ}
    (scaled : ∀ i, u.get i = factor * v.get i) :
    euclideanNorm u = |factor| * euclideanNorm v := by
  have same : point u = factor • point v := by
    ext i
    exact scaled i
  rw [← norm_point, ← norm_point, same, norm_smul, Real.norm_eq_abs]

/-- The norm of a difference is the distance of the points. -/
theorem euclideanNorm_difference (u v : Vector ℝ n) :
    euclideanNorm (difference u v) = dist (point u) (point v) := by
  have same : point (difference u v) = point u - point v := by
    ext i
    exact get_difference u v i
  rw [← norm_point, same, dist_eq_norm]

@[simp]
theorem distance_self (u : Vector ℝ n) : euclideanNorm (difference u u) = 0 := by
  rw [euclideanNorm_difference, dist_self]

theorem distance_triangle (u v w : Vector ℝ n) :
    euclideanNorm (difference u w) ≤
      euclideanNorm (difference u v) + euclideanNorm (difference v w) := by
  simp only [euclideanNorm_difference]
  exact dist_triangle _ _ _

/-- A step is as long as its direction, times the length that is walked along it. -/
theorem distance_moved (x dx : Vector ℝ n) (alpha : ℝ) :
    euclideanNorm (difference (moved x alpha dx) x) = |alpha| * euclideanNorm dx := by
  apply euclideanNorm_of_scaled
  intro i
  rw [get_difference, get_moved, add_sub_cancel_left]

/-- Half way is half as far. -/
theorem distance_midpoint (u v : Vector ℝ n) :
    euclideanNorm (difference (midpoint u v) u) = euclideanNorm (difference u v) / 2 := by
  have scaled (i : Fin n) :
      (difference (midpoint u v) u).get i = -(1 / 2) * (difference u v).get i := by
    have middle : (midpoint u v).get i = (u.get i + v.get i) / 2.0 :=
      getElem_midpoint u v i.val i.isLt
    have two : (2.0 : ℝ) = 2 := by norm_num
    rw [get_difference, get_difference, middle, two]
    ring
  rw [euclideanNorm_of_scaled scaled, abs_neg, abs_of_pos one_half_pos]
  ring

/-- The damped move is shorter than one hundredth, however large the residuals are. -/
theorem euclideanNorm_dampedStep_lt (fx : Vector ℝ n) : euclideanNorm (dampedStep fx) < 0.01 := by
  have nonneg := euclideanNorm_nonneg fx
  have scaled (i : Fin n) :
      (dampedStep fx).get i = -(0.01 / (1.0 + euclideanNorm fx)) * fx.get i :=
    Vector.getElem_map _ i.isLt
  rw [euclideanNorm_of_scaled scaled, abs_neg, abs_of_nonneg (by positivity),
    div_mul_eq_mul_div, div_lt_iff₀ (by positivity)]
  linarith

end Exact

namespace LineSearch

/-- The length that is taken is one of those that were tried. -/
theorem IsChosen.mem
    {K : Type}
    {isAccepted : K → Bool}
    {lengths : List K}
    {alpha : K}
    (chosen : IsChosen isAccepted lengths alpha) :
    alpha ∈ lengths := by
  rcases chosen with ⟨larger, smaller, split, _, _⟩ | ⟨last, _⟩
  · simp [split]
  · exact List.mem_of_getLast? last

end LineSearch

namespace Secant

variable {n : Nat}

/-- No step along a capped direction is longer than one. -/
theorem euclideanNorm_capped_le (dx : Vector ℝ n) : euclideanNorm (capped dx) ≤ 1 := by
  rw [capped]
  split
  · rename_i long
    rw [Exact.less_iff, Exact.ofScientific_one] at long
    have scaled (i : Fin n) :
        (dx.map fun entry => entry / euclideanNorm dx).get i =
          (euclideanNorm dx)⁻¹ * dx.get i :=
      (Vector.getElem_map _ i.isLt).trans (div_eq_inv_mul _ _)
    have positive : 0 < euclideanNorm dx := one_pos.trans long
    rw [Exact.euclideanNorm_of_scaled scaled, abs_of_pos (inv_pos.mpr positive),
      inv_mul_cancel₀ positive.ne']
  · rename_i short
    rw [Exact.less_iff, Exact.ofScientific_one, not_lt] at short
    exact short

/-- A direction that is no longer than one is not cut. -/
theorem capped_of_le
    {dx : Vector ℝ n}
    (short : euclideanNorm dx ≤ 1) :
    capped dx = dx := by
  have notLong : Arithmetic.less 1.0 (euclideanNorm dx) = false := by
    rw [Exact.less_eq_false_iff, Exact.ofScientific_one]
    exact short
  simp only [capped, notLong, Bool.false_eq_true, ↓reduceIte]

/-- A direction is no longer than one after the step is cut. -/
theorem euclideanNorm_direction_le (iteration : Nat) (state : SecantState ℝ n) :
    euclideanNorm (direction iteration state).2.1 ≤ 1 := by
  unfold direction
  split <;> exact euclideanNorm_capped_le _

/-- Where the linear solve gave up, the direction is a damped move. -/
theorem euclideanNorm_direction_lt
    {state : SecantState ℝ n}
    {cause : Singular ℝ}
    (gaveUp : solveLinear state.matrix (opposite state.fx) = .error cause)
    (iteration : Nat) :
    euclideanNorm (direction iteration state).2.1 < 0.01 := by
  have short := Exact.euclideanNorm_dampedStep_lt state.fx
  have notLong : euclideanNorm (dampedStep state.fx) ≤ 1 :=
    short.le.trans (by norm_num)
  simp only [direction, gaveUp, capped_of_le notLong]
  exact short

/-- The line search goes forward, and never beyond the whole step. -/
theorem alpha_backtrack_bounds
    (system : ExpressionSystem ℝ n n)
    (x dx : Vector ℝ n)
    (before : ℝ) :
    let alpha := (LineSearch.backtrack system x dx before 1.0 shorterLengths).alpha
    0 < alpha ∧ alpha ≤ 1 := by
  intro alpha
  have member : alpha ∈ (1.0 : ℝ) :: shorterLengths :=
    (LineSearch.isChosen_choose _ _ _).mem
  simp only [shorterLengths, LineSearch.halvings, List.mem_cons, List.not_mem_nil, or_false]
    at member
  rcases member with same | same | same | same | same <;>
    · rw [same]
      norm_num

end Secant

end RootFinding
