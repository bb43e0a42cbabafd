import Mathlib.Tactic.FinCases
import RootFinding.Proofs.Exact.Affine
import RootFinding.Proofs.Exact.Elimination
import RootFinding.Proofs.Exact.Norm
import RootFinding.Proofs.Iteration.Measurement

/-!
# One step of Newton's method solves an affine system

Without rounding the linear model of an affine system is the system itself. Where elimination meets
no small pivot, the model has exactly one root, the first step leads there, and the line search lets
it: the error after the step is zero. The next turn measures this and finishes.
-/

namespace RootFinding

open scoped Exact
open Elimination

namespace ExpressionSystem

variable {K : Type} [Field K] [LinearOrder K] [IsStrictOrderedRing K]
variable {n : Nat}
variable {system : ExpressionSystem K n n}

/-- The whole step that the linear solve finds leads to a root. -/
theorem residuals_moved_of_apply
    (affine : IsAffine system)
    {x dx : Vector K n}
    (solves : (coefficients system).apply dx = opposite (residuals system x)) :
    residuals system (moved x 1.0 dx) = zeros n := by
  apply Exact.ext_get
  intro i
  rw [get_residuals_moved affine, solves, Exact.get_opposite, Exact.get_zeros,
    Exact.ofScientific_one, one_mul, add_neg_cancel]

/-- Two roots differ by nothing, since their difference has the image zero. -/
theorem eq_of_roots
    (affine : IsAffine system)
    (pivots : HasLargePivots (coefficients system))
    {x y : Vector K n}
    (isRoot : residuals system x = zeros n)
    (alsoRoot : residuals system y = zeros n) :
    x = y := by
  have images :
      (coefficients system).apply (difference x y) = (coefficients system).apply (zeros n) := by
    rw [← difference_residuals affine, isRoot, alsoRoot]
    apply Exact.ext_get
    intro i
    simp
  have none : difference x y = zeros n := pivots.apply_injective images
  apply Exact.ext_get
  intro i
  apply sub_eq_zero.mp
  rw [← Exact.get_difference, none, Exact.get_zeros]

/-- An affine system with large pivots has exactly one root. -/
theorem exists_root
    (affine : IsAffine system)
    (pivots : HasLargePivots (coefficients system)) :
    ∃ root, ∀ x, residuals system x = zeros n ↔ x = root := by
  obtain ⟨dx, _, solves⟩ := pivots.exists_solution (opposite (residuals system (zeros n)))
  have isRoot := residuals_moved_of_apply affine solves
  refine ⟨moved (zeros n) 1.0 dx, fun x => ⟨fun alsoRoot => ?_, ?_⟩⟩
  · exact eq_of_roots affine pivots alsoRoot isRoot
  · rintro rfl
    exact isRoot

end ExpressionSystem

namespace Newton

open ExpressionSystem (IsAffine coefficients)

variable {n : Nat}
variable {system : ExpressionSystem ℝ n n}
variable {epsilon : ℝ}

/-- A step from a measured state with some error leads to a root, at the first trial. -/
theorem exists_advanced
    (affine : IsAffine system)
    (pivots : HasLargePivots (coefficients system))
    {state : IterationState ℝ n}
    (measured : state.IsMeasured system)
    (positive : 0 < state.error)
    (iteration : Nat) :
    ∃ dx root,
      residuals system root = zeros n ∧
        advanced system iteration state =
          ([], { state with
            x := root
            dx
            functionEvaluations := state.functionEvaluations + n * n + n
            jacobianEvaluations := state.jacobianEvaluations + n * n }) := by
  obtain ⟨dx, solved, solves⟩ := pivots.exists_solution (opposite (residuals system state.x))
  have isRoot := ExpressionSystem.residuals_moved_of_apply affine solves
  have aimed :
      direction iteration (FiniteDifference.jacobian system state.x state.fx) state.fx =
        ([], dx) := by
    rw [measured.fx_eq, FiniteDifference.jacobian_of_isAffine affine, direction, solved]
  have whole := LineSearch.backtrack_of_root isRoot positive shorterLengths
  refine ⟨dx, moved state.x 1.0 dx, isRoot, ?_⟩
  simp only [advanced, aimed, whole, FiniteDifference.evaluations, mul_one]
  rfl

/-- A first turn that measures a large error goes on to a root. -/
theorem exists_first_turn
    (affine : IsAffine system)
    (pivots : HasLargePivots (coefficients system))
    {x : Vector ℝ n}
    (positive : 0 < epsilon)
    (large : epsilon ≤ euclideanNorm (residuals system x)) :
    ∃ next : IterationState ℝ n,
      (turn system epsilon 0 (.atPoint x)).2 = .onward next ∧
        residuals system next.x = zeros n ∧
        next.functionEvaluations = n + n * n + n ∧
        next.jacobianEvaluations = n * n := by
  let present := (IterationState.atPoint x).measured system
  have notDone : isDone epsilon 0 present = false := by
    have notSmall : Arithmetic.less present.error epsilon = false :=
      Exact.less_eq_false_iff.mpr large
    simp [isDone, notSmall]
  obtain ⟨dx, root, isRoot, stepped⟩ :=
    exists_advanced affine pivots (IterationState.isMeasured_measured (.atPoint x) system)
      (positive.trans_le large) 0
  refine ⟨(advanced system 0 present).2, ?_, ?_⟩
  · simp [turn, present, notDone, isStalled]
  · rw [stepped]
    refine ⟨isRoot, ?_, ?_⟩
    · simp [IterationState.measured, IterationState.atPoint]
    · simp [IterationState.measured, IterationState.atPoint]

/--
Newton's method solves an affine system, whose matrix is eliminated without a small pivot, in one
step from any point. Where the error is small at once it returns the point it started from, and
otherwise the only root there is.
-/
theorem affine_solved_at_once
    (affine : IsAffine system)
    (pivots : HasLargePivots (coefficients system))
    (x : Vector ℝ n)
    (positive : 0 < epsilon)
    {limit : Int}
    (enough : 2 ≤ limit) :
    ∃ root,
      (∀ y, residuals system y = zeros n ↔ y = root) ∧
        (run system x epsilon limit PollAnswers.never).ending =
          .returned
            (if euclideanNorm (residuals system x) < epsilon then
              { solution := x
                iterations := 1
                finalError := euclideanNorm (residuals system x)
                converged := true
                functionEvaluations := n
                jacobianEvaluations := 0
                methodUsed := "Newton" }
            else
              { solution := root
                iterations := 2
                finalError := 0
                converged := true
                functionEvaluations := n ^ 2 + 3 * n
                jacobianEvaluations := n ^ 2
                methodUsed := "Newton" }) := by
  obtain ⟨root, roots⟩ := ExpressionSystem.exists_root affine pivots
  refine ⟨root, roots, ?_⟩
  obtain ⟨more, turns⟩ : ∃ more, limit.toNat = more + 2 :=
    Nat.exists_eq_add_of_le' (Int.toNat_le_toNat enough)
  rw [run, turns]
  split
  · rename_i small
    have finished : (turn system epsilon 0 (.atPoint x)).2 = _ :=
      turn_of_small 0 (Exact.less_iff.mpr small)
    rw [Scheme.runFrom_of_finished _ rfl (Prod.ext rfl finished)]
    simp [IterationState.result, IterationState.measured, IterationState.atPoint, Method.label]
  · rename_i large
    obtain ⟨next, onward, isRoot, functions, jacobians⟩ :=
      exists_first_turn affine pivots positive (not_lt.mp large)
    have arrived : next.x = root := (roots next.x).mp isRoot
    have zero : euclideanNorm (residuals system root) = 0 := by
      rw [(roots root).mpr rfl, Exact.euclideanNorm_zeros]
    have small : euclideanNorm (residuals system next.x) < epsilon := by
      rwa [arrived, zero]
    have finished := turn_of_small 1 (Exact.less_iff.mpr small)
    rw [Scheme.runFrom_of_onward _ rfl (Prod.ext rfl onward),
      Scheme.runFrom_of_finished _ rfl (Prod.ext rfl finished)]
    have evaluations : n + n * n + n + n = n ^ 2 + 3 * n := by
      ring
    simp [IterationState.result, IterationState.measured, arrived, zero, functions, jacobians,
      evaluations, sq, Method.label]

/-- A matrix whose rows have to be exchanged. -/
theorem hasLargePivots_exchanged :
    HasLargePivots (#v[#v[0, 1], #v[2, 1]] : DenseMatrix ℝ 2 2) := by
  let first : DenseMatrix ℝ 2 3 := #v[#v[0, 1, 0], #v[2, 1, 0]]
  let second : DenseMatrix ℝ 2 3 := #v[#v[2, 1, 0], #v[0, 1, 0]]
  have lower : pivotRow first 0 = 1 := by
    simp [first, pivotRow, Fin.foldl_succ, DenseMatrix.entry, Vector.get_eq_getElem]
  have lowest : pivotRow second 1 = 1 := by
    simp [second, pivotRow, Fin.foldl_succ, DenseMatrix.entry, Vector.get_eq_getElem]
  have exchanged : ordered first 0 = second := by
    simp [ordered, lower, first, second]
  have kept : ordered second 1 = second := by
    simp [ordered, lowest, second]
  have cleared (i : Fin 2) : clearBelow second i = second := by
    apply Exact.ext_get
    intro k
    apply Exact.ext_get
    intro j
    fin_cases i <;> fin_cases k <;> fin_cases j <;>
      simp [second, clearBelow, DenseMatrix.entry, Vector.get_eq_getElem]
  have tested (i : Fin 2) :
      Arithmetic.less (Arithmetic.magnitude (second.entry i i.castSucc)) pivotTolerance =
        false := by
    fin_cases i <;> norm_num [second, DenseMatrix.entry, Vector.get_eq_getElem, pivotTolerance]
  have firstStage : stage first 0 = .ok second := by
    rw [stage_eq, exchanged, tested, cleared, if_neg Bool.false_ne_true]
  have secondStage : stage second 1 = .ok second := by
    rw [stage_eq, kept, tested, cleared, if_neg Bool.false_ne_true]
  have rows : augmented #v[#v[0, 1], #v[2, 1]] #v[0, 0] = first := by
    simp [augmented, first]
  refine ⟨#v[0, 0], second, ?_⟩
  rw [rows]
  simp only [afterStages, Outcome.bind_eq_ok_iff]
  exact ⟨second, ⟨first, rfl, firstStage⟩, secondStage⟩

/-- The lines `y = 3` and `2 x + y = 1` are met at once from the origin. -/
theorem twoLines_solved_at_once :
    let system : ExpressionSystem ℝ 2 2 :=
      #v[[⟨1, .single 1⟩, ⟨-3, .one⟩], [⟨2, .single 0⟩, ⟨1, .single 1⟩, ⟨-1, .one⟩]]
    IsAffine system ∧
      HasLargePivots (coefficients system) ∧
      (0.01 : ℝ) ≤ euclideanNorm (residuals system #v[0, 0]) ∧
      (run system #v[0, 0] 0.01 2 PollAnswers.never).ending =
        .returned
          { solution := #v[-1, 3]
            iterations := 2
            finalError := 0
            converged := true
            functionEvaluations := 10
            jacobianEvaluations := 4
            methodUsed := "Newton" } := by
  intro system
  have affine : IsAffine system := by
    simp [IsAffine, system, Term.IsAffine, Monomial.toList]
  have matrix : coefficients system = #v[#v[0, 1], #v[2, 1]] := by
    apply Exact.ext_get
    intro i
    apply Exact.ext_get
    intro j
    fin_cases i <;> fin_cases j <;>
      simp [coefficients, system, Expression.coefficient, Vector.get_eq_getElem]
  have pivots : HasLargePivots (coefficients system) := by
    rw [matrix]
    exact hasLargePivots_exchanged
  have values (a b : ℝ) : residuals system #v[a, b] = #v[b - 3, 2 * a + b - 1] := by
    apply Exact.ext_get
    intro i
    fin_cases i <;>
      simp [residuals, system, Expression.valueAt, Expression.value, Term.value,
        Vector.get_eq_getElem, sub_eq_add_neg]
  have isRoot : residuals system #v[-1, 3] = zeros 2 := by
    rw [values]
    apply Exact.ext_get
    intro i
    fin_cases i <;> norm_num [Vector.get_eq_getElem]
  have large : (0.01 : ℝ) ≤ euclideanNorm (residuals system #v[0, 0]) := by
    apply Real.le_sqrt_of_sq_le
    rw [values, Exact.dot_eq_sum, Fin.sum_univ_two]
    norm_num [Vector.get_eq_getElem]
  refine ⟨affine, pivots, large, ?_⟩
  have positive : (0 : ℝ) < 0.01 := by
    norm_num
  obtain ⟨root, roots, returned⟩ :=
    affine_solved_at_once affine pivots #v[0, 0] positive (le_refl 2)
  rw [returned, if_neg (not_lt.mpr large), ← (roots #v[-1, 3]).mp isRoot]
  rfl

end Newton

end RootFinding
