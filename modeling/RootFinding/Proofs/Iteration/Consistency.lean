import RootFinding.Proofs.Iteration.Learning
import RootFinding.Proofs.Linear.Pivots

/-!
# The state of the secant method stays consistent

Restarts, resets and corrections change different parts of the state, and residuals may overflow at
any time. Before every turn the state nevertheless holds the residuals of both of its points, the
norm of the later ones, a finite matrix, and a number of stalled turns that calls for no restart.
Each part of a turn keeps this: settling the stalls, walking, and learning from the walk. So the
matrix is only ever corrected by residuals that belong to the two points of the correction, and it
is never the matrix that makes a linear solve give up on its input.
-/

namespace RootFinding

namespace DenseMatrix

/-- Zero and one are finite. -/
theorem entriesFinite_identity (n : Nat) :
    (identity n : DenseMatrix Float n n).entriesFinite = true := by
  have units (diagonal : Prop) [Decidable diagonal] :
      Arithmetic.isFinite (if diagonal then 1.0 else 0.0 : Float) = true := by
    split <;> decide +kernel
  simp [entriesFinite, identity, allFinite, units]

end DenseMatrix

namespace SecantUpdate

variable {n : Nat}

/-- A correction that is not finite is not made, so a finite matrix stays finite. -/
theorem entriesFinite_apply_between
    {matrix : DenseMatrix Float n n}
    (finite : matrix.entriesFinite = true)
    (x previous fx fxPrevious : Vector Float n) :
    ((between matrix x previous fx fxPrevious).apply matrix).entriesFinite = true := by
  unfold between ofStep
  dsimp only
  split
  · exact finite
  · split
    · assumption
    · exact DenseMatrix.entriesFinite_identity n

end SecantUpdate

/-- What holds of a state of the secant method before each of its turns. -/
structure SecantState.IsConsistent
    {n : Nat}
    (state : SecantState Float n)
    (system : ExpressionSystem Float n n) :
    Prop where
  matrix_finite : state.matrix.entriesFinite = true
  fx_eq : state.fx = residuals system state.x
  error_eq : state.error = euclideanNorm state.fx
  fxPrevious_eq : state.fxPrevious = residuals system state.previous
  stalls_le : state.stalls ≤ 10

theorem SecantState.IsConsistent.isMeasured
    {n : Nat}
    {state : SecantState Float n}
    {system : ExpressionSystem Float n n}
    (consistent : state.IsConsistent system) :
    state.toIterationState.IsMeasured system where
  fx_eq := consistent.fx_eq
  error_eq := consistent.fx_eq ▸ consistent.error_eq

namespace Secant

variable {n : Nat}
variable {system : ExpressionSystem Float n n}
variable {state : SecantState Float n}

/-- The state in front of the first turn is consistent. -/
theorem isConsistent_start
    (system : ExpressionSystem Float n n)
    (x : Vector Float n) :
    (start system x).2.IsConsistent system where
  matrix_finite :=
    SecantUpdate.entriesFinite_apply_between (DenseMatrix.entriesFinite_identity n) _ _ _ _
  fx_eq := rfl
  error_eq := rfl
  fxPrevious_eq := rfl
  stalls_le := Nat.zero_le 10

/-- Settling measures anew where it moves the point, and never lets the stalls go beyond ten. -/
theorem isConsistent_settled
    (consistent : state.IsConsistent system)
    (epsilon : Float)
    (iteration : Nat) :
    (settled system epsilon iteration state).2.IsConsistent system := by
  unfold settled
  split
  · split
    · exact { consistent with
        fx_eq := rfl
        error_eq := rfl
        stalls_le := Nat.zero_le 10 }
    · rename_i few
      exact { consistent with stalls_le := Nat.le_of_not_lt few }
  · exact { consistent with stalls_le := Nat.zero_le 10 }

/-- The matrix that a direction leaves behind is finite. -/
theorem entriesFinite_direction
    (finite : state.matrix.entriesFinite = true)
    (iteration : Nat) :
    (direction iteration state).2.2.entriesFinite = true := by
  unfold direction
  split
  · exact finite
  · exact DenseMatrix.entriesFinite_identity n

/-- A walk ends at a measured point, with the one it came from and its residuals behind it. -/
theorem isConsistent_advanced
    (consistent : state.IsConsistent system)
    (epsilon : Float)
    (iteration : Nat) :
    (advanced system epsilon iteration state).2.IsConsistent system := by
  have finite := entriesFinite_direction consistent.matrix_finite iteration
  have before := consistent.fx_eq
  have few := consistent.stalls_le
  unfold advanced
  dsimp only
  split
  · exact {
      matrix_finite := SecantUpdate.entriesFinite_apply_between finite _ _ _ _
      fx_eq := rfl
      error_eq := rfl
      fxPrevious_eq := before
      stalls_le := few }
  · exact {
      matrix_finite := finite
      fx_eq := rfl
      error_eq := rfl
      fxPrevious_eq := before
      stalls_le := few }

/-- Every turn starts from a consistent state. -/
theorem isConsistent_of_stateBefore?
    {epsilon : Float}
    {limit : Int}
    {x : Vector Float n}
    {iteration : Nat}
    (reached :
      (scheme system epsilon limit).stateBefore? (start system x).2 iteration = some state) :
    state.IsConsistent system := by
  refine Scheme.invariant_of_stateBefore?
    (fun _ later => later.IsConsistent system)
    (isConsistent_start system x) ?_ reached
  intro iteration before next consistent turned
  obtain ⟨_, shape, _⟩ := onward_of_turn turned
  subst next
  exact isConsistent_advanced (isConsistent_settled consistent epsilon iteration) epsilon iteration

/-- A linear solve on a finite matrix gives up on its input only for the residuals. -/
theorem not_finite_of_singular_mem_turn
    (consistent : state.IsConsistent system)
    {epsilon : Float}
    {iteration reporting : Nat}
    (reported :
      Event.singular .secant reporting .nonFiniteInput ∈ (turn system epsilon iteration state).1) :
    allFinite (opposite (settled system epsilon iteration state).2.fx) = false := by
  obtain ⟨_, _, gaveUp⟩ := singular_mem_turn_iff.mp reported
  rcases not_finite_of_nonFiniteInput gaveUp with matrix | residuals
  · rw [consistent.matrix_finite] at matrix
    cases matrix
  · exact residuals

/--
Before every turn of a run the state is consistent, from whatever point the run started. So is the
state from which the turn takes its step, and the one at the end of the step; the matrix there is
corrected by the residuals at the two ends, like the first matrix by those at the first two points.
A turn that gives up on the input of its linear solve does so for the residuals and not for the
matrix.
-/
theorem run_isConsistent
    (system : ExpressionSystem Float n n)
    (x : Vector Float n)
    (epsilon : Float)
    (limit : Int) :
    (start system x).2.matrix =
        (SecantUpdate.betweenPoints system (.identity n) x (secondPoint x)).apply (.identity n) ∧
      ∀ iteration state,
        (scheme system epsilon limit).stateBefore? (start system x).2 iteration = some state →
        let ready := (settled system epsilon iteration state).2
        let matrix := (direction iteration ready).2.2
        let next := stepped system epsilon iteration state
        state.IsConsistent system ∧
          ready.IsConsistent system ∧
          next.IsConsistent system ∧
          (next.matrix =
            if Arithmetic.less (epsilon * 1e-2) (displacement next) then
              (SecantUpdate.betweenPoints system matrix next.x ready.x).apply matrix
            else matrix) ∧
          (Event.singular .secant iteration .nonFiniteInput ∈
              ((scheme system epsilon limit).turn iteration state).1 →
            state.matrix.entriesFinite = true ∧ allFinite (opposite ready.fx) = false) := by
  refine ⟨rfl, ?_⟩
  intro iteration state reached ready matrix next
  have before : state.IsConsistent system := isConsistent_of_stateBefore? reached
  have between : ready.IsConsistent system := isConsistent_settled before epsilon iteration
  have after : next.IsConsistent system := isConsistent_advanced between epsilon iteration
  have learned := matrix_advanced_betweenPoints between.isMeasured epsilon iteration
  refine ⟨before, between, after, learned, ?_⟩
  intro reported
  exact ⟨before.matrix_finite, not_finite_of_singular_mem_turn before reported⟩

/-- A residual that overflows spoils the point at once, but not the matrix. -/
theorem overflow_isConsistent :
    let system : ExpressionSystem Float 1 1 := #v[[⟨1.0, .product 0 0⟩]]
    let first := (start system #v[1e200]).2
    ∃ state,
      (scheme system 0.01 10).stateBefore? first 1 = some state ∧
        allFinite state.x = false ∧
        state.IsConsistent system ∧
        Event.singular .secant 1 .nonFiniteInput ∈
          ((scheme system 0.01 10).turn 1 state).1 ∧
        state.matrix.entriesFinite = true := by
  intro system first
  have spoiled :
      ((scheme system 0.01 10).stateBefore? first 1).any
        (fun state =>
          !allFinite state.x &&
            decide
              (Event.singular .secant 1 .nonFiniteInput ∈
                ((scheme system 0.01 10).turn 1 state).1)) = true := by
    decide +kernel
  obtain ⟨state, reached, spoiled⟩ := (Option.any_eq_true _ _).mp spoiled
  rw [Bool.and_eq_true, Bool.not_eq_true', decide_eq_true_eq] at spoiled
  obtain ⟨consistent, _, _, _, blamed⟩ :=
    (run_isConsistent system #v[1e200] 0.01 10).2 1 state reached
  exact ⟨state, reached, spoiled.1, consistent, spoiled.2, (blamed spoiled.2).1⟩

end Secant

end RootFinding
