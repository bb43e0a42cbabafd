import RootFinding.Proofs.Iteration.Measurement

/-!
# What a turn of the secant method does to the matrix

A turn goes on with the matrix that it found, or with the identity where the linear solve gave up;
which of the two can be read off the events of the turn. After the step the matrix is corrected by
the displacement, if that was long enough; where the state was measured, the correction is made by
the residuals that belong to the two ends of the step.
-/

namespace RootFinding

namespace SecantUpdate

variable {K : Type} {n : Nat}

/-- The update from two points of a system, by the residuals that belong to them. -/
def betweenPoints
    [Arithmetic K]
    (system : ExpressionSystem K n n)
    (matrix : DenseMatrix K n n)
    (x previous : Vector K n) :
    SecantUpdate K n :=
  between matrix x previous (residuals system x) (residuals system previous)

/-- An update that is not applied leaves the matrix alone. -/
theorem apply_of_not_isApplied
    [Arithmetic K]
    {update : SecantUpdate K n}
    (unused : update.isApplied = false)
    (matrix : DenseMatrix K n n) :
    update.apply matrix = matrix := by
  cases update with
  | skipped => rfl
  | corrected next => cases unused
  | reset => cases unused

/-- No update is reported as a singular solve. -/
theorem not_singular_mem_events
    (update : SecantUpdate K n)
    (method : Method)
    (iteration : Nat)
    (cause : Singular K) :
    Event.singular method iteration cause ∉ update.events := by
  cases update <;> simp [events]

end SecantUpdate

namespace Secant

variable {K : Type} [Scalar K] {n : Nat}
variable {system : ExpressionSystem K n n}

/-- Settling the stalls leaves the matrix alone. -/
theorem matrix_settled
    (system : ExpressionSystem K n n)
    (epsilon : K)
    (iteration : Nat)
    (state : SecantState K n) :
    (settled system epsilon iteration state).2.matrix = state.matrix := by
  unfold settled
  split
  · split <;> rfl
  · rfl

/-- A decision about a restart reports no singular solve. -/
theorem not_singular_mem_settled
    (system : ExpressionSystem K n n)
    (epsilon : K)
    (iteration : Nat)
    (state : SecantState K n)
    (method : Method)
    (reporting : Nat)
    (cause : Singular K) :
    Event.singular method reporting cause ∉ (settled system epsilon iteration state).1 := by
  unfold settled
  split
  · split <;> simp
  · simp

/-- A turn goes on with the matrix that it solved with. -/
theorem matrix_direction_of_ok
    {state : SecantState K n}
    {dx : Vector K n}
    (solved : solveLinear state.matrix (opposite state.fx) = .ok dx)
    (iteration : Nat) :
    (direction iteration state).2.2 = state.matrix := by
  simp only [direction, solved]

/-- Where the linear solve gave up, a turn goes on with the identity. -/
theorem matrix_direction_of_error
    {state : SecantState K n}
    {cause : Singular K}
    (gaveUp : solveLinear state.matrix (opposite state.fx) = .error cause)
    (iteration : Nat) :
    (direction iteration state).2.2 = .identity n := by
  simp only [direction, gaveUp]

/-- A direction reports a singular solve exactly where its linear solve gives up. -/
theorem singular_mem_direction_iff
    {iteration reporting : Nat}
    {state : SecantState K n}
    {cause : Singular K} :
    Event.singular .secant reporting cause ∈ (direction iteration state).1 ↔
      reporting = iteration ∧ solveLinear state.matrix (opposite state.fx) = .error cause := by
  unfold direction
  split
  · rename_i dx solved
    rw [solved]
    simp
  · rename_i other gaveUp
    rw [gaveUp]
    simp [eq_comm]

/-- A step leaves its origin behind, with the residuals that were held there. -/
theorem previous_advanced
    (system : ExpressionSystem K n n)
    (epsilon : K)
    (iteration : Nat)
    (state : SecantState K n) :
    (advanced system epsilon iteration state).2.previous = state.x ∧
      (advanced system epsilon iteration state).2.fxPrevious = state.fx := by
  unfold advanced
  dsimp only
  split <;> exact ⟨rfl, rfl⟩

/-- A step corrects the matrix to go on with by its two ends, if it is long enough. -/
theorem matrix_advanced
    (system : ExpressionSystem K n n)
    (epsilon : K)
    (iteration : Nat)
    (state : SecantState K n) :
    let next := (advanced system epsilon iteration state).2
    let matrix := (direction iteration state).2.2
    next.matrix =
      if Arithmetic.less (epsilon * 1e-2) (displacement next) then
        (SecantUpdate.between matrix next.x next.previous next.fx next.fxPrevious).apply matrix
      else matrix := by
  unfold advanced
  dsimp only
  split
  · rename_i far
    exact (if_pos far).symm
  · rfl

/-- What a step learns, it learns from the residuals at its own two ends. -/
theorem matrix_advanced_betweenPoints
    {state : SecantState K n}
    (measured : state.toIterationState.IsMeasured system)
    (epsilon : K)
    (iteration : Nat) :
    let next := (advanced system epsilon iteration state).2
    let matrix := (direction iteration state).2.2
    next.matrix =
      if Arithmetic.less (epsilon * 1e-2) (displacement next) then
        (SecantUpdate.betweenPoints system matrix next.x state.x).apply matrix
      else matrix := by
  intro next matrix
  have arrived : next.fx = residuals system next.x :=
    (isMeasured_advanced system epsilon iteration state).fx_eq
  obtain ⟨behind, held⟩ := previous_advanced system epsilon iteration state
  rw [SecantUpdate.betweenPoints, ← arrived, ← measured.fx_eq, ← behind, ← held]
  exact matrix_advanced system epsilon iteration state

/-- An advance reports a singular solve exactly where its linear solve gives up. -/
theorem singular_mem_advanced_iff
    (system : ExpressionSystem K n n)
    (epsilon : K)
    {iteration reporting : Nat}
    {state : SecantState K n}
    {cause : Singular K} :
    Event.singular .secant reporting cause ∈ (advanced system epsilon iteration state).1 ↔
      reporting = iteration ∧ solveLinear state.matrix (opposite state.fx) = .error cause := by
  rw [← singular_mem_direction_iff]
  unfold advanced
  dsimp only
  split
  · rw [List.mem_append, or_iff_left (SecantUpdate.not_singular_mem_events _ _ _ _)]
  · rfl

/-- A turn reports a singular system just when its linear solve gave up on one. -/
theorem singular_mem_turn_iff
    {epsilon : K}
    {iteration reporting : Nat}
    {state : SecantState K n}
    {cause : Singular K} :
    Event.singular .secant reporting cause ∈ (turn system epsilon iteration state).1 ↔
      Arithmetic.less state.error epsilon = false ∧
        reporting = iteration ∧
          solveLinear state.matrix
              (opposite (settled system epsilon iteration state).2.fx) =
            .error cause := by
  rw [← matrix_settled system epsilon iteration state, ← singular_mem_advanced_iff system epsilon]
  have settling := not_singular_mem_settled system epsilon iteration state .secant reporting cause
  unfold turn
  dsimp only
  split
  · rename_i small
    simp [small]
  · rename_i large
    split <;> simp [large, settling]

/-- The turn reports a singular system. -/
def ReportsSingular
    (system : ExpressionSystem K n n)
    (epsilon : K)
    (iteration : Nat)
    (state : SecantState K n) :
    Prop :=
  ∃ cause, Event.singular .secant iteration cause ∈ (turn system epsilon iteration state).1

/-- Where a turn reports a singular system, it goes on with the identity. -/
theorem matrix_direction_of_reportsSingular
    {epsilon : K}
    {iteration : Nat}
    {state : SecantState K n}
    (reports : ReportsSingular system epsilon iteration state) :
    (direction iteration (settled system epsilon iteration state).2).2.2 = .identity n := by
  obtain ⟨cause, reported⟩ := reports
  obtain ⟨_, _, gaveUp⟩ := singular_mem_turn_iff.mp reported
  rw [← matrix_settled system epsilon iteration state] at gaveUp
  exact matrix_direction_of_error gaveUp iteration

/-- Where a turn takes a step and reports none, it goes on with the matrix that it found. -/
theorem matrix_direction_of_not_reportsSingular
    {epsilon : K}
    {iteration : Nat}
    {state : SecantState K n}
    (large : Arithmetic.less state.error epsilon = false)
    (silent : ¬ReportsSingular system epsilon iteration state) :
    (direction iteration (settled system epsilon iteration state).2).2.2 = state.matrix := by
  have kept := matrix_settled system epsilon iteration state
  cases outcome :
      solveLinear state.matrix (opposite (settled system epsilon iteration state).2.fx) with
  | ok dx =>
      rw [← kept] at outcome ⊢
      exact matrix_direction_of_ok outcome iteration
  | error cause =>
      exact absurd ⟨cause, singular_mem_turn_iff.mpr ⟨large, rfl, outcome⟩⟩ silent

end Secant

end RootFinding
