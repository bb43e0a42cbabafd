import RootFinding.Proofs.Iteration.Turns
import RootFinding.Solve

/-!
# A reported error is measured at the reported point

A state is measured when it holds the residuals of its own point and their norm. Newton's method
measures anew before every test it makes, so each of its results comes from a measured state. The
secant method measures only after it has moved, be it by a step or by a restart, and its states
stay measured throughout a run. Nothing here depends on the numbers being finite.
-/

namespace RootFinding

variable {K : Type} [Scalar K] {n : Nat}

namespace IterationState

/-- The state holds the residuals of its own point and their norm. -/
structure IsMeasured
    (state : IterationState K n)
    (system : ExpressionSystem K n n) :
    Prop where
  fx_eq : state.fx = residuals system state.x
  error_eq : state.error = euclideanNorm (residuals system state.x)

/-- Measuring makes a state measured. -/
theorem isMeasured_measured
    (state : IterationState K n)
    (system : ExpressionSystem K n n) :
    (state.measured system).IsMeasured system where
  fx_eq := rfl
  error_eq := rfl

/-- A result of a measured state reports the error at its solution. -/
theorem IsMeasured.finalError_result
    {state : IterationState K n}
    {system : ExpressionSystem K n n}
    (measured : state.IsMeasured system)
    (iterations : Int)
    (converged : Bool)
    (methodUsed : String) :
    (state.result iterations converged methodUsed).finalError =
      euclideanNorm
        (residuals system (state.result iterations converged methodUsed).solution) :=
  measured.error_eq

end IterationState

namespace Newton

/-- Every result of Newton's method reports the error at its solution. -/
theorem finalError_of_returns
    {system : ExpressionSystem K n n}
    {epsilon : K}
    {limit : Int}
    {start : IterationState K n}
    {turns : Nat}
    {result : SolveResult K n}
    (returned : (scheme system epsilon limit).Returns start turns result) :
    result.finalError = euclideanNorm (residuals system result.solution) := by
  cases returned with
  | @finished iteration state _ early reached turned =>
      have endings := finished_of_turn turned
      rcases endings with ⟨_, shape⟩ | ⟨_, next, _, _, shape⟩
      · subst result
        exact (state.isMeasured_measured system).finalError_result _ _ _
      · subst result
        exact (next.isMeasured_measured system).finalError_result _ _ _
  | @exhausted state reached =>
      exact (state.isMeasured_measured system).finalError_result _ _ _

end Newton

namespace Secant

/-- The secant method starts from a measured state. -/
theorem isMeasured_start
    (system : ExpressionSystem K n n)
    (x : Vector K n) :
    (start system x).2.toIterationState.IsMeasured system where
  fx_eq := rfl
  error_eq := rfl

/-- A restart measures its new point, and without one the point stays as it was. -/
theorem isMeasured_settled
    {system : ExpressionSystem K n n}
    {state : SecantState K n}
    (measured : state.toIterationState.IsMeasured system)
    (epsilon : K)
    (iteration : Nat) :
    (settled system epsilon iteration state).2.toIterationState.IsMeasured system := by
  unfold settled
  split
  · split
    · exact IterationState.isMeasured_measured _ system
    · exact measured
  · exact measured

/-- A step ends with a measurement, whether or not the matrix learns from it. -/
theorem isMeasured_advanced
    (system : ExpressionSystem K n n)
    (epsilon : K)
    (iteration : Nat)
    (state : SecantState K n) :
    (advanced system epsilon iteration state).2.toIterationState.IsMeasured system := by
  unfold advanced
  dsimp only
  split
  · exact IterationState.isMeasured_measured _ system
  · exact IterationState.isMeasured_measured _ system

/-- Every state that the secant method reaches is measured. -/
theorem isMeasured_of_stateBefore?
    {system : ExpressionSystem K n n}
    {epsilon : K}
    {limit : Int}
    {x : Vector K n}
    {iteration : Nat}
    {state : SecantState K n}
    (reached :
      (scheme system epsilon limit).stateBefore? (start system x).2 iteration = some state) :
    state.toIterationState.IsMeasured system := by
  refine Scheme.invariant_of_stateBefore?
    (fun _ later => later.toIterationState.IsMeasured system)
    (isMeasured_start system x) ?_ reached
  intro iteration before next _ turned
  obtain ⟨_, shape, _⟩ := onward_of_turn turned
  subst next
  exact isMeasured_advanced system epsilon iteration _

/-- Every result of the secant method reports the error at its solution. -/
theorem finalError_of_returns
    {system : ExpressionSystem K n n}
    {epsilon : K}
    {limit : Int}
    {x : Vector K n}
    {turns : Nat}
    {result : SolveResult K n}
    (returned : (scheme system epsilon limit).Returns (start system x).2 turns result) :
    result.finalError = euclideanNorm (residuals system result.solution) := by
  cases returned with
  | finished early reached turned =>
      have measured := isMeasured_of_stateBefore? reached
      have endings := finished_of_turn turned
      rcases endings with ⟨_, shape⟩ | ⟨_, next, nextShape, _, shape⟩
      · subst result
        exact measured.finalError_result _ _ _
      · subst result next
        exact (isMeasured_advanced system epsilon _ _).finalError_result _ _ _
  | exhausted reached =>
      exact (isMeasured_of_stateBefore? reached).finalError_result _ _ _

end Secant

/--
Whichever method ran and in whichever way its run came to a result, the reported error is the norm
of the residuals at the reported solution, which has one entry for each variable.
-/
theorem finalError_eq_norm_at_solution
    (method : Method)
    (system : ExpressionSystem K n n)
    (x : Vector K n)
    (epsilon : K)
    (limit : Int)
    (polls : PollAnswers)
    {result : SolveResult K n}
    (returned : (method.run system x epsilon limit polls).ending = .returned result) :
    result.finalError = euclideanNorm (residuals system result.solution) ∧
      result.solution.toArray.size = n := by
  refine ⟨?_, result.solution.size_toArray⟩
  cases method with
  | newton =>
      exact Newton.finalError_of_returns (Scheme.returns_of_ending returned)
  | secant =>
      exact Secant.finalError_of_returns (Scheme.returns_of_ending returned)

/-- A run of twelve turns on a constant residual, which restarts in its eleventh turn. -/
theorem finalError_after_restart :
    let system : ExpressionSystem Float 1 1 := #v[[{ coefficient := 1.0, monomial := .one }]]
    let result : SolveResult Float 1 := {
      solution := #v[-0.0035937499999999997]
      iterations := 12
      finalError := 1.0
      converged := false
      functionEvaluations := 75
      jacobianEvaluations := 0
      methodUsed := "Secant" }
    (Method.secant.run system #v[0.0] 0.01 12 .never).ending = .returned result ∧
      result.finalError = euclideanNorm (residuals system result.solution) ∧
      result.solution.toArray.size = 1 := by
  intro system result
  have returned :
      (Method.secant.run system #v[0.0] 0.01 12 .never).ending = .returned result := by
    decide +kernel
  exact ⟨returned,
    finalError_eq_norm_at_solution .secant system #v[0.0] 0.01 12 .never returned⟩

end RootFinding
