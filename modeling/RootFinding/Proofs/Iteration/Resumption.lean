import RootFinding.Proofs.Iteration.Count
import RootFinding.Proofs.Iteration.Measurement

/-!
# Runs that start from a solution

A run reports the error of the very point that it reports, so a run that starts there measures the
same error. Where that is below the tolerance, either method is done before it takes a step: the
point comes back as it was, and nothing but the measurements in front of the first test was spent.
-/

namespace RootFinding

namespace Method

variable {K : Type} [Scalar K] {n : Nat}

/-- Every result reports the error at its solution. -/
theorem finalError_of_returned
    {method : Method}
    {system : ExpressionSystem K n n}
    {x : Vector K n}
    {epsilon : K}
    {limit : Int}
    {polls : PollAnswers}
    {result : SolveResult K n}
    (returned : (method.run system x epsilon limit polls).ending = .returned result) :
    result.finalError = euclideanNorm (residuals system result.solution) := by
  cases method with
  | newton =>
      exact Newton.finalError_of_returns (Scheme.returns_of_ending returned)
  | secant =>
      exact Secant.finalError_of_returns (Scheme.returns_of_ending returned)

/-- A run from a point with a small error finishes in its first turn, at that point. -/
theorem returned_of_small
    (method : Method)
    {system : ExpressionSystem K n n}
    {x : Vector K n}
    {epsilon : K}
    (small : Arithmetic.less (euclideanNorm (residuals system x)) epsilon = true)
    {limit : Int}
    (positive : 1 ≤ limit)
    {polls : PollAnswers}
    (poll : polls 0 = false) :
    (method.run system x epsilon limit polls).ending =
      .returned
        { solution := x
          iterations := 1
          finalError := euclideanNorm (residuals system x)
          converged := true
          functionEvaluations :=
            match method with
            | .newton => n
            | .secant => 2 * n
          jacobianEvaluations := 0
          methodUsed := method.label } := by
  obtain ⟨more, turns⟩ : ∃ more, limit.toNat = more + 1 :=
    Nat.exists_eq_add_of_le' (Int.toNat_le_toNat positive)
  cases method with
  | newton =>
      have finished : (Newton.turn system epsilon 0 (.atPoint x)).2 = _ :=
        Newton.turn_of_small 0 small
      rw [run, Newton.run, turns, Scheme.runFrom_of_finished _ poll (Prod.ext rfl finished)]
      simp [IterationState.result, IterationState.measured, IterationState.atPoint]
  | secant =>
      -- The second point of the first pair is measured as well, before any test.
      have finished : (Secant.turn system epsilon 0 (Secant.start system x).2).2 = _ :=
        Secant.turn_of_small 0 small
      rw [run, Secant.run, turns]
      dsimp only
      rw [Scheme.runFrom_of_finished _ poll (Prod.ext rfl finished)]
      simp [IterationState.result, Secant.start, IterationState.charged, IterationState.measured,
        IterationState.atPoint, Nat.two_mul]

/--
Whichever method found a solution with an error below the tolerance, either method that starts from
it converges in its first turn: it reports the same point with the same error, and has evaluated the
system once, or twice with the secant method.
-/
theorem solution_found_again
    (method again : Method)
    (system : ExpressionSystem K n n)
    (x : Vector K n)
    {epsilon : K}
    (limit : Int)
    (polls : PollAnswers)
    {result : SolveResult K n}
    (returned : (method.run system x epsilon limit polls).ending = .returned result)
    (small : Arithmetic.less result.finalError epsilon = true)
    {limitAgain : Int}
    (positive : 1 ≤ limitAgain) :
    (again.run system result.solution epsilon limitAgain .never).ending =
      .returned
        { solution := result.solution
          iterations := 1
          finalError := result.finalError
          converged := true
          functionEvaluations :=
            match again with
            | .newton => n
            | .secant => 2 * n
          jacobianEvaluations := 0
          methodUsed := again.label } := by
  have measured := finalError_of_returned returned
  rw [measured] at small ⊢
  exact again.returned_of_small small positive rfl

/-- The root of two that Newton's method finds is a root for the secant method too. -/
theorem squareRoot_found_again :
    let system : ExpressionSystem Float 1 1 := #v[[⟨1.0, .product 0 0⟩, ⟨-2.0, .one⟩]]
    ∃ result,
      (newton.run system #v[1.0] 1e-6 100 .never).ending = .returned result ∧
        Arithmetic.less result.finalError 1e-6 = true ∧
        result.iterations = 5 ∧
        (secant.run system result.solution 1e-6 1 .never).ending =
          .returned
            { solution := result.solution
              iterations := 1
              finalError := result.finalError
              converged := true
              functionEvaluations := 2
              jacobianEvaluations := 0
              methodUsed := "Secant" } := by
  have five :
      (newton.run
        (#v[[⟨1.0, .product 0 0⟩, ⟨-2.0, .one⟩]] : ExpressionSystem Float 1 1)
        #v[1.0] 1e-6 100 .never).ending.passes
          (fun result =>
            Arithmetic.less result.finalError 1e-6 && decide (result.iterations = 5)) = true := by
    decide +kernel
  intro system
  obtain ⟨result, returned, reported⟩ := Ending.exists_of_passes five
  rw [Bool.and_eq_true, decide_eq_true_eq] at reported
  exact ⟨result, returned, reported.1, reported.2,
    solution_found_again .newton .secant system #v[1.0] 100 .never returned reported.1
      (Int.le_refl 1)⟩

end Method

end RootFinding
