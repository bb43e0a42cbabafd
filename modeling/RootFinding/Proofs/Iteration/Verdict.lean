import RootFinding.Proofs.Double.Order
import RootFinding.Proofs.Iteration.Turns
import RootFinding.Solve

/-!
# What a converged result of Newton's method says

Three of the four tests that set the flag look at the error, and each of them keeps it below ten
times the tolerance. The fourth looks only at the step before, after the first few turns, and lets
a run end far from any root: where a steep system makes every step tiny, the error may be anything.
-/

namespace RootFinding

namespace Newton

variable {n : Nat}
variable {system : ExpressionSystem Float n n}
variable {x : Vector Float n}
variable {epsilon : Float}
variable {limit : Int}
variable {result : SolveResult Float n}

/--
The result stands where a turn, not one of the first five, left its step, and that step is tiny
against the tolerance. Nothing is said of the error.
-/
inductive EndsAfterTinyStep
    (system : ExpressionSystem Float n n)
    (x : Vector Float n)
    (epsilon : Float)
    (limit : Int)
    (result : SolveResult Float n) :
    Prop where
  | intro
      {iteration : Nat}
      {before last : IterationState Float n}
      (reached : (scheme system epsilon limit).stateBefore? (.atPoint x) iteration = some before)
      (stepped : last = (advanced system iteration (before.measured system)).2)
      (late : 5 < iteration + 1)
      (iterations_eq : result.iterations = iteration + 2)
      (solution_eq : result.solution = last.x)
      (tiny : Arithmetic.less (euclideanNorm last.dx) (epsilon * 1e-4) = true) :
      EndsAfterTinyStep system x epsilon limit result

/-- A turn that is done has a small error, or the turn before it made a tiny step. -/
private theorem endsAfterTinyStep_of_isDone
    {iteration : Nat}
    {state : IterationState Float n}
    (reached :
      (scheme system epsilon limit).stateBefore? (.atPoint x) iteration = some state)
    (done : isDone epsilon iteration (state.measured system) = true)
    (large : Arithmetic.less (state.measured system).error epsilon = false) :
    EndsAfterTinyStep system x epsilon limit
      ((state.measured system).result (iteration + 1) true Method.newton.label) := by
  simp only [isDone, large, Bool.false_or, Bool.and_eq_true, decide_eq_true_eq] at done
  obtain ⟨late, tiny⟩ := done
  cases iteration with
  | zero =>
      cases late
  | succ iteration =>
      obtain ⟨before, beforeReached, turned⟩ :=
        Scheme.exists_onward_of_stateBefore?_succ reached
      obtain ⟨_, stepped, _⟩ := onward_of_turn turned
      exact .intro beforeReached stepped late rfl rfl tiny

/--
A converged result has an error below ten times the tolerance, unless the run ended for the tiny
step of the turn before.
-/
theorem finalError_small_or_endsAfterTinyStep
    (polls : PollAnswers)
    (positive : Arithmetic.less 0.0 epsilon = true)
    (returned : (run system x epsilon limit polls).ending = .returned result)
    (converged : result.converged = true) :
    Arithmetic.less result.finalError (epsilon * 10.0) = true ∨
      EndsAfterTinyStep system x epsilon limit result := by
  cases Scheme.returns_of_ending returned with
  | @finished iteration state _ early reached turned =>
      rcases finished_of_turn turned with ⟨done, shape⟩ | ⟨_, next, _, _, shape⟩
      · subst result
        cases small : Arithmetic.less (state.measured system).error epsilon with
        | true =>
            exact .inl (Double.less_times_ten positive small)
        | false =>
            exact .inr (endsAfterTinyStep_of_isDone reached done small)
      · subst result
        exact .inl converged
  | exhausted reached =>
      exact .inl (Double.less_times_ten positive converged)

/-- The equations `10²⁰ · x₁² + 1 = 0`, which has no root, and `x₂ = 0`. -/
def steepSystem : ExpressionSystem Float 2 2 :=
  #v[[⟨1e20, .product 0 0⟩, ⟨1.0, .one⟩], [⟨1.0, .single 1⟩]]

/-- Where the method gives up on the steep system. -/
def steepResult : SolveResult Float 2 where
  solution := #v[-7.740954930637745e-17, 0.0]
  iterations := 7
  finalError := 1.0000000000005993
  converged := true
  functionEvaluations := 134
  jacobianEvaluations := 24
  methodUsed := "Newton"

/-- The run on the steep system ends after a tiny step, with a large error. -/
private theorem ending_run_steepSystem :
    (run steepSystem #v[0.0, 0.0] 0.01 100 PollAnswers.never).ending = .returned steepResult := by
  decide +kernel

/-- On the steep system a result far from any root is reported as converged. -/
theorem converged_far_from_root :
    Arithmetic.less (0.0 : Float) 0.01 = true ∧
      (run steepSystem #v[0.0, 0.0] 0.01 100 PollAnswers.never).ending = .returned steepResult ∧
      steepResult.converged = true ∧
      Arithmetic.less steepResult.finalError (0.01 * 10.0) = false :=
  ⟨by decide +kernel, ending_run_steepSystem, rfl, by decide +kernel⟩

/-- The run on the steep system ended for a tiny step. -/
theorem steepSystem_endsAfterTinyStep :
    EndsAfterTinyStep steepSystem #v[0.0, 0.0] 0.01 100 steepResult := by
  have positive : Arithmetic.less (0.0 : Float) 0.01 = true := by
    decide +kernel
  have large : Arithmetic.less steepResult.finalError (0.01 * 10.0) = false := by
    decide +kernel
  rcases finalError_small_or_endsAfterTinyStep PollAnswers.never positive
    ending_run_steepSystem rfl with small | tiny
  · rw [large] at small
    cases small
  · exact tiny

end Newton

end RootFinding
