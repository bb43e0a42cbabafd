import RootFinding.Proofs.Double.Order
import RootFinding.Proofs.Iteration.Count

/-!
# What the end of a run says

A run ends in one of three ways. It is done before a turn, because the error is below the tolerance
or, in Newton's method, because the turn before made a tiny step; it gives up after a turn that
hardly moved; or it reaches its limit. Each of them ties the verdict to the error and to the number
of turns in its own way, and what holds of all results is what the three have in common. None of it
asks whether the error is a number: a test that an undefined error fails counts as failed.
-/

namespace RootFinding

/-- The fewest turns after which a run gives up before its limit. -/
def Method.earliestFailure : Method → Int
  | .newton => 12
  | .secant => 7

/-- The fewest turns after which a run is done although its error is not below the tolerance. -/
def earliestLenience : Int := 7

/-- No method gives up before it may be lenient. -/
theorem Method.earliestLenience_le (method : Method) :
    earliestLenience ≤ method.earliestFailure := by
  cases method <;> decide

/-- How the verdict of a result goes with its error and with its number of turns. -/
structure SolveResult.IsClassified
    {n : Nat}
    (result : SolveResult Float n)
    (method : Method)
    (epsilon : Float)
    (limit : Int) :
    Prop where
  converged_of_small :
    Arithmetic.less result.finalError epsilon = true → result.converged = true
  late_of_lenient :
    result.converged = true →
    Arithmetic.less result.finalError epsilon = false →
    earliestLenience ≤ result.iterations
  small_of_converged :
    method = .secant →
    result.converged = true →
    Arithmetic.less result.finalError (epsilon * 10.0) = true
  late_of_failed :
    result.converged = false →
    result.iterations < limit →
    method.earliestFailure ≤ result.iterations ∧
      Arithmetic.less result.finalError (epsilon * 10.0) = false

namespace SolveResult.IsClassified

variable {n : Nat}
variable {result : SolveResult Float n}
variable {method : Method}
variable {epsilon : Float}
variable {limit : Int}

/-- A run that is done before a turn has a small error, or is late and not one of the secant. -/
theorem of_done
    (positive : Arithmetic.less 0.0 epsilon = true)
    (converged : result.converged = true)
    (done :
      Arithmetic.less result.finalError epsilon = true ∨
        method = .newton ∧ earliestLenience ≤ result.iterations) :
    result.IsClassified method epsilon limit where
  converged_of_small _ := converged
  late_of_lenient _ large := by
    rcases done with small | ⟨_, late⟩
    · rw [large] at small
      cases small
    · exact late
  small_of_converged isSecant _ := by
    rcases done with small | ⟨isNewton, _⟩
    · exact Double.less_times_ten positive small
    · rw [isSecant] at isNewton
      cases isNewton
  late_of_failed failed _ := by
    rw [converged] at failed
    cases failed

/-- A run that gives up after a turn compares its error with ten times the tolerance. -/
theorem of_stalled
    (positive : Arithmetic.less 0.0 epsilon = true)
    (late : method.earliestFailure ≤ result.iterations)
    (verdict : result.converged = Arithmetic.less result.finalError (epsilon * 10.0)) :
    result.IsClassified method epsilon limit where
  converged_of_small small := by
    rw [verdict]
    exact Double.less_times_ten positive small
  late_of_lenient _ _ := method.earliestLenience_le.trans late
  small_of_converged _ converged := verdict.symm.trans converged
  late_of_failed failed _ := ⟨late, verdict.symm.trans failed⟩

/-- A run at its limit compares its error with the tolerance itself. -/
theorem of_exhausted
    (positive : Arithmetic.less 0.0 epsilon = true)
    (atLimit : result.iterations = limit)
    (verdict : result.converged = Arithmetic.less result.finalError epsilon) :
    result.IsClassified method epsilon limit where
  converged_of_small small := verdict.trans small
  late_of_lenient converged large := by
    rw [verdict, large] at converged
    cases converged
  small_of_converged _ converged :=
    Double.less_times_ten positive (verdict.symm.trans converged)
  late_of_failed _ early := by
    rw [atLimit] at early
    exact absurd early (Int.lt_irrefl limit)

end SolveResult.IsClassified

section Returning

variable {n : Nat}
variable {system : ExpressionSystem Float n n}
variable {epsilon : Float}
variable {limit : Int}
variable {turns : Nat}
variable {result : SolveResult Float n}

/-- Whatever way out Newton's method takes, its result is classified. -/
theorem Newton.isClassified_of_returns
    {start : IterationState Float n}
    (positive : Arithmetic.less 0.0 epsilon = true)
    (returned : (scheme system epsilon limit).Returns start turns result) :
    result.IsClassified .newton epsilon limit := by
  cases returned with
  | @finished iteration state _ _ _ turned =>
      rcases finished_of_turn turned with ⟨done, rfl⟩ | ⟨_, next, _, stalled, rfl⟩
      · apply SolveResult.IsClassified.of_done positive rfl
        simp only [isDone, Bool.or_eq_true, Bool.and_eq_true, decide_eq_true_eq] at done
        rcases done with small | ⟨late, _⟩
        · exact .inl small
        · refine .inr ⟨rfl, ?_⟩
          change (7 : Int) ≤ iteration + 1
          omega
      · simp only [isStalled, Bool.and_eq_true, decide_eq_true_eq] at stalled
        apply SolveResult.IsClassified.of_stalled positive _ rfl
        change (12 : Int) ≤ iteration + 1
        omega
  | exhausted _ =>
      exact .of_exhausted positive rfl rfl

/-- Whatever way out the secant method takes, its result is classified. -/
theorem Secant.isClassified_of_returns
    {start : SecantState Float n}
    (positive : Arithmetic.less 0.0 epsilon = true)
    (returned : (scheme system epsilon limit).Returns start turns result) :
    result.IsClassified .secant epsilon limit := by
  cases returned with
  | @finished iteration state _ _ _ turned =>
      rcases finished_of_turn turned with ⟨small, rfl⟩ | ⟨_, next, _, stuck, rfl⟩
      · exact .of_done positive rfl (.inl small)
      · simp only [isStuck, Bool.and_eq_true, decide_eq_true_eq] at stuck
        apply SolveResult.IsClassified.of_stalled positive _ rfl
        change (7 : Int) ≤ iteration + 1
        omega
  | exhausted _ =>
      exact .of_exhausted positive rfl rfl

end Returning

/--
An error below the tolerance is always reported as converged, and any other error only after seven
turns. The secant method never calls an error of ten times the tolerance converged; and a run that
gives up before its limit has such an error and has taken seven turns, or twelve with Newton's
method.
-/
theorem result_isClassified
    {n : Nat}
    (method : Method)
    (system : ExpressionSystem Float n n)
    (x : Vector Float n)
    {epsilon : Float}
    (positive : Arithmetic.less 0.0 epsilon = true)
    (limit : Int)
    (polls : PollAnswers)
    {result : SolveResult Float n}
    (returned : (method.run system x epsilon limit polls).ending = .returned result) :
    result.IsClassified method epsilon limit := by
  cases method with
  | newton =>
      exact Newton.isClassified_of_returns positive (Scheme.returns_of_ending returned)
  | secant =>
      exact Secant.isClassified_of_returns positive (Scheme.returns_of_ending returned)

/-- On an equation without a root each method may give up as early as it ever does. -/
theorem constant_isClassified :
    let system (constant : Float) : ExpressionSystem Float 1 1 := #v[[⟨constant, .one⟩]]
    let hopeless : Method → Float × Float
      | .newton => (200.0, 10.0)
      | .secant => (10000.0, 700.0)
    ∀ method : Method,
      let (constant, epsilon) := hopeless method
      ∃ result,
        (method.run (system constant) #v[0.0] epsilon 100 .never).ending = .returned result ∧
          result.converged = false ∧
          result.iterations = method.earliestFailure ∧
          result.IsClassified method epsilon 100 := by
  intro system hopeless method
  have positive : Arithmetic.less 0.0 (hopeless method).2 = true := by
    cases method <;> decide +kernel
  have failed :
      (method.run (system (hopeless method).1) #v[0.0] (hopeless method).2 100 .never).ending.passes
        (fun result =>
          !result.converged && decide (result.iterations = method.earliestFailure)) = true := by
    cases method <;> decide +kernel
  obtain ⟨result, returned, verdict⟩ := Ending.exists_of_passes failed
  rw [Bool.and_eq_true, Bool.not_eq_true', decide_eq_true_eq] at verdict
  exact ⟨result, returned, verdict.1, verdict.2,
    result_isClassified method _ _ positive 100 .never returned⟩

end RootFinding
