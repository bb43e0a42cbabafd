import RootFinding.Proofs.Iteration.Turns
import RootFinding.Solve

/-!
# What a result says of its run

A result carries the name of the method that ran and the number of the turn that finished, or the
limit where no turn did. A run that nobody cancels comes to a result.
-/

namespace RootFinding

/-- The run came to a result, and the result passes a test. -/
def Ending.passes {ρ : Type} (ending : Ending ρ) (test : ρ → Bool) : Bool :=
  match ending with
  | .returned result => test result
  | .cancelled => false

/-- An ending that passes a test is a result that passes it. -/
theorem Ending.exists_of_passes
    {ρ : Type}
    {ending : Ending ρ}
    {test : ρ → Bool}
    (passed : ending.passes test = true) :
    ∃ result, ending = .returned result ∧ test result = true := by
  cases ending with
  | returned result => exact ⟨result, rfl, passed⟩
  | cancelled => cases passed

variable {K : Type} {n : Nat}

/-- A result of a method that took at least one turn and at most `limit`. -/
structure SolveResult.IsOf
    (result : SolveResult K n)
    (method : Method)
    (limit : Nat) :
    Prop where
  methodUsed_eq : result.methodUsed = method.label
  one_le_iterations : 1 ≤ result.iterations
  iterations_le : result.iterations ≤ limit

/-- A result from within the limit counts its turn. -/
theorem IterationState.isOf_result
    (state : IterationState K n)
    {iteration limit : Nat}
    (early : iteration < limit)
    (converged : Bool)
    (method : Method) :
    (state.result (iteration + 1) converged method.label).IsOf method limit where
  methodUsed_eq := rfl
  one_le_iterations := by
    change (1 : Int) ≤ iteration + 1
    omega
  iterations_le := by
    change (iteration + 1 : Int) ≤ limit
    omega

/-- A result at the limit counts all turns. -/
theorem IterationState.isOf_result_limit
    (state : IterationState K n)
    {limit : Nat}
    (positive : 0 < limit)
    (converged : Bool)
    (method : Method) :
    (state.result limit converged method.label).IsOf method limit where
  methodUsed_eq := rfl
  one_le_iterations := by
    change (1 : Int) ≤ limit
    omega
  iterations_le := Int.le_refl limit

section Returning

variable [Scalar K]
variable {system : ExpressionSystem K n n}
variable {epsilon : K}
variable {limit : Nat}
variable {result : SolveResult K n}

theorem Newton.isOf_of_returns
    {start : IterationState K n}
    (positive : 0 < limit)
    (returned : (scheme system epsilon limit).Returns start limit result) :
    result.IsOf .newton limit := by
  cases returned with
  | finished early _ turned =>
      rcases finished_of_turn turned with ⟨_, shape⟩ | ⟨_, next, _, _, shape⟩
      · subst result
        exact IterationState.isOf_result _ early _ .newton
      · subst result
        exact IterationState.isOf_result _ early _ .newton
  | exhausted _ =>
      exact IterationState.isOf_result_limit _ positive _ .newton

theorem Secant.isOf_of_returns
    {start : SecantState K n}
    (positive : 0 < limit)
    (returned : (scheme system epsilon limit).Returns start limit result) :
    result.IsOf .secant limit := by
  cases returned with
  | finished early _ turned =>
      rcases finished_of_turn turned with ⟨_, shape⟩ | ⟨_, next, _, _, shape⟩
      · subst result
        exact IterationState.isOf_result _ early _ .secant
      · subst result
        exact IterationState.isOf_result _ early _ .secant
  | exhausted _ =>
      exact IterationState.isOf_result_limit _ positive _ .secant

/-- What a method returns is marked as its own and counts at least one turn. -/
theorem Method.isOf_of_returned
    {method : Method}
    {x : Vector K n}
    {polls : PollAnswers}
    (positive : 0 < limit)
    (returned : (method.run system x epsilon limit polls).ending = .returned result) :
    result.IsOf method limit := by
  cases method with
  | newton =>
      exact Newton.isOf_of_returns positive (Scheme.returns_of_ending returned)
  | secant =>
      exact Secant.isOf_of_returns positive (Scheme.returns_of_ending returned)

/-- A run that nobody cancels comes to a result. -/
theorem Method.exists_returned
    (method : Method)
    (system : ExpressionSystem K n n)
    (x : Vector K n)
    (epsilon : K)
    (limit : Int) :
    ∃ result,
      (method.run system x epsilon limit PollAnswers.never).ending = .returned result := by
  cases method with
  | newton =>
      exact Scheme.exists_returned_of_uncancelled _ (fun _ => rfl) _ _ _ _
  | secant =>
      exact Scheme.exists_returned_of_uncancelled _ (fun _ => rfl) _ _ _ _

end Returning

end RootFinding
