import RootFinding.Iteration.Newton
import RootFinding.Proofs.Guarded.Elimination
import RootFinding.Proofs.Guarded.Run

/-!
# Newton's method, guarded

The turns of Newton's method on states of any sizes, step by step as the method takes them. A system
that is given up as singular is caught here and nowhere else; any other fault would end the run.
-/

namespace RootFinding

namespace Guarded

namespace Newton

variable {K : Type} [Scalar K] {bound n : Nat}

section Definitions

variable (terms : List (Expression K (Fin bound)))

def direction (jacobian : Array (Array K)) (fx : Array K) : Checked K (Array K) :=
  match solve jacobian (fx.map fun value => -value) with
  | .ok dx => .ok dx
  | .error (.singular _) => dampedStep fx
  | .error fault => .error fault

/-- Estimate, solve, search and walk from a measured state. -/
def advanced (state : LooseState K) : Checked K (LooseState K) := do
  let jacobian ← jacobian terms state.x state.fx
  let dx ← direction jacobian state.fx
  let lengths := 1.0 :: RootFinding.Newton.shorterLengths
  let choice ← backtrack terms state.x dx state.error lengths
  let x ← walked state.x choice.alpha dx
  return { state with
    x
    dx
    functionEvaluations :=
      state.functionEvaluations + FiniteDifference.evaluations state.x.size +
        state.x.size * choice.trials
    jacobianEvaluations := state.jacobianEvaluations + state.x.size * state.x.size }

def turn (epsilon : K) (iteration : Nat) (state : LooseState K) :
    Checked K (Turn (LooseState K) (Report K)) := do
  let present ← evaluated terms state
  if Arithmetic.less present.error epsilon ||
      (decide (5 < iteration) && Arithmetic.less (norm present.dx) (epsilon * 1e-4)) then
    return .finished (report present (iteration + 1) true Method.newton.label)
  let next ← advanced terms present
  if decide (10 < iteration) && Arithmetic.less (norm next.dx) (epsilon * 1e-3) then
    let last ← evaluated terms next
    let converged := Arithmetic.less last.error (epsilon * 10.0)
    return .finished (report last (iteration + 1) converged Method.newton.label)
  return .onward next

def atLimit (epsilon : K) (limit : Int) (state : LooseState K) : Checked K (Report K) := do
  let last ← evaluated terms state
  return report last limit (Arithmetic.less last.error epsilon) Method.newton.label

/-- Newton's method from `x` for at most `limit` turns. -/
def runFrom (x : Array K) (epsilon : K) (limit : Int) : Checked K (Report K) :=
  run (turn terms epsilon) (atLimit terms epsilon limit) limit.toNat 0 (.atPoint x)

end Definitions

section Safe

variable [SafeDivisors K]
variable {terms : List (Expression K (Fin bound))}
variable {system : ExpressionSystem K n n}

/-- The guarded direction is the direction, in the singular case as well. -/
theorem direction_table
    (iteration : Nat)
    (A : DenseMatrix K n n)
    (fx : Vector K n) :
    direction (table A) fx.toArray =
      .ok (RootFinding.Newton.direction iteration A fx).2.toArray := by
  rw [direction, map_neg_toArray, solve_table, RootFinding.Newton.direction]
  cases solveLinear A (opposite fx) with
  | ok dx => rfl
  | error cause => exact dampedStep_toArray fx

/-- A guarded advance is the advance with its sizes forgotten. -/
theorem advanced_loose
    (areTerms : AreTermsOf terms system)
    (iteration : Nat)
    (state : IterationState K n) :
    advanced terms state.loose =
      .ok (RootFinding.Newton.advanced system iteration state).2.loose := by
  simp only [advanced, IterationState.loose, jacobian_toArray areTerms, ok_bind,
    direction_table iteration, backtrack_toArray areTerms, walked_toArray, Vector.size_toArray]
  rfl

/-- A turn from a sized state is the turn of the method, and meets no fault. -/
theorem turn_loose
    (areTerms : AreTermsOf terms system)
    (epsilon : K)
    (limit : Int)
    (iteration : Nat)
    (state : IterationState K n) :
    turn terms epsilon iteration state.loose =
      .ok (imageOf IterationState.loose (fun result => ⟨n, result⟩)
        ((RootFinding.Newton.scheme system epsilon limit).turn iteration state).2) := by
  have done_eq :
      (Arithmetic.less (state.measured system).loose.error epsilon ||
          (decide (5 < iteration) &&
            Arithmetic.less (norm (state.measured system).loose.dx) (epsilon * 1e-4))) =
        RootFinding.Newton.isDone epsilon iteration (state.measured system) := by
    simp only [IterationState.loose, norm_toArray, RootFinding.Newton.isDone]
  have stalled_eq (next : IterationState K n) :
      (decide (10 < iteration) &&
          Arithmetic.less (norm next.loose.dx) (epsilon * 1e-3)) =
        RootFinding.Newton.isStalled epsilon iteration next := by
    simp only [IterationState.loose, norm_toArray, RootFinding.Newton.isStalled]
  rw [turn, evaluated_loose areTerms, ok_bind]
  simp only [done_eq, advanced_loose areTerms iteration, ok_bind, stalled_eq,
    evaluated_loose areTerms, report_loose, RootFinding.Newton.scheme, RootFinding.Newton.turn]
  split
  · rfl
  · split <;> rfl

omit [SafeDivisors K] in
/-- The report at the limit is the result at the limit. -/
theorem atLimit_loose
    (areTerms : AreTermsOf terms system)
    (epsilon : K)
    (limit : Int)
    (state : IterationState K n) :
    atLimit terms epsilon limit state.loose =
      .ok ⟨n, ((RootFinding.Newton.scheme system epsilon limit).atLimit state).2⟩ := by
  rw [atLimit, evaluated_loose areTerms, ok_bind, report_loose]
  rfl

/-- The guarded run reports the result of the method. -/
theorem runFrom_toArray
    (areTerms : AreTermsOf terms system)
    (x : Vector K n)
    (epsilon : K)
    (limit : Int)
    {result : SolveResult K n}
    (returned :
      (RootFinding.Newton.run system x epsilon limit PollAnswers.never).ending =
        .returned result) :
    runFrom terms x.toArray epsilon limit = .ok ⟨n, result⟩ := by
  rw [runFrom, LooseState.atPoint_toArray]
  exact run_eq_ok (turn_loose areTerms epsilon limit) (atLimit_loose areTerms epsilon limit)
    returned

end Safe

end Newton

end Guarded

end RootFinding
