import RootFinding.Iteration.Newton
import RootFinding.Proofs.Procedure.Evaluation
import RootFinding.Proofs.Procedure.Run

/-!
# Newton's method as a procedure

The turns of Newton's method as procedures, with the same tests and the same choices. A turn that
takes a step measures once, asks for one vector of residuals for each column of the Jacobian and for
each trial of the line search, and notes the step.
-/

namespace RootFinding

namespace Procedure

namespace Newton

open RootFinding.Newton (direction shorterLengths isDone isStalled)

variable {K : Type} [Scalar K] {n : Nat}

/-- Estimate, solve, search and walk from a measured state. -/
def advanced (iteration : Nat) (state : IterationState K n) :
    Procedure K n (List (Event K) × IterationState K n) := do
  let jacobian ← jacobian state.x state.fx
  let aim := direction iteration jacobian state.fx
  let choice ← backtrack state.x aim.2 state.error 1.0 shorterLengths
  remark (.landmark (.walked ⟨state.x, aim.2, choice.alpha⟩))
  let aimed := { state with
    dx := aim.2
    functionEvaluations :=
      state.functionEvaluations + FiniteDifference.evaluations n + n * choice.trials
    jacobianEvaluations := state.jacobianEvaluations + n * n }
  return (aim.1, aimed.walked choice.alpha)

def turn (epsilon : K) (iteration : Nat) (state : IterationState K n) :
    Procedure K n (List (Event K) × Turn (IterationState K n) (SolveResult K n)) := do
  let present ← measured state
  let opening := Event.began .newton iteration present.error
  if isDone epsilon iteration present then
    return ([opening, .converged .newton (iteration + 1) present.error],
      .finished (present.result (iteration + 1) true Method.newton.label))
  else do
    let next ← advanced iteration present
    if isStalled epsilon iteration next.2 then do
      let last ← measured next.2
      let converged := Arithmetic.less last.error (epsilon * 10.0)
      return (opening :: next.1 ++ [.stalled .newton (iteration + 1) last.error converged],
        .finished (last.result (iteration + 1) converged Method.newton.label))
    else return (opening :: next.1, .onward next.2)

def atLimit (epsilon : K) (limit : Int) (state : IterationState K n) :
    Procedure K n (List (Event K) × SolveResult K n) := do
  let last ← measured state
  return ([.exhausted .newton limit last.error],
    last.result limit (Arithmetic.less last.error epsilon) Method.newton.label)

def scheme (epsilon : K) (limit : Int) :
    ProcedureScheme K n (IterationState K n) (SolveResult K n) where
  turn := turn epsilon
  atLimit := atLimit epsilon limit

/-- Newton's method from `x` for at most `limit` turns. -/
def run (x : Vector K n) (epsilon : K) (limit : Int) (polls : PollAnswers) :
    Procedure K n (Run K (SolveResult K n)) :=
  (scheme epsilon limit).runFrom polls limit.toNat 0 (.atPoint x) #[]

variable (system : ExpressionSystem K n n)

/-- The length that is taken from a measured state. -/
def choice (iteration : Nat) (state : IterationState K n) : LineSearch.Choice K :=
  let aim := direction iteration (FiniteDifference.jacobian system state.x state.fx) state.fx
  LineSearch.backtrack system state.x aim.2 state.error 1.0 shorterLengths

/-- The step that is applied from a measured state. -/
def step (iteration : Nat) (state : IterationState K n) : Step K n where
  origin := state.x
  direction :=
    (direction iteration (FiniteDifference.jacobian system state.x state.fx) state.fx).2
  alpha := (choice system iteration state).alpha

theorem value_advanced (iteration : Nat) (state : IterationState K n) :
    (advanced iteration state).value system =
      RootFinding.Newton.advanced system iteration state := by
  simp only [advanced, value_bind, value_pure, value_jacobian, value_backtrack]
  rfl

/-- An advance asks for the difference quotients and for every trial. -/
theorem ledger_advanced (iteration : Nat) (state : IterationState K n) :
    (advanced iteration state).ledger system =
      let trials := (choice system iteration state).trials
      ⟨n * n + n * trials, n + trials, trials, [.walked (step system iteration state)]⟩ := by
  simp only [advanced, ledger_bind, ledger_pure, ledger_remark, ledger_jacobian, value_jacobian,
    ledger_backtrack, value_backtrack, Ledger.append_blank]
  ext1 <;> simp [Ledger.ofRemark, choice, step]

section Turns

variable {system : ExpressionSystem K n n}
variable {epsilon : K}
variable {iteration : Nat}
variable {state : IterationState K n}

theorem value_turn (epsilon : K) (iteration : Nat) (state : IterationState K n) :
    (turn epsilon iteration state).value system =
      RootFinding.Newton.turn system epsilon iteration state := by
  simp only [turn, value_bind, value_measured, RootFinding.Newton.turn]
  split
  · rfl
  · simp only [value_bind, value_advanced]
    split
    · simp only [value_bind, value_measured]
      rfl
    · rfl

/-- A turn that is done has only measured. -/
theorem ledger_turn_of_done
    (done : isDone epsilon iteration (state.measured system) = true) :
    (turn epsilon iteration state).ledger system = (measured state).ledger system := by
  simp only [turn, ledger_bind, value_measured, done, ↓reduceIte, ledger_pure,
    Ledger.append_blank]

/-- A turn that goes on measures and advances. -/
theorem ledger_turn_of_onward
    (notDone : isDone epsilon iteration (state.measured system) = false)
    (notStalled :
      isStalled epsilon iteration
        (RootFinding.Newton.advanced system iteration (state.measured system)).2 = false) :
    (turn epsilon iteration state).ledger system =
      (measured state).ledger system ++
        (advanced iteration (state.measured system)).ledger system := by
  simp only [turn, ledger_bind, value_measured, notDone, Bool.false_eq_true, ↓reduceIte,
    value_advanced, notStalled, ledger_pure, Ledger.append_blank]

/-- A turn that stalls measures once more after its step. -/
theorem ledger_turn_of_stalled
    (notDone : isDone epsilon iteration (state.measured system) = false)
    (stalled :
      isStalled epsilon iteration
        (RootFinding.Newton.advanced system iteration (state.measured system)).2 = true) :
    (turn epsilon iteration state).ledger system =
      (measured state).ledger system ++
        ((advanced iteration (state.measured system)).ledger system ++
          (measured
            (RootFinding.Newton.advanced system iteration (state.measured system)).2).ledger
            system) := by
  simp only [turn, ledger_bind, value_measured, notDone, Bool.false_eq_true, ↓reduceIte,
    value_advanced, stalled, ledger_pure, Ledger.append_blank]

/-- The report at the limit measures once more. -/
theorem ledger_atLimit (limit : Int) :
    (atLimit epsilon limit state).ledger system = (measured state).ledger system := by
  simp only [atLimit, ledger_bind, ledger_pure, Ledger.append_blank]

end Turns

/-- The procedures of Newton's method compute its turns and its report. -/
theorem performs (epsilon : K) (limit : Int) :
    (scheme epsilon limit).Performs (RootFinding.Newton.scheme system epsilon limit) system where
  value_turn := value_turn epsilon
  value_atLimit state := by
    simp only [scheme, atLimit, value_bind, value_pure, value_measured]
    rfl

/-- The method as a procedure comes to the run of the method. -/
theorem value_run (x : Vector K n) (epsilon : K) (limit : Int) (polls : PollAnswers) :
    (run x epsilon limit polls).value system =
      RootFinding.Newton.run system x epsilon limit polls :=
  (performs system epsilon limit).value_runFrom polls limit.toNat 0 (.atPoint x) #[]

end Newton

end Procedure

end RootFinding
