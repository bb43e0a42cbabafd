import RootFinding.Iteration.Secant
import RootFinding.Proofs.Procedure.Evaluation
import RootFinding.Proofs.Procedure.Run

/-!
# The secant method as a procedure

The turns of the secant method as procedures. Its matrix is corrected without any question, so a
turn that takes a step asks for the residuals of each trial and measures once after the step, and
once before it where the run restarts.
-/

namespace RootFinding

namespace Procedure

namespace Secant

open RootFinding.Secant (secondPoint shorterLengths stallLimit isStalled isStuck direction
  displacement)

variable {K : Type} [Scalar K] {n : Nat}

/-- Measure both points of the first pair. -/
def start (x : Vector K n) : Procedure K n (List (Event K) × SecantState K n) := do
  let previous := secondPoint x
  let there ← measured (.atPoint x)
  let fxPrevious ← residuals previous
  let present := there.charged n
  let update := SecantUpdate.between (.identity n) x previous present.fx fxPrevious
  return (update.events,
    { present with
      matrix := update.apply (.identity n)
      previous
      fxPrevious
      previousError := present.error
      stalls := 0 })

/-- Count a stalled turn, restart after too many of them, and remember the error. -/
def settled (epsilon : K) (iteration : Nat) (state : SecantState K n) :
    Procedure K n (List (Event K) × SecantState K n) := do
  if isStalled epsilon state then
    if stallLimit < state.stalls + 1 then do
      let halfway := { state.toIterationState with x := midpoint state.x state.previous }
      remark (.landmark (.restarted halfway.x))
      let there ← measured halfway
      return ([.restarted iteration],
        { state with
          toIterationState := there
          previousError := state.error
          stalls := 0 })
    else return ([], { state with previousError := state.error, stalls := state.stalls + 1 })
  else return ([], { state with previousError := state.error, stalls := 0 })

/-- Solve, search, walk, measure, and learn from the displacement. -/
def advanced (epsilon : K) (iteration : Nat) (state : SecantState K n) :
    Procedure K n (List (Event K) × SecantState K n) := do
  let aim := direction iteration state
  let choice ←
    backtrack state.x aim.2.1 (euclideanNorm state.fx) 1.0 shorterLengths
  remark (.landmark (.walked ⟨state.x, aim.2.1, choice.alpha⟩))
  let aimed := { state.toIterationState with dx := aim.2.1 }.charged (n * choice.trials)
  let arrived ← measured (aimed.walked choice.alpha)
  let next : SecantState K n :=
    { state with
      toIterationState := arrived
      matrix := aim.2.2
      previous := state.x
      fxPrevious := state.fx }
  if Arithmetic.less (epsilon * 1e-2) (displacement next) then
    let update := SecantUpdate.between aim.2.2 next.x next.previous next.fx next.fxPrevious
    return (aim.1 ++ update.events, { next with matrix := update.apply aim.2.2 })
  else return (aim.1, next)

def turn (epsilon : K) (iteration : Nat) (state : SecantState K n) :
    Procedure K n (List (Event K) × Turn (SecantState K n) (SolveResult K n)) := do
  let opening := Event.began .secant iteration state.error
  if Arithmetic.less state.error epsilon then
    return ([opening, .converged .secant (iteration + 1) state.error],
      .finished (state.result (iteration + 1) true Method.secant.label))
  else do
    let ready ← settled epsilon iteration state
    let next ← advanced epsilon iteration ready.2
    if isStuck epsilon iteration next.2 then
      let converged := Arithmetic.less next.2.error (epsilon * 10.0)
      return (opening :: ready.1 ++ next.1 ++
          [.stalled .secant (iteration + 1) next.2.error converged],
        .finished (next.2.result (iteration + 1) converged Method.secant.label))
    else return (opening :: ready.1 ++ next.1, .onward next.2)

def scheme (epsilon : K) (limit : Int) :
    ProcedureScheme K n (SecantState K n) (SolveResult K n) where
  turn := turn epsilon
  atLimit state := return RootFinding.Secant.atLimit epsilon limit state

/-- The secant method from `x` for at most `limit` turns. -/
def run (x : Vector K n) (epsilon : K) (limit : Int) (polls : PollAnswers) :
    Procedure K n (Run K (SolveResult K n)) := do
  let first ← start x
  (scheme epsilon limit).runFrom polls limit.toNat 0 first.2 first.1.toArray

variable (system : ExpressionSystem K n n)

@[simp]
theorem value_start (x : Vector K n) :
    (start x).value system = RootFinding.Secant.start system x := by
  simp only [start, value_bind, value_pure, value_measured, value_residuals]
  rfl

/-- The start asks for the residuals at two points. -/
theorem ledger_start (x : Vector K n) :
    (start x).ledger system =
      ⟨n + n, 2, 0, [.measured x (euclideanNorm (RootFinding.residuals system x))]⟩ := by
  simp only [start, ledger_bind, ledger_pure, ledger_measured, ledger_residuals,
    Ledger.append_blank]
  ext1 <;> simp [IterationState.atPoint]

/-- The length that is taken from a state that was settled. -/
def choice (iteration : Nat) (state : SecantState K n) : LineSearch.Choice K :=
  LineSearch.backtrack system state.x (direction iteration state).2.1 (euclideanNorm state.fx) 1.0
    shorterLengths

/-- The step that is applied from a state that was settled. -/
def step (iteration : Nat) (state : SecantState K n) : Step K n where
  origin := state.x
  direction := (direction iteration state).2.1
  alpha := (choice system iteration state).alpha

/-- The procedure of a decision about a restart computes the decision. -/
theorem value_settled (epsilon : K) (iteration : Nat) (state : SecantState K n) :
    (settled epsilon iteration state).value system =
      RootFinding.Secant.settled system epsilon iteration state := by
  unfold settled RootFinding.Secant.settled
  split
  · split
    · simp only [value_bind, value_pure, value_measured]
    · rfl
  · rfl

/-- The run is set back to half way between its last two points. -/
def restarts (epsilon : K) (state : SecantState K n) : Bool :=
  isStalled epsilon state && decide (stallLimit < state.stalls + 1)

/-- A restart asks for the residuals at the midpoint. -/
theorem ledger_settled_of_restarts
    {epsilon : K}
    {state : SecantState K n}
    (restarted : restarts epsilon state = true)
    (iteration : Nat) :
    (settled epsilon iteration state).ledger system =
      let halfway := midpoint state.x state.previous
      ⟨n, 1, 0,
        [.restarted halfway,
          .measured halfway (euclideanNorm (RootFinding.residuals system halfway))]⟩ := by
  simp only [restarts, Bool.and_eq_true, decide_eq_true_eq] at restarted
  simp only [settled, restarted.1, restarted.2, ↓reduceIte, ledger_bind, ledger_pure,
    ledger_remark, ledger_measured, Ledger.append_blank]
  ext1 <;> simp [Ledger.ofRemark]

theorem ledger_settled_of_not_restarts
    {epsilon : K}
    {state : SecantState K n}
    (kept : restarts epsilon state = false)
    (iteration : Nat) :
    (settled epsilon iteration state).ledger system = .blank := by
  simp only [restarts, Bool.and_eq_false_iff, decide_eq_false_iff_not] at kept
  unfold settled
  rcases kept with moving | few
  · simp only [moving, Bool.false_eq_true, ↓reduceIte, ledger_pure]
  · rw [if_neg few]
    split <;> simp only [ledger_pure]

/-- A restart measures half way between the last two points. -/
theorem toIterationState_settled_of_restarts
    {epsilon : K}
    {state : SecantState K n}
    (restarted : restarts epsilon state = true)
    (iteration : Nat) :
    (RootFinding.Secant.settled system epsilon iteration state).2.toIterationState =
      { state.toIterationState with x := midpoint state.x state.previous }.measured system := by
  simp only [restarts, Bool.and_eq_true, decide_eq_true_eq] at restarted
  simp only [RootFinding.Secant.settled, restarted.1, restarted.2, ↓reduceIte]

theorem toIterationState_settled_of_not_restarts
    {epsilon : K}
    {state : SecantState K n}
    (kept : restarts epsilon state = false)
    (iteration : Nat) :
    (RootFinding.Secant.settled system epsilon iteration state).2.toIterationState =
      state.toIterationState := by
  simp only [restarts, Bool.and_eq_false_iff, decide_eq_false_iff_not] at kept
  unfold RootFinding.Secant.settled
  rcases kept with moving | few
  · simp only [moving, Bool.false_eq_true, ↓reduceIte]
  · rw [if_neg few]
    split <;> rfl

theorem value_advanced (epsilon : K) (iteration : Nat) (state : SecantState K n) :
    (advanced epsilon iteration state).value system =
      RootFinding.Secant.advanced system epsilon iteration state := by
  simp only [advanced, value_bind, value_backtrack, value_measured, RootFinding.Secant.advanced]
  split <;> rfl

/-- An advance asks for every trial and for the residuals where it arrives. -/
theorem ledger_advanced (epsilon : K) (iteration : Nat) (state : SecantState K n) :
    (advanced epsilon iteration state).ledger system =
      let trials := (choice system iteration state).trials
      let step := step system iteration state
      ⟨n * trials + n, trials + 1, trials,
        [.walked step,
          .measured step.target (euclideanNorm (RootFinding.residuals system step.target))]⟩ := by
  simp only [advanced, ledger_bind, ledger_remark, ledger_backtrack, value_backtrack,
    ledger_measured]
  split <;>
    · rw [ledger_pure, Ledger.append_blank]
      ext1
      · simp [Ledger.ofRemark, choice]
      · simp [Ledger.ofRemark, choice]
      · simp [Ledger.ofRemark, choice]
      · rfl

theorem value_turn (epsilon : K) (iteration : Nat) (state : SecantState K n) :
    (turn epsilon iteration state).value system =
      RootFinding.Secant.turn system epsilon iteration state := by
  unfold turn RootFinding.Secant.turn
  split
  · rfl
  · simp only [value_bind, value_settled, value_advanced]
    split <;> rfl

/-- A turn that finds a small error asks for nothing. -/
theorem ledger_turn_of_small
    {epsilon : K}
    {state : SecantState K n}
    (small : Arithmetic.less state.error epsilon = true)
    (iteration : Nat) :
    (turn epsilon iteration state).ledger system = .blank := by
  simp only [turn, small, ↓reduceIte, ledger_pure]

/-- A turn with a large error decides about a restart and advances. -/
theorem ledger_turn_of_large
    {epsilon : K}
    {state : SecantState K n}
    (large : Arithmetic.less state.error epsilon = false)
    (iteration : Nat) :
    (turn epsilon iteration state).ledger system =
      (settled epsilon iteration state).ledger system ++
        (advanced epsilon iteration
          (RootFinding.Secant.settled system epsilon iteration state).2).ledger system := by
  simp only [turn, large, Bool.false_eq_true, ↓reduceIte, ledger_bind, value_settled]
  split <;> simp only [ledger_pure, Ledger.append_blank]

/-- The procedures of the secant method compute its turns and its report. -/
theorem performs (epsilon : K) (limit : Int) :
    (scheme epsilon limit).Performs (RootFinding.Secant.scheme system epsilon limit) system where
  value_turn := value_turn system epsilon
  value_atLimit _ := rfl

/-- The method as a procedure comes to the run of the method. -/
theorem value_run (x : Vector K n) (epsilon : K) (limit : Int) (polls : PollAnswers) :
    (run x epsilon limit polls).value system =
      RootFinding.Secant.run system x epsilon limit polls := by
  simp only [run, value_bind, value_start, (performs system epsilon limit).value_runFrom]
  rfl

/-- A run measures its first pair of points and then takes its turns. -/
theorem ledger_run (x : Vector K n) (epsilon : K) (limit : Int) (polls : PollAnswers) :
    (run x epsilon limit polls).ledger system =
      (start x).ledger system ++
        ((scheme epsilon limit).runFrom polls limit.toNat 0
          (RootFinding.Secant.start system x).2
          (RootFinding.Secant.start system x).1.toArray).ledger system := by
  rw [run, ledger_bind, value_start]

end Secant

end Procedure

end RootFinding
