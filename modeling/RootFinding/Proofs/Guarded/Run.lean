import RootFinding.Cancellation
import RootFinding.Proofs.Guarded.Evaluation

/-!
# Guarded runs

A guarded run takes turns on states of any sizes and stops at the first fault. Where every turn from
the image of a state leads to the image of what the turn of a scheme leads to, a run that is never
cancelled gives the image of the result of the scheme, and meets no fault.
-/

namespace RootFinding

namespace Guarded

/-- A result with the size of its point. -/
abbrev Report (K : Type) : Type :=
  (n : Nat) × SolveResult K n

section Turns

variable {K σ ρ τ π : Type}

/-- Take at most `remaining` turns, the first of them numbered `iteration`. -/
def run
    (turn : Nat → τ → Checked K (Turn τ π))
    (atLimit : τ → Checked K π) :
    (remaining iteration : Nat) → τ → Checked K π
  | 0, _, state => atLimit state
  | remaining + 1, iteration, state => do
      match ← turn iteration state with
      | .finished result => return result
      | .onward next => run turn atLimit remaining (iteration + 1) next

/-- What a turn leads to, seen from elsewhere. -/
def imageOf (embed : σ → τ) (reported : ρ → π) : Turn σ ρ → Turn τ π
  | .onward next => .onward (embed next)
  | .finished result => .finished (reported result)

/-- A run whose turns are images of turns of a scheme ends with the image of its result. -/
theorem run_eq_ok
    {scheme : Scheme K σ ρ}
    {embed : σ → τ}
    {reported : ρ → π}
    {turn : Nat → τ → Checked K (Turn τ π)}
    {atLimit : τ → Checked K π}
    (turn_eq :
      ∀ iteration state,
        turn iteration (embed state) =
          .ok (imageOf embed reported (scheme.turn iteration state).2))
    (atLimit_eq : ∀ state, atLimit (embed state) = .ok (reported (scheme.atLimit state).2))
    {remaining iteration : Nat}
    {state : σ}
    {events : Array (Event K)}
    {result : ρ}
    (returned :
      (scheme.runFrom PollAnswers.never remaining iteration state events).ending =
        .returned result) :
    run turn atLimit remaining iteration (embed state) = .ok (reported result) := by
  -- The induction is on the turns that remain; the state is whatever the turn before led to.
  induction remaining generalizing iteration state events with
  | zero =>
      rw [Scheme.runFrom_at_limit, Ending.returned.injEq] at returned
      subst result
      exact atLimit_eq state
  | succ remaining inductionHypothesis =>
      have poll : PollAnswers.never iteration = false := rfl
      rw [run, turn_eq, ok_bind]
      rcases turned : scheme.turn iteration state with ⟨reported, next | finish⟩
      · rw [Scheme.runFrom_of_onward scheme poll turned] at returned
        exact inductionHypothesis returned
      · rw [Scheme.runFrom_of_finished scheme poll turned, Ending.returned.injEq] at returned
        subst result
        rfl

end Turns

section States

variable {K : Type} [Scalar K] {bound n : Nat}

def report
    (state : LooseState K)
    (iterations : Int)
    (converged : Bool)
    (methodUsed : String) :
    Report K :=
  ⟨state.x.size, state.result iterations converged methodUsed⟩

/-- Measure the residuals and their norm; every entry of the point counts as an evaluation. -/
def evaluated (terms : List (Expression K (Fin bound))) (state : LooseState K) :
    Checked K (LooseState K) := do
  let fx ← residuals terms state.x
  return { state with
    fx
    error := norm fx
    functionEvaluations := state.functionEvaluations + state.x.size }

omit [Scalar K] in
@[simp]
theorem x_loose (state : IterationState K n) : state.loose.x = state.x.toArray :=
  rfl

omit [Scalar K] in
@[simp]
theorem fx_loose (state : IterationState K n) : state.loose.fx = state.fx.toArray :=
  rfl

omit [Scalar K] in
/-- What a loose state reports is the result of the state. -/
theorem report_loose
    (state : IterationState K n)
    (iterations : Int)
    (converged : Bool)
    (methodUsed : String) :
    report state.loose iterations converged methodUsed =
      ⟨n, state.result iterations converged methodUsed⟩ := by
  obtain ⟨⟨x, rfl⟩, fx, dx, error, functionEvaluations, jacobianEvaluations⟩ := state
  rfl

/-- Guarded measuring is measuring. -/
theorem evaluated_loose
    {terms : List (Expression K (Fin bound))}
    {system : ExpressionSystem K n n}
    (areTerms : AreTermsOf terms system)
    (state : IterationState K n) :
    evaluated terms state.loose = .ok (state.measured system).loose := by
  simp only [evaluated, IterationState.loose, residuals_toArray areTerms, ok_bind, norm_toArray,
    Vector.size_toArray]
  rfl

end States

end Guarded

end RootFinding
