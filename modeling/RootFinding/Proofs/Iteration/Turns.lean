import RootFinding.Iteration.Newton
import RootFinding.Iteration.Secant
import RootFinding.Proofs.Iteration.Reachability

/-!
# What one turn can do

A turn of either method ends in one of three ways: it finishes with the state it found, it finishes
with the state it stepped to, or it goes on from there. Each way is stated once here, with every
test that the turn made; proofs about runs take turns apart by these lemmas alone.
-/

namespace RootFinding

variable {K : Type} [Scalar K] {n : Nat}

namespace Newton

variable {system : ExpressionSystem K n n}
variable {epsilon : K}
variable {iteration : Nat}
variable {state : IterationState K n}

/-- A turn that measures a small error finishes there. -/
theorem turn_of_small
    (iteration : Nat)
    (small : Arithmetic.less (euclideanNorm (residuals system state.x)) epsilon = true) :
    (turn system epsilon iteration state).2 =
      .finished ((state.measured system).result (iteration + 1) true Method.newton.label) := by
  have done : isDone epsilon iteration (state.measured system) = true :=
    Bool.or_eq_true_iff.mpr (.inl small)
  simp only [turn, done, if_true]

/-- A turn that goes on was not done and does not stall after its step. -/
theorem onward_of_turn
    {next : IterationState K n}
    (turned : (turn system epsilon iteration state).2 = .onward next) :
    isDone epsilon iteration (state.measured system) = false ∧
      next = (advanced system iteration (state.measured system)).2 ∧
      isStalled epsilon iteration next = false := by
  cases done : isDone epsilon iteration (state.measured system) with
  | true =>
      simp [turn, done] at turned
  | false =>
      cases stalled :
          isStalled epsilon iteration
            (advanced system iteration (state.measured system)).2 with
      | true =>
          simp [turn, done, stalled] at turned
      | false =>
          simp only [turn, done, stalled, Bool.false_eq_true, ↓reduceIte,
            Turn.onward.injEq] at turned
          subst next
          exact ⟨rfl, rfl, stalled⟩

/-- A turn finishes where it measured, or stalls after its step and measures again. -/
theorem finished_of_turn
    {result : SolveResult K n}
    (turned : (turn system epsilon iteration state).2 = .finished result) :
    (isDone epsilon iteration (state.measured system) = true ∧
        result =
          (state.measured system).result (iteration + 1) true Method.newton.label) ∨
      (isDone epsilon iteration (state.measured system) = false ∧
        ∃ next,
          next = (advanced system iteration (state.measured system)).2 ∧
            isStalled epsilon iteration next = true ∧
            result =
              (next.measured system).result (iteration + 1)
                (Arithmetic.less (next.measured system).error (epsilon * 10.0))
                Method.newton.label) := by
  cases done : isDone epsilon iteration (state.measured system) with
  | true =>
      simp only [turn, done, ↓reduceIte, Turn.finished.injEq] at turned
      exact Or.inl ⟨rfl, turned.symm⟩
  | false =>
      cases stalled :
          isStalled epsilon iteration
            (advanced system iteration (state.measured system)).2 with
      | true =>
          simp only [turn, done, stalled, Bool.false_eq_true, ↓reduceIte,
            Turn.finished.injEq] at turned
          exact Or.inr ⟨rfl, _, rfl, stalled, turned.symm⟩
      | false =>
          simp [turn, done, stalled] at turned

end Newton

namespace Secant

variable {system : ExpressionSystem K n n}
variable {epsilon : K}
variable {iteration : Nat}
variable {state : SecantState K n}

/-- A turn that finds a small error finishes with it. -/
theorem turn_of_small
    (iteration : Nat)
    (small : Arithmetic.less state.error epsilon = true) :
    (turn system epsilon iteration state).2 =
      .finished (state.result (iteration + 1) true Method.secant.label) := by
  simp only [turn, small, if_true]

/-- The state to which a turn that does not converge at once steps. -/
def stepped
    (system : ExpressionSystem K n n)
    (epsilon : K)
    (iteration : Nat)
    (state : SecantState K n) :
    SecantState K n :=
  (advanced system epsilon iteration (settled system epsilon iteration state).2).2

/-- A turn that goes on found a large error and does not get stuck after its step. -/
theorem onward_of_turn
    {next : SecantState K n}
    (turned : (turn system epsilon iteration state).2 = .onward next) :
    Arithmetic.less state.error epsilon = false ∧
      next = stepped system epsilon iteration state ∧
      isStuck epsilon iteration next = false := by
  cases small : Arithmetic.less state.error epsilon with
  | true =>
      simp [turn, small] at turned
  | false =>
      cases stuck : isStuck epsilon iteration (stepped system epsilon iteration state) with
      | true =>
          rw [stepped] at stuck
          simp [turn, small, stuck] at turned
      | false =>
          rw [stepped] at stuck
          simp only [turn, small, stuck, Bool.false_eq_true, ↓reduceIte,
            Turn.onward.injEq] at turned
          subst next
          exact ⟨rfl, rfl, stuck⟩

/-- A turn finishes where it found a small error, or gets stuck after its step. -/
theorem finished_of_turn
    {result : SolveResult K n}
    (turned : (turn system epsilon iteration state).2 = .finished result) :
    (Arithmetic.less state.error epsilon = true ∧
        result = state.result (iteration + 1) true Method.secant.label) ∨
      (Arithmetic.less state.error epsilon = false ∧
        ∃ next,
          next = stepped system epsilon iteration state ∧
            isStuck epsilon iteration next = true ∧
            result =
              next.result (iteration + 1)
                (Arithmetic.less next.error (epsilon * 10.0)) Method.secant.label) := by
  cases small : Arithmetic.less state.error epsilon with
  | true =>
      simp only [turn, small, ↓reduceIte, Turn.finished.injEq] at turned
      exact Or.inl ⟨rfl, turned.symm⟩
  | false =>
      cases stuck : isStuck epsilon iteration (stepped system epsilon iteration state) with
      | true =>
          rw [stepped] at stuck
          simp only [turn, small, stuck, Bool.false_eq_true, ↓reduceIte,
            Turn.finished.injEq] at turned
          exact Or.inr ⟨rfl, _, rfl, stuck, turned.symm⟩
      | false =>
          rw [stepped] at stuck
          simp [turn, small, stuck] at turned

end Secant

end RootFinding
