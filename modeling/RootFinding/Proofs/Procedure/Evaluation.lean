import RootFinding.FiniteDifference
import RootFinding.Iteration.State
import RootFinding.LineSearch
import RootFinding.Proofs.Procedure.Basic

/-!
# Procedures that evaluate

Residuals, measurements, estimates of the Jacobian and line searches as procedures. Each of them
comes to what the function of the same name comes to, and its ledger says what that cost: `n`
questions for each vector of residuals.
-/

namespace RootFinding

namespace Procedure

variable {K : Type} {n : Nat}

section Arithmetic

variable [Arithmetic K]

/-- The values of all expressions at a point. -/
def residuals (x : Vector K n) : Procedure K n (Vector K n) := do
  let fx ← forEach n fun i => valueOf i x
  remark .vector
  return fx

/-- The Jacobian from the residuals at `x` and at one point for each column. -/
def jacobian (x fx : Vector K n) : Procedure K n (DenseMatrix K n n) := do
  let shifted : DenseMatrix K n n ← forEach n fun j => residuals (FiniteDifference.forward x j)
  let steps := x.map FiniteDifference.stepSize
  return Vector.ofFn fun i => Vector.ofFn fun j => (shifted.entry j i - fx.get i) / steps.get j

variable (system : ExpressionSystem K n n)

/-- Asking for all entries gives the residuals. -/
@[simp]
theorem value_residuals (x : Vector K n) :
    value system (residuals x) = RootFinding.residuals system x := by
  simp only [residuals, value_bind, value_pure, value_forEach, value_valueOf]
  ext i inside
  simp [Vector.get]

/-- The residuals take one question for each equation. -/
@[simp]
theorem ledger_residuals (x : Vector K n) :
    ledger system (residuals x) = ⟨n, 1, 0, []⟩ := by
  have calls := ledger_forEach system fun i => ledger_valueOf system i x
  simp only [residuals, ledger_bind, ledger_pure, ledger_remark, Ledger.append_blank, calls]
  ext1 <;> simp [Ledger.ofRemark]

/-- Asking for the residuals at every stepped point gives the difference quotients. -/
@[simp]
theorem value_jacobian (x fx : Vector K n) :
    value system (jacobian x fx) = FiniteDifference.jacobian system x fx := by
  simp only [jacobian, value_bind, value_pure, value_forEach, value_residuals]
  rfl

/-- The difference quotients take the residuals once for each variable. -/
@[simp]
theorem ledger_jacobian (x fx : Vector K n) :
    ledger system (jacobian x fx) = ⟨n * n, n, 0, []⟩ := by
  have columns := ledger_forEach system fun j =>
    ledger_residuals system (FiniteDifference.forward x j)
  simp only [jacobian, ledger_bind, ledger_pure, Ledger.append_blank, columns, Nat.mul_one,
    Nat.mul_zero]

end Arithmetic

section Scalar

variable [Scalar K]

/-- Measure the residuals and their norm at the present point. -/
def measured (state : IterationState K n) : Procedure K n (IterationState K n) := do
  let fx ← residuals state.x
  remark (.landmark (.measured state.x (euclideanNorm fx)))
  return { state with
    fx
    error := euclideanNorm fx
    functionEvaluations := state.functionEvaluations + n }

/-- The norm of the residuals after a step that is only tried. -/
def normAfter (x dx : Vector K n) (alpha : K) : Procedure K n K := do
  let fx ← residuals (moved x alpha dx)
  remark .trial
  return euclideanNorm fx

/-- The first length that is sufficient, else the last, which is tried as well. -/
def backtrack (x dx : Vector K n) (before : K) :
    (alpha : K) → (smaller : List K) → Procedure K n (LineSearch.Choice K)
  | alpha, [] => do
      let _ ← normAfter x dx alpha
      return { alpha, trials := 1 }
  | alpha, next :: rest => do
      let after ← normAfter x dx alpha
      if LineSearch.isSufficient before alpha after then return { alpha, trials := 1 }
      else
        let later ← backtrack x dx before next rest
        return { later with trials := later.trials + 1 }

variable (system : ExpressionSystem K n n)

@[simp]
theorem value_measured (state : IterationState K n) :
    value system (measured state) = state.measured system := by
  simp only [measured, value_bind, value_pure, value_residuals]
  rfl

@[simp]
theorem ledger_measured (state : IterationState K n) :
    ledger system (measured state) =
      ⟨n, 1, 0, [.measured state.x (euclideanNorm (RootFinding.residuals system state.x))]⟩ := by
  simp only [measured, ledger_bind, ledger_pure, ledger_remark, ledger_residuals, value_residuals,
    Ledger.append_blank]
  ext1 <;> simp [Ledger.ofRemark]

theorem value_normAfter (x dx : Vector K n) (alpha : K) :
    value system (normAfter x dx alpha) = LineSearch.normAfter system x dx alpha := by
  simp only [normAfter, value_bind, value_pure, value_residuals]
  rfl

theorem ledger_normAfter (x dx : Vector K n) (alpha : K) :
    ledger system (normAfter x dx alpha) = ⟨n, 1, 1, []⟩ := by
  simp only [normAfter, ledger_bind, ledger_pure, ledger_remark, ledger_residuals,
    Ledger.append_blank]
  ext1 <;> simp [Ledger.ofRemark]

/-- A search that asks for every trial finds what the line search finds. -/
@[simp]
theorem value_backtrack (x dx : Vector K n) (before alpha : K) (smaller : List K) :
    value system (backtrack x dx before alpha smaller) =
      LineSearch.backtrack system x dx before alpha smaller := by
  induction smaller generalizing alpha with
  | nil =>
      simp only [backtrack, value_bind, value_pure, LineSearch.backtrack, LineSearch.choose]
  | cons next rest inductionHypothesis =>
      simp only [backtrack, value_bind, value_normAfter, LineSearch.backtrack, LineSearch.choose]
      split
      · rfl
      · simp only [value_bind, value_pure, inductionHypothesis]
        rfl

/-- Every trial is one vector of residuals. -/
@[simp]
theorem ledger_backtrack (x dx : Vector K n) (before alpha : K) (smaller : List K) :
    ledger system (backtrack x dx before alpha smaller) =
      let trials := (LineSearch.backtrack system x dx before alpha smaller).trials
      ⟨n * trials, trials, trials, []⟩ := by
  induction smaller generalizing alpha with
  | nil =>
      simp only [backtrack, ledger_bind, ledger_pure, ledger_normAfter, Ledger.append_blank,
        LineSearch.backtrack, LineSearch.choose, Nat.mul_one]
  | cons next rest inductionHypothesis =>
      simp only [backtrack, ledger_bind, ledger_normAfter, value_normAfter, LineSearch.backtrack,
        LineSearch.choose]
      split
      · simp only [ledger_pure, Ledger.append_blank, Nat.mul_one]
      · simp only [ledger_bind, ledger_pure, Ledger.append_blank, inductionHypothesis,
          LineSearch.backtrack]
        ext1 <;> simp [Nat.mul_add, Nat.add_comm]

end Scalar

end Procedure

end RootFinding
