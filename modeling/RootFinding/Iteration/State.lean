import RootFinding.Expression.Basic

/-!
# State and result of an iteration

The point where a run stands, what was measured there, the last step and the cost so far. A result
is the part of the state that a caller sees, with the way in which the run ended.
-/

namespace RootFinding

/-- What a finished run reports. -/
structure SolveResult (K : Type) (n : Nat) where
  solution : Vector K n
  iterations : Int
  finalError : K
  converged : Bool
  functionEvaluations : Nat
  jacobianEvaluations : Nat
  methodUsed : String
  deriving Repr, DecidableEq

/-- Where a run in `n` variables stands. -/
structure IterationState (K : Type) (n : Nat) where
  x : Vector K n
  fx : Vector K n
  dx : Vector K n
  error : K
  functionEvaluations : Nat
  jacobianEvaluations : Nat
  deriving Repr, DecidableEq

namespace IterationState

section Arithmetic

variable {K : Type} [Arithmetic K] {n : Nat}

/-- The state at a point where nothing was measured: the error is one over zero. -/
def atPoint (x : Vector K n) : IterationState K n where
  x
  fx := zeros n
  dx := zeros n
  error := 1.0 / 0.0
  functionEvaluations := 0
  jacobianEvaluations := 0

/-- Count evaluations of single expressions. -/
def charged (state : IterationState K n) (evaluations : Nat) : IterationState K n :=
  { state with functionEvaluations := state.functionEvaluations + evaluations }

def walked (state : IterationState K n) (alpha : K) : IterationState K n :=
  { state with x := moved state.x alpha state.dx }

/-- What is reported when a run ends here. -/
def result
    (state : IterationState K n)
    (iterations : Int)
    (converged : Bool)
    (methodUsed : String) :
    SolveResult K n where
  solution := state.x
  iterations
  finalError := state.error
  converged
  functionEvaluations := state.functionEvaluations
  jacobianEvaluations := state.jacobianEvaluations
  methodUsed

end Arithmetic

section Scalar

variable {K : Type} [Scalar K] {n : Nat}

/-- Measure the residuals and their norm at the present point. -/
def measured (state : IterationState K n) (system : ExpressionSystem K n n) :
    IterationState K n :=
  let fx := residuals system state.x
  { state with
    fx
    error := euclideanNorm fx
    functionEvaluations := state.functionEvaluations + n }

end Scalar

end IterationState

end RootFinding
