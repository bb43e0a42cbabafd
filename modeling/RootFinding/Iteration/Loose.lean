import RootFinding.Iteration.State

/-!
# States without a size

A state may be taken apart and put together by hand, and then its parts need not have one length.
Each step says whether it is possible: to measure, the point needs an entry for every variable that
occurs; to walk, the step needs as many entries as the point, or one of the two has a single entry.
-/

namespace RootFinding

/-- A point, residuals and a step of any lengths, with the error and the cost so far. -/
structure LooseState (K : Type) where
  x : Array K
  fx : Array K
  dx : Array K
  error : K
  functionEvaluations : Nat
  jacobianEvaluations : Nat
  deriving Repr, DecidableEq

/-- A state with its size forgotten. -/
def IterationState.loose {K : Type} {n : Nat} (state : IterationState K n) : LooseState K where
  x := state.x.toArray
  fx := state.fx.toArray
  dx := state.dx.toArray
  error := state.error
  functionEvaluations := state.functionEvaluations
  jacobianEvaluations := state.jacobianEvaluations

namespace LooseState

section Arithmetic

variable {K : Type} [Arithmetic K]

/-- The state at a point where nothing was measured. -/
def atPoint (x : Array K) : LooseState K :=
  (IterationState.atPoint (n := x.size) ⟨x, rfl⟩).loose

def moved? (state : LooseState K) (alpha : K) (step : Array K) : Option (LooseState K) :=
  (spreadPair? state.x step).map fun ⟨_, x, dx⟩ =>
    { state with x := (moved x alpha dx).toArray }

/-- What is reported of the state. -/
def result
    (state : LooseState K)
    (iterations : Int)
    (converged : Bool)
    (methodUsed : String) :
    SolveResult K state.x.size where
  solution := ⟨state.x, rfl⟩
  iterations
  finalError := state.error
  converged
  functionEvaluations := state.functionEvaluations
  jacobianEvaluations := state.jacobianEvaluations
  methodUsed

@[simp]
theorem atPoint_toArray {n : Nat} (x : Vector K n) :
    atPoint x.toArray = (IterationState.atPoint x).loose := by
  obtain ⟨entries, rfl⟩ := x
  rfl

end Arithmetic

section Scalar

variable {K : Type} [Scalar K] {bound : Nat}

/-- Measure the residuals and their norm; every entry of the point counts as an evaluation. -/
def measured? (state : LooseState K) (system : List (Expression K (Fin bound))) :
    Option (LooseState K) := do
  let fitting ← system.mapM fun expression => (expression.restrict? state.x.size).toOption
  let fx := fitting.map fun expression => expression.valueAt ⟨state.x, rfl⟩
  return { state with
    fx := fx.toArray
    error := euclideanNorm (n := fx.toArray.size) ⟨fx.toArray, rfl⟩
    functionEvaluations := state.functionEvaluations + state.x.size }

/-- Take the damped move against the residuals as the step. -/
def damped (state : LooseState K) : LooseState K :=
  { state with dx := (dampedStep (n := state.fx.size) ⟨state.fx, rfl⟩).toArray }

end Scalar

end LooseState

end RootFinding
