import RootFinding.Iteration.Newton
import RootFinding.Iteration.Secant

/-!
# Systems that are not square

A method needs as many expressions as there are variables. A run on another number of expressions
still measures its starting point, so it may converge there, be cancelled or have no turns to take;
its first linear solve is where the sizes are found not to fit, unless the residuals cannot even be
combined with the point before that. A lone residual can be: it stands for any number of them.
-/

namespace RootFinding

/-- Why a run on a system that is not square has no result. -/
inductive Misfit where
  | system (error : ShapeError)
  | residuals
  deriving Repr, DecidableEq

/-- The events of a run on a system that is not square, and how it ended. -/
structure MisfitRun (K : Type) (n : Nat) where
  events : List (Event K)
  ending : Except Misfit (Ending (SolveResult K n))
  deriving Repr

namespace MisfitRun

section Arithmetic

variable {K : Type} [Arithmetic K] {n : Nat}

/-- The run after events that came before it. -/
def behind (events : List (Event K)) (run : MisfitRun K n) : MisfitRun K n :=
  { run with events := events ++ run.events }

/-- The shape of the first linear system. -/
def shape (n count : Nat) : ShapeError where
  rows := n
  columns := n
  entries := count

/--
The run from a measured starting point, whose first turn ends with `misfit` if it does not converge
at once.
-/
def fromStart
    (method : Method)
    (start : IterationState K n)
    (epsilon : K)
    (limit : Int)
    (isCancelled : Nat → Bool)
    (misfit : Misfit) :
    MisfitRun K n :=
  if limit ≤ 0 then
    { events := [.exhausted method limit start.error]
      ending := .ok (.returned
        (start.result limit (Arithmetic.less start.error epsilon) method.label)) }
  else if isCancelled 0 then { events := [], ending := .ok .cancelled }
  else if Arithmetic.less start.error epsilon then
    { events := [.began method 0 start.error, .converged method 1 start.error]
      ending := .ok (.returned (start.result 1 true method.label)) }
  else { events := [.began method 0 start.error], ending := .error misfit }

end Arithmetic

section Scalar

variable {K : Type} [Scalar K] {m n : Nat}

/-- The starting point with the norm of its residuals, after so many evaluations. -/
def measuredStart
    (system : ExpressionSystem K m n)
    (x : Vector K n)
    (evaluations : Nat) :
    IterationState K n :=
  { (IterationState.atPoint x).charged evaluations with
    error := euclideanNorm (residuals system x) }

/-- Newton's method on a system that is not square. -/
def newton
    (system : ExpressionSystem K m n)
    (x : Vector K n)
    (epsilon : K)
    (limit : Int)
    (isCancelled : Nat → Bool) :
    MisfitRun K n :=
  fromStart .newton (measuredStart system x n) epsilon limit isCancelled
    (if m = 1 || n = 0 then .system (shape n m) else .residuals)

/-- The secant method on a system that is not square; its first update comes before its turns. -/
def secant
    (system : ExpressionSystem K m n)
    (x : Vector K n)
    (epsilon : K)
    (limit : Int)
    (isCancelled : Nat → Bool) :
    MisfitRun K n :=
  let previous := Secant.secondPoint x
  let update := SecantUpdate.ofEntries? (.identity n) x.toArray previous.toArray
    (residuals system x).toArray (residuals system previous).toArray
  match update with
  | none => { events := [], ending := .error .residuals }
  | some update =>
      behind update.events
        (fromStart .secant (measuredStart system x (n + n)) epsilon limit isCancelled
          (.system (shape n m)))

end Scalar

end MisfitRun

namespace Method

/-- Run a method from a point on a system that is not square. -/
def runMisfit {K : Type} [Scalar K] {m n : Nat} :
    Method →
    ExpressionSystem K m n →
    Vector K n →
    (epsilon : K) →
    (limit : Int) →
    (isCancelled : Nat → Bool) →
    MisfitRun K n
  | .newton => MisfitRun.newton
  | .secant => MisfitRun.secant

end Method

end RootFinding
