import RootFinding.FiniteDifference
import RootFinding.Iteration.Run
import RootFinding.LineSearch

/-!
# Newton's method

Every turn estimates the Jacobian anew, solves for the step that would make the linear model
vanish, and walks along it as far as the line search allows. Where the linear solve gives up, a
small damped step against the residual takes its place and the run goes on.
-/

namespace RootFinding

namespace Newton

variable {K : Type} [Scalar K] {n : Nat}

/-- The lengths after the whole step that the line search may try. -/
def shorterLengths : List K :=
  LineSearch.halvings 0.5 7

/-- The step to walk along, and the event that reports a singular Jacobian. -/
def direction
    (iteration : Nat)
    (jacobian : DenseMatrix K n n)
    (fx : Vector K n) :
    List (Event K) × Vector K n :=
  match solveLinear jacobian (opposite fx) with
  | .ok dx => ([], dx)
  | .error cause => ([.singular .newton iteration cause], dampedStep fx)

/-- The error is small enough, or the last step was after the first few turns. -/
def isDone (epsilon : K) (iteration : Nat) (state : IterationState K n) : Bool :=
  Arithmetic.less state.error epsilon ||
    (decide (5 < iteration) && Arithmetic.less (euclideanNorm state.dx) (epsilon * 1e-4))

/-- The step was too short to expect more of the turns to come. -/
def isStalled (epsilon : K) (iteration : Nat) (state : IterationState K n) : Bool :=
  decide (10 < iteration) && Arithmetic.less (euclideanNorm state.dx) (epsilon * 1e-3)

/-- Estimate, solve, search and walk from a measured state. -/
def advanced
    (system : ExpressionSystem K n n)
    (iteration : Nat)
    (state : IterationState K n) :
    List (Event K) × IterationState K n :=
  let jacobian := FiniteDifference.jacobian system state.x state.fx
  let (reported, dx) := direction iteration jacobian state.fx
  let choice := LineSearch.backtrack system state.x dx state.error 1.0 shorterLengths
  let aimed := { state with
    dx
    functionEvaluations :=
      state.functionEvaluations + FiniteDifference.evaluations n + n * choice.trials
    jacobianEvaluations := state.jacobianEvaluations + n * n }
  (reported, aimed.walked choice.alpha)

def turn
    (system : ExpressionSystem K n n)
    (epsilon : K)
    (iteration : Nat)
    (state : IterationState K n) :
    List (Event K) × Turn (IterationState K n) (SolveResult K n) :=
  let present := state.measured system
  let opening := Event.began .newton iteration present.error
  if isDone epsilon iteration present then
    ([opening, .converged .newton (iteration + 1) present.error],
      .finished (present.result (iteration + 1) true Method.newton.label))
  else
    let (reported, next) := advanced system iteration present
    if isStalled epsilon iteration next then
      let last := next.measured system
      let converged := Arithmetic.less last.error (epsilon * 10.0)
      (opening :: reported ++ [.stalled .newton (iteration + 1) last.error converged],
        .finished (last.result (iteration + 1) converged Method.newton.label))
    else (opening :: reported, .onward next)

def atLimit
    (system : ExpressionSystem K n n)
    (epsilon : K)
    (limit : Int)
    (state : IterationState K n) :
    List (Event K) × SolveResult K n :=
  let last := state.measured system
  ([.exhausted .newton limit last.error],
    last.result limit (Arithmetic.less last.error epsilon) Method.newton.label)

def scheme (system : ExpressionSystem K n n) (epsilon : K) (limit : Int) :
    Scheme K (IterationState K n) (SolveResult K n) where
  turn := turn system epsilon
  atLimit := atLimit system epsilon limit

/-- Newton's method from `x` for at most `limit` turns. -/
def run
    (system : ExpressionSystem K n n)
    (x : Vector K n)
    (epsilon : K)
    (limit : Int)
    (isCancelled : Nat → Bool) :
    Run K (SolveResult K n) :=
  (scheme system epsilon limit).runFrom isCancelled limit.toNat 0 (.atPoint x) #[]

end Newton

end RootFinding
