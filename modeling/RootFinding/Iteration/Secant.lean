import RootFinding.Iteration.Run
import RootFinding.LineSearch

/-!
# Broyden's secant method

No Jacobian is ever estimated. A matrix that starts as the identity is corrected after every step
by the rank-one change that makes it agree with the last displacement, and is set back to the
identity when the linear solve gives up or the correction is not finite. When the error has hardly
changed for eleven turns in a row, the run restarts half way between its last two points.
-/

namespace RootFinding

/-- What a displacement teaches the approximate Jacobian. -/
inductive SecantUpdate (K : Type) (n : Nat) where
  | skipped
  | corrected (matrix : DenseMatrix K n n)
  | reset
  deriving Repr, DecidableEq

namespace SecantUpdate

section Arithmetic

variable {K : Type} [Arithmetic K] {n : Nat}

/-- A displacement whose square is smaller teaches nothing. -/
def leastSquare : K := 1e-16

/-- The matrix changed by `((y - B s) sᵀ) / ‖s‖²`, with `square` the square of the length of `s`. -/
def correction (matrix : DenseMatrix K n n) (s y : Vector K n) (square : K) : DenseMatrix K n n :=
  let surprise := difference y (matrix.apply s)
  Vector.ofFn fun i => Vector.ofFn fun j =>
    matrix.entry i j + surprise.get i * s.get j / square

/-- The update from the step `s` between two points and the change `y` of the residuals. -/
def ofStep (matrix : DenseMatrix K n n) (s y : Vector K n) : SecantUpdate K n :=
  let square := dot s s
  if Arithmetic.less square leastSquare then .skipped
  else
    let next := correction matrix s y square
    if next.entriesFinite then .corrected next else .reset

/-- The update from two points and the residuals at them. -/
def between (matrix : DenseMatrix K n n) (x previous fx fxPrevious : Vector K n) :
    SecantUpdate K n :=
  ofStep matrix (difference x previous) (difference fx fxPrevious)

/--
The update from lists of entries; a lone entry stands for any number, and a step too short to teach
anything needs no fitting size.
-/
def ofEntries?
    (matrix : DenseMatrix K n n)
    (x previous fx fxPrevious : Array K) :
    Option (SecantUpdate K n) := do
  let ⟨_, point, pointBefore⟩ ← spreadPair? x previous
  let ⟨_, value, valueBefore⟩ ← spreadPair? fx fxPrevious
  let s := difference point pointBefore
  let y := difference value valueBefore
  if Arithmetic.less (dot s s) leastSquare then return .skipped
  return ofStep matrix (← sized? n s.toArray) (← spread? n y.toArray)

/-- The matrix after an update. -/
def apply (update : SecantUpdate K n) (matrix : DenseMatrix K n n) : DenseMatrix K n n :=
  match update with
  | .skipped => matrix
  | .corrected next => next
  | .reset => .identity n

/-- Whether the displacement was long enough to be used. -/
def isApplied : SecantUpdate K n → Bool
  | .skipped => false
  | _ => true

/-- The event that reports an update. -/
def events : SecantUpdate K n → List (Event K)
  | .reset => [.matrixReset]
  | _ => []

end Arithmetic

end SecantUpdate

/--
A state with the approximate Jacobian, the point before it with its residuals, and the count of
stalled turns.
-/
structure SecantState (K : Type) (n : Nat) extends IterationState K n where
  matrix : DenseMatrix K n n
  previous : Vector K n
  fxPrevious : Vector K n
  previousError : K
  stalls : Nat
  deriving Repr, DecidableEq

namespace Secant

variable {K : Type} [Scalar K] {n : Nat}

/-- The lengths after the whole step that the line search may try. -/
def shorterLengths : List K :=
  LineSearch.halvings 0.5 4

/-- More stalled turns in a row than this force a restart. -/
def stallLimit : Nat := 10

/-- The second point of the first pair: coordinate `i` moved by `i + 1` thousandths. -/
def secondPoint (x : Vector K n) : Vector K n :=
  Vector.ofFn fun i => x.get i + 0.001 * Arithmetic.ofCount (i.val + 1)

/-- The state before the first turn, with the events of the first update. -/
def start (system : ExpressionSystem K n n) (x : Vector K n) :
    List (Event K) × SecantState K n :=
  let previous := secondPoint x
  let fxPrevious := residuals system previous
  let present := ((IterationState.atPoint x).measured system).charged n
  let update := SecantUpdate.between (.identity n) x previous present.fx fxPrevious
  (update.events,
    { present with
      matrix := update.apply (.identity n)
      previous
      fxPrevious
      previousError := present.error
      stalls := 0 })

/-- The error hardly differs from the one a turn before. -/
def isStalled (epsilon : K) (state : SecantState K n) : Bool :=
  Arithmetic.less (Arithmetic.magnitude (state.error - state.previousError)) (epsilon * 1e-3)

/-- Count a stalled turn, restart after too many of them, and remember the error. -/
def settled
    (system : ExpressionSystem K n n)
    (epsilon : K)
    (iteration : Nat)
    (state : SecantState K n) :
    List (Event K) × SecantState K n :=
  if isStalled epsilon state then
    if stallLimit < state.stalls + 1 then
      let halfway := { state.toIterationState with x := midpoint state.x state.previous }
      ([.restarted iteration],
        { state with
          toIterationState := halfway.measured system
          previousError := state.error
          stalls := 0 })
    else ([], { state with previousError := state.error, stalls := state.stalls + 1 })
  else ([], { state with previousError := state.error, stalls := 0 })

/-- A step longer than one, cut to length one. -/
def capped (dx : Vector K n) : Vector K n :=
  let size := euclideanNorm dx
  if Arithmetic.less 1.0 size then dx.map fun entry => entry / size else dx

/-- The step to walk along and the matrix to go on with. -/
def direction (iteration : Nat) (state : SecantState K n) :
    List (Event K) × Vector K n × DenseMatrix K n n :=
  match solveLinear state.matrix (opposite state.fx) with
  | .ok dx => ([], capped dx, state.matrix)
  | .error cause =>
      ([.singular .secant iteration cause], capped (dampedStep state.fx), .identity n)

def displacement (state : SecantState K n) : K :=
  euclideanNorm (difference state.x state.previous)

/-- Solve, search, walk, measure, and learn from the displacement. -/
def advanced
    (system : ExpressionSystem K n n)
    (epsilon : K)
    (iteration : Nat)
    (state : SecantState K n) :
    List (Event K) × SecantState K n :=
  let (reported, dx, matrix) := direction iteration state
  let choice :=
    LineSearch.backtrack system state.x dx (euclideanNorm state.fx) 1.0 shorterLengths
  let aimed := { state.toIterationState with dx }.charged (n * choice.trials)
  let arrived := (aimed.walked choice.alpha).measured system
  let next : SecantState K n :=
    { state with
      toIterationState := arrived
      matrix
      previous := state.x
      fxPrevious := state.fx }
  if Arithmetic.less (epsilon * 1e-2) (displacement next) then
    let update := SecantUpdate.between matrix next.x next.previous next.fx next.fxPrevious
    (reported ++ update.events, { next with matrix := update.apply matrix })
  else (reported, next)

/-- The displacement was too short to expect more of the turns to come. -/
def isStuck (epsilon : K) (iteration : Nat) (state : SecantState K n) : Bool :=
  decide (5 < iteration) && Arithmetic.less (displacement state) (epsilon * 1e-4)

def turn
    (system : ExpressionSystem K n n)
    (epsilon : K)
    (iteration : Nat)
    (state : SecantState K n) :
    List (Event K) × Turn (SecantState K n) (SolveResult K n) :=
  let opening := Event.began .secant iteration state.error
  if Arithmetic.less state.error epsilon then
    ([opening, .converged .secant (iteration + 1) state.error],
      .finished (state.result (iteration + 1) true Method.secant.label))
  else
    let (restarts, ready) := settled system epsilon iteration state
    let (reported, next) := advanced system epsilon iteration ready
    if isStuck epsilon iteration next then
      let converged := Arithmetic.less next.error (epsilon * 10.0)
      (opening :: restarts ++ reported ++
          [.stalled .secant (iteration + 1) next.error converged],
        .finished (next.result (iteration + 1) converged Method.secant.label))
    else (opening :: restarts ++ reported, .onward next)

def atLimit (epsilon : K) (limit : Int) (state : SecantState K n) :
    List (Event K) × SolveResult K n :=
  ([.exhausted .secant limit state.error],
    state.result limit (Arithmetic.less state.error epsilon) Method.secant.label)

def scheme (system : ExpressionSystem K n n) (epsilon : K) (limit : Int) :
    Scheme K (SecantState K n) (SolveResult K n) where
  turn := turn system epsilon
  atLimit := atLimit epsilon limit

/-- The secant method from `x` for at most `limit` turns. -/
def run
    (system : ExpressionSystem K n n)
    (x : Vector K n)
    (epsilon : K)
    (limit : Int)
    (isCancelled : Nat → Bool) :
    Run K (SolveResult K n) :=
  let (reported, first) := start system x
  (scheme system epsilon limit).runFrom isCancelled limit.toNat 0 first reported.toArray

end Secant

end RootFinding
