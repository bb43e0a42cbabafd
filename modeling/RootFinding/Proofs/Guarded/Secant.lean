import RootFinding.Iteration.Secant
import RootFinding.Proofs.Guarded.Elimination
import RootFinding.Proofs.Guarded.Run

/-!
# The secant method, guarded

The turns of the secant method on states of any sizes, with the approximate Jacobian as a table. The
matrix is corrected and set back on its own rows, so it keeps the shape that it started with.
-/

namespace RootFinding

namespace Guarded

/-- A state of any sizes with the approximate Jacobian, the point before it and the stalls. -/
structure LooseSecantState (K : Type) extends LooseState K where
  matrix : Array (Array K)
  previous : Array K
  previousError : K
  stalls : Nat

namespace Secant

variable {K : Type} [Scalar K] {bound n : Nat}

section Definitions

variable (terms : List (Expression K (Fin bound)))

def identity (size : Nat) : Array (Array K) :=
  table (DenseMatrix.identity size)

/-- The matrix after the update from two points and the residuals at them. -/
def update (matrix : Array (Array K)) (x previous fx fxPrevious : Array K) :
    Checked K (Array (Array K)) := do
  let s ← entrywise (fun a b => a - b) x previous
  let y ← entrywise (fun a b => a - b) fx fxPrevious
  let square ← inner s s
  if Arithmetic.less square SecantUpdate.leastSquare then
    return matrix
  let product ← matrix.mapM fun row => inner row s
  let surprise ← entrywise (fun a b => a - b) y product
  let changes ← dividing square fun divide => surprise.map fun a => s.map fun b => divide (a * b)
  let next ← pairwise (entrywise fun a b => a + b) matrix changes
  if next.all fun row => row.all Arithmetic.isFinite then
    return next
  return identity matrix.size

def start (x : Array K) : Checked K (LooseSecantState K) := do
  let previous := (RootFinding.Secant.secondPoint x.toVector).toArray
  let present ← evaluated terms (.atPoint x)
  let fxPrevious ← residuals terms previous
  let matrix ← update (identity x.size) present.x previous present.fx fxPrevious
  return { present with
    functionEvaluations := present.functionEvaluations + x.size
    matrix
    previous
    previousError := present.error
    stalls := 0 }

def halfway (left right : Array K) : Checked K (Array K) := do
  let sum ← entrywise (fun a b => a + b) left right
  dividing 2.0 fun divide => sum.map divide

def settled (epsilon : K) (state : LooseSecantState K) : Checked K (LooseSecantState K) := do
  let change := Arithmetic.magnitude (state.error - state.previousError)
  if Arithmetic.less change (epsilon * 1e-3) then
    if RootFinding.Secant.stallLimit < state.stalls + 1 then
      let x ← halfway state.x state.previous
      let present ← evaluated terms { state.toLooseState with x }
      return { state with
        toLooseState := present
        previousError := state.error
        stalls := 0 }
    else return { state with previousError := state.error, stalls := state.stalls + 1 }
  else return { state with previousError := state.error, stalls := 0 }

def capped (dx : Array K) : Checked K (Array K) :=
  let size := norm dx
  if Arithmetic.less 1.0 size then dividing size fun divide => dx.map divide else .ok dx

/-- The step to walk along and the matrix to go on with. -/
def direction (state : LooseSecantState K) : Checked K (Array K × Array (Array K)) :=
  match solve state.matrix (state.fx.map fun value => -value) with
  | .ok dx => do
      let dx ← capped dx
      return (dx, state.matrix)
  | .error (.singular _) => do
      let damped ← dampedStep state.fx
      matching state.matrix.size state.x.size
      let dx ← capped damped
      return (dx, identity state.matrix.size)
  | .error fault => .error fault

def displacement (state : LooseSecantState K) : Checked K K := do
  let change ← entrywise (fun a b => a - b) state.x state.previous
  return norm change

/-- Measure where a walk ended, and learn from the displacement. -/
def learned
    (epsilon : K)
    (matrix : Array (Array K))
    (state : LooseSecantState K)
    (walker : LooseState K) :
    Checked K (LooseSecantState K) := do
  let arrived ← evaluated terms walker
  let next := { state with toLooseState := arrived, matrix, previous := state.x }
  let length ← displacement next
  if Arithmetic.less (epsilon * 1e-2) length then
    let corrected ← update matrix arrived.x state.x arrived.fx state.fx
    return { next with matrix := corrected }
  else return next

/-- Solve, search and walk, and measure and learn at the end of the walk. -/
def advanced (epsilon : K) (state : LooseSecantState K) : Checked K (LooseSecantState K) := do
  let (dx, matrix) ← direction state
  let lengths := 1.0 :: RootFinding.Secant.shorterLengths
  let choice ← backtrack terms state.x dx (norm state.fx) lengths
  let x ← walked state.x choice.alpha dx
  learned terms epsilon matrix state { state.toLooseState with
    x
    dx
    functionEvaluations := state.functionEvaluations + state.x.size * choice.trials }

def turn (epsilon : K) (iteration : Nat) (state : LooseSecantState K) :
    Checked K (Turn (LooseSecantState K) (Report K)) := do
  if Arithmetic.less state.error epsilon then
    return .finished
      (report state.toLooseState (iteration + 1) true Method.secant.label)
  let ready ← settled terms epsilon state
  let next ← advanced terms epsilon ready
  let length ← displacement next
  if decide (5 < iteration) && Arithmetic.less length (epsilon * 1e-4) then
    let converged := Arithmetic.less next.error (epsilon * 10.0)
    return .finished (report next.toLooseState (iteration + 1) converged Method.secant.label)
  return .onward next

def atLimit (epsilon : K) (limit : Int) (state : LooseSecantState K) : Checked K (Report K) :=
  .ok (report state.toLooseState limit (Arithmetic.less state.error epsilon) Method.secant.label)

/-- The secant method from `x` for at most `limit` turns. -/
def runFrom (x : Array K) (epsilon : K) (limit : Int) : Checked K (Report K) := do
  let first ← start terms x
  run (turn terms epsilon) (atLimit epsilon limit) limit.toNat 0 first

/-- A state with its sizes forgotten. -/
def loosened (state : SecantState K n) : LooseSecantState K where
  toLooseState := state.toIterationState.loose
  matrix := table state.matrix
  previous := state.previous.toArray
  previousError := state.previousError
  stalls := state.stalls

end Definitions

section Updates

/-- The correction adds an outer product to the matrix. -/
theorem correction_eq_zipWith
    (matrix : DenseMatrix K n n)
    (s y : Vector K n)
    (square : K) :
    SecantUpdate.correction matrix s y square =
      Vector.zipWith (Vector.zipWith fun a b => a + b) matrix
        ((difference y (matrix.apply s)).map fun a => s.map fun b => a * b / square) := by
  ext i rowInside j columnInside
  simp [SecantUpdate.correction, DenseMatrix.entry, get_eq_getElem]

end Updates

section Safe

variable [SafeDivisors K]
variable {terms : List (Expression K (Fin bound))}
variable {system : ExpressionSystem K n n}

/-- A guarded update learns what the update learns. -/
theorem update_table
    (matrix : DenseMatrix K n n)
    (x previous fx fxPrevious : Vector K n) :
    update (table matrix) x.toArray previous.toArray fx.toArray fxPrevious.toArray =
      .ok (table ((SecantUpdate.between matrix x previous fx fxPrevious).apply matrix)) := by
  rw [update, entrywise_difference, ok_bind, entrywise_difference, ok_bind, inner_toArray, ok_bind,
    SecantUpdate.between, SecantUpdate.ofStep]
  generalize difference x previous = s
  generalize difference fx fxPrevious = y
  cases small : Arithmetic.less (dot s s) SecantUpdate.leastSquare with
  | true =>
      rw [if_pos rfl]
      rfl
  | false =>
      -- The correction divides by the square that was just found not to be small.
      have nonzero := SafeDivisors.isZero_square small
      simp only [Bool.false_eq_true, ↓reduceIte]
      rw [mapM_inner_table, ok_bind, entrywise_difference, ok_bind, dividing_eq_ok nonzero, ok_bind,
        table_map_map, entrywise_table, ok_bind, ← correction_eq_zipWith, all_isFinite_table,
        size_table]
      split <;> rfl

omit [SafeDivisors K] in
theorem secondPoint_toArray (x : Vector K n) :
    (RootFinding.Secant.secondPoint x.toArray.toVector).toArray =
      (RootFinding.Secant.secondPoint x).toArray := by
  obtain ⟨x, rfl⟩ := x
  rfl

theorem start_toArray
    (areTerms : AreTermsOf terms system)
    (x : Vector K n) :
    start terms x.toArray = .ok (loosened (RootFinding.Secant.start system x).2) := by
  have matrix : (identity n : Array (Array K)) = table (DenseMatrix.identity n) := rfl
  simp only [start, LooseState.atPoint_toArray, evaluated_loose areTerms, ok_bind,
    secondPoint_toArray, residuals_toArray areTerms, Vector.size_toArray, matrix, x_loose, fx_loose,
    update_table]
  rfl

theorem halfway_toArray (left right : Vector K n) :
    halfway left.toArray right.toArray = .ok (midpoint left right).toArray := by
  rw [halfway, entrywise_toArray, ok_bind, dividing_eq_ok SafeDivisors.isZero_two]
  simp [midpoint]

/-- The guarded cut of a long step is the cut, since no long step has length zero. -/
theorem capped_toArray (dx : Vector K n) :
    capped dx.toArray = .ok (RootFinding.Secant.capped dx).toArray := by
  rw [capped, RootFinding.Secant.capped, norm_toArray]
  split
  · rename_i long
    rw [dividing_eq_ok (SafeDivisors.isZero_size long)]
    simp
  · rfl

/-- The guarded direction is the direction, and so is the matrix that it leaves. -/
theorem direction_loosened
    (iteration : Nat)
    (state : SecantState K n) :
    direction (loosened state) =
      .ok ((RootFinding.Secant.direction iteration state).2.1.toArray,
        table (RootFinding.Secant.direction iteration state).2.2) := by
  have right : ((loosened state).fx.map fun value => -value) = (opposite state.fx).toArray :=
    map_neg_toArray state.fx
  rw [direction, right, loosened, solve_table, RootFinding.Secant.direction]
  cases solveLinear state.matrix (opposite state.fx) with
  | ok dx =>
      simp only [Except.map, Except.mapError]
      rw [capped_toArray, ok_bind]
      rfl
  | error cause =>
      simp only [Except.map, Except.mapError]
      rw [IterationState.loose, dampedStep_toArray, ok_bind, size_table, Vector.size_toArray,
        matching_self, ok_bind, capped_toArray, ok_bind]
      rfl

/-- A guarded decision about a restart is the decision. -/
theorem settled_loosened
    (areTerms : AreTermsOf terms system)
    (epsilon : K)
    (iteration : Nat)
    (state : SecantState K n) :
    settled terms epsilon (loosened state) =
      .ok (loosened (RootFinding.Secant.settled system epsilon iteration state).2) := by
  have stalled_eq :
      Arithmetic.less
          (Arithmetic.magnitude ((loosened state).error - (loosened state).previousError))
          (epsilon * 1e-3) =
        RootFinding.Secant.isStalled epsilon state :=
    rfl
  have stalls_eq : (loosened state).stalls = state.stalls := rfl
  simp only [settled, RootFinding.Secant.settled, stalled_eq, stalls_eq]
  by_cases stalled : RootFinding.Secant.isStalled epsilon state = true
  · by_cases many : RootFinding.Secant.stallLimit < state.stalls + 1
    · have middle :
          halfway (loosened state).x (loosened state).previous =
            .ok (midpoint state.x state.previous).toArray :=
        halfway_toArray state.x state.previous
      have measured :=
        evaluated_loose areTerms
          { state.toIterationState with x := midpoint state.x state.previous }
      simp only [stalled, many, ↓reduceIte, middle, ok_bind]
      change
        (evaluated terms
            ({ state.toIterationState with
              x := midpoint state.x state.previous } : IterationState K n).loose >>= fun present =>
          _) = _
      rw [measured, ok_bind]
      rfl
    · simp only [stalled, many, ↓reduceIte]
      rfl
  · simp only [stalled, Bool.false_eq_true, ↓reduceIte]
    rfl

omit [SafeDivisors K] in
theorem displacement_loosened (state : SecantState K n) :
    displacement (loosened state) = .ok (RootFinding.Secant.displacement state) := by
  rw [displacement, loosened, IterationState.loose, entrywise_difference, ok_bind, norm_toArray]
  rfl

/-- The state after a walk, seen from the state before it. -/
def successor
    (system : ExpressionSystem K n n)
    (matrix : DenseMatrix K n n)
    (state : SecantState K n)
    (walker : IterationState K n) :
    SecantState K n :=
  { state with
    toIterationState := walker.measured system
    matrix
    previous := state.x
    fxPrevious := state.fx }

/-- A guarded lesson from a step is the lesson. -/
theorem learned_loosened
    (areTerms : AreTermsOf terms system)
    (epsilon : K)
    (matrix : DenseMatrix K n n)
    (state : SecantState K n)
    (walker : IterationState K n) :
    learned terms epsilon (table matrix) (loosened state) walker.loose =
      .ok (loosened
        (let next := successor system matrix state walker
        if Arithmetic.less (epsilon * 1e-2) (RootFinding.Secant.displacement next) then
          { next with
            matrix :=
              (SecantUpdate.between matrix next.x state.x next.fx state.fx).apply matrix }
        else next)) := by
  have displaced := displacement_loosened (successor system matrix state walker)
  have corrected :=
    update_table matrix (successor system matrix state walker).x state.x
      (successor system matrix state walker).fx state.fx
  rw [learned, evaluated_loose areTerms, ok_bind]
  dsimp only
  change (displacement (loosened (successor system matrix state walker)) >>= fun length => _) = _
  rw [displaced, ok_bind]
  by_cases far :
      Arithmetic.less (epsilon * 1e-2)
        (RootFinding.Secant.displacement (successor system matrix state walker)) = true
  · rw [if_pos far, if_pos far]
    change
      (update (table matrix) (successor system matrix state walker).x.toArray state.x.toArray
        (successor system matrix state walker).fx.toArray state.fx.toArray >>= fun corrected => _) =
        _
    rw [corrected, ok_bind]
    rfl
  · rw [if_neg far, if_neg far]
    rfl

/-- A guarded advance is the advance with its sizes forgotten. -/
theorem advanced_loosened
    (areTerms : AreTermsOf terms system)
    (epsilon : K)
    (iteration : Nat)
    (state : SecantState K n) :
    advanced terms epsilon (loosened state) =
      .ok (loosened (RootFinding.Secant.advanced system epsilon iteration state).2) := by
  have x_eq : (loosened state).x = state.x.toArray := rfl
  have fx_eq : (loosened state).fx = state.fx.toArray := rfl
  rw [advanced, RootFinding.Secant.advanced, direction_loosened iteration, ok_bind]
  generalize RootFinding.Secant.direction iteration state = chosen
  obtain ⟨reported, dx, matrix⟩ := chosen
  simp only [x_eq, fx_eq, norm_toArray, backtrack_toArray areTerms, ok_bind, walked_toArray,
    Vector.size_toArray]
  generalize LineSearch.backtrack system state.x dx (euclideanNorm state.fx) 1.0
    RootFinding.Secant.shorterLengths = choice
  have arrived :=
    learned_loosened areTerms epsilon matrix state
      (({ state.toIterationState with dx }.charged (n * choice.trials)).walked choice.alpha)
  refine arrived.trans (congrArg (fun next : SecantState K n => Except.ok (loosened next)) ?_)
  rw [apply_ite Prod.snd]
  rfl

/-- A turn from a sized state is the turn of the method, and meets no fault. -/
theorem turn_loosened
    (areTerms : AreTermsOf terms system)
    (epsilon : K)
    (limit : Int)
    (iteration : Nat)
    (state : SecantState K n) :
    turn terms epsilon iteration (loosened state) =
      .ok (imageOf loosened (fun result => ⟨n, result⟩)
        ((RootFinding.Secant.scheme system epsilon limit).turn iteration state).2) := by
  have error_eq (state : SecantState K n) : (loosened state).error = state.error := rfl
  have stuck_eq (state : SecantState K n) :
      (decide (5 < iteration) &&
          Arithmetic.less (RootFinding.Secant.displacement state) (epsilon * 1e-4)) =
        RootFinding.Secant.isStuck epsilon iteration state :=
    rfl
  have reported
      (state : SecantState K n)
      (iterations : Int)
      (converged : Bool) :
      report (loosened state).toLooseState iterations converged Method.secant.label =
        ⟨n, state.result iterations converged Method.secant.label⟩ :=
    report_loose state.toIterationState iterations converged Method.secant.label
  simp only [turn, error_eq, reported, settled_loosened areTerms epsilon iteration,
    advanced_loosened areTerms epsilon iteration, displacement_loosened, ok_bind,
    stuck_eq, RootFinding.Secant.scheme, RootFinding.Secant.turn]
  split
  · rfl
  · split <;> rfl

omit [SafeDivisors K] in
/-- The report at the limit is the result at the limit. -/
theorem atLimit_loosened
    (epsilon : K)
    (limit : Int)
    (state : SecantState K n) :
    atLimit epsilon limit (loosened state) =
      .ok ⟨n, ((RootFinding.Secant.scheme system epsilon limit).atLimit state).2⟩ :=
  congrArg Except.ok (report_loose state.toIterationState limit _ _)

/-- The guarded run reports the result of the method. -/
theorem runFrom_toArray
    (areTerms : AreTermsOf terms system)
    (x : Vector K n)
    (epsilon : K)
    (limit : Int)
    {result : SolveResult K n}
    (returned :
      (RootFinding.Secant.run system x epsilon limit PollAnswers.never).ending =
        .returned result) :
    runFrom terms x.toArray epsilon limit = .ok ⟨n, result⟩ := by
  rw [runFrom, start_toArray areTerms, ok_bind]
  exact run_eq_ok (turn_loosened areTerms epsilon limit) (atLimit_loosened epsilon limit) returned

end Safe

end Secant

end Guarded

end RootFinding
