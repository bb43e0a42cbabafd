import RootFinding.Iteration.Newton
import RootFinding.Proofs.Exact.OneStep
import RootFinding.Proofs.Iteration.Lockstep

/-!
# The order of the equations

Exchanging the equations of a system exchanges the residuals and the rows of the Jacobian. Norms do
not notice, since they are sums over all entries, and a linear system in another order has the same
solution, although elimination may find it by other pivots. So as long as no linear solve gives up,
Newton's method takes the same turns whatever the order of the equations.
-/

namespace RootFinding

open scoped Exact
open Elimination

section Vectors

variable {α β : Type} {n : Nat}

/-- The entries of a vector in another order. -/
def reordered (order : Equiv.Perm (Fin n)) (v : Vector α n) : Vector α n :=
  Vector.ofFn fun i => v.get (order i)

@[simp]
theorem get_reordered (order : Equiv.Perm (Fin n)) (v : Vector α n) (i : Fin n) :
    (reordered order v).get i = v.get (order i) :=
  Exact.get_ofFn _ i

theorem map_reordered (order : Equiv.Perm (Fin n)) (f : α → β) (v : Vector α n) :
    (reordered order v).map f = reordered order (v.map f) := by
  apply Exact.ext_get
  intro i
  have left : ((reordered order v).map f).get i = f ((reordered order v).get i) :=
    Vector.getElem_map f i.isLt
  have right : (v.map f).get (order i) = f (v.get (order i)) :=
    Vector.getElem_map f (order i).isLt
  rw [left, get_reordered, get_reordered, right]

end Vectors

section Systems

variable {K : Type} [Field K] [LinearOrder K] {m n : Nat}
variable (order : Equiv.Perm (Fin m))

/-- Reordered equations have reordered residuals. -/
theorem residuals_reordered (system : ExpressionSystem K m n) (x : Vector K n) :
    residuals (reordered order system) x = reordered order (residuals system x) :=
  map_reordered order _ system

theorem opposite_reordered (v : Vector K m) :
    opposite (reordered order v) = reordered order (opposite v) :=
  map_reordered order _ v

theorem apply_reordered (A : DenseMatrix K m n) (v : Vector K n) :
    DenseMatrix.apply (reordered order A) v = reordered order (A.apply v) :=
  map_reordered order _ A

/-- The difference quotients of reordered equations are the reordered rows. -/
theorem jacobian_reordered
    (system : ExpressionSystem K m n)
    (x : Vector K n)
    (fx : Vector K m) :
    FiniteDifference.jacobian (reordered order system) x (reordered order fx) =
      reordered order (FiniteDifference.jacobian system x fx) := by
  apply Exact.ext_get
  intro i
  apply Exact.ext_get
  intro j
  have row :
      (reordered order (FiniteDifference.jacobian system x fx)).get i =
        (FiniteDifference.jacobian system x fx).get (order i) :=
    get_reordered order _ i
  rw [row]
  change DenseMatrix.entry _ i j = DenseMatrix.entry _ (order i) j
  simp only [FiniteDifference.entry_jacobian, Exact.get_difference, residuals_reordered,
    get_reordered]

variable [IsStrictOrderedRing K]

/-- A sum of squares does not depend on the order of its terms. -/
theorem dot_self_reordered (v : Vector K m) :
    dot (reordered order v) (reordered order v) = dot v v := by
  simp only [Exact.dot_self_eq_sum, get_reordered]
  exact Equiv.sum_comp order fun i => v.get i ^ 2

/-- A linear system has the same solution in any order in which it is solved. -/
theorem solution_reordered
    {order : Equiv.Perm (Fin n)}
    {A : DenseMatrix K n n}
    {b x y : Vector K n}
    (solved : solveLinear A b = .ok x)
    (alsoSolved : solveLinear (reordered order A) (reordered order b) = .ok y) :
    y = x := by
  apply (hasLargePivots_of_solveLinear alsoSolved).apply_injective
  rw [apply_of_solveLinear alsoSolved, apply_reordered, apply_of_solveLinear solved]

end Systems

variable {n : Nat}
variable (order : Equiv.Perm (Fin n))

/-- The norm does not depend on the order of the entries. -/
theorem euclideanNorm_reordered (v : Vector ℝ n) :
    euclideanNorm (reordered order v) = euclideanNorm v :=
  congrArg Real.sqrt (dot_self_reordered order v)

/-- A line search compares norms only, so the order of the equations plays no part. -/
theorem backtrack_reordered
    (system : ExpressionSystem ℝ n n)
    (x dx : Vector ℝ n)
    (before alpha : ℝ)
    (smaller : List ℝ) :
    LineSearch.backtrack (reordered order system) x dx before alpha smaller =
      LineSearch.backtrack system x dx before alpha smaller := by
  simp only [LineSearch.backtrack, LineSearch.normAfter, residuals_reordered,
    euclideanNorm_reordered]

namespace IterationState

/-- A state with its residuals in another order. -/
def reordered (state : IterationState ℝ n) : IterationState ℝ n :=
  { state with fx := RootFinding.reordered order state.fx }

theorem atPoint_reordered (x : Vector ℝ n) :
    (atPoint x).reordered order = atPoint x := by
  have zero : RootFinding.reordered order (zeros n : Vector ℝ n) = zeros n := by
    apply Exact.ext_get
    intro i
    rw [get_reordered, Exact.get_zeros, Exact.get_zeros]
  simp only [reordered, atPoint, zero]

/-- Measuring the residuals goes along with the reordering of a state. -/
theorem measured_reordered (state : IterationState ℝ n) (system : ExpressionSystem ℝ n n) :
    (state.reordered order).measured (RootFinding.reordered order system) =
      (state.measured system).reordered order := by
  simp only [reordered, measured, residuals_reordered, euclideanNorm_reordered]

end IterationState

/-- A linear solve gave up. -/
def Event.isSingular {K : Type} : Event K → Bool
  | .singular _ _ _ => true
  | _ => false

namespace Newton

variable (system : ExpressionSystem ℝ n n)
variable (epsilon : ℝ)
variable {order : Equiv.Perm (Fin n)}
variable {iteration : Nat}
variable {state : IterationState ℝ n}

/-- Where both linear systems are solved, they have one solution. -/
theorem direction_reordered
    {jacobian : DenseMatrix ℝ n n}
    {fx dx dy : Vector ℝ n}
    (solved : solveLinear jacobian (opposite fx) = .ok dx)
    (alsoSolved :
      solveLinear (reordered order jacobian) (opposite (reordered order fx)) = .ok dy) :
    direction iteration (reordered order jacobian) (reordered order fx) =
      direction iteration jacobian fx := by
  have same : dy = dx := by
    rw [opposite_reordered] at alsoSolved
    exact solution_reordered solved alsoSolved
  simp only [direction, solved, alsoSolved, same]

/-- The same step is taken in any order, if neither linear solve gives up. -/
theorem advanced_reordered
    {dx dy : Vector ℝ n}
    (solved :
      solveLinear (FiniteDifference.jacobian system state.x state.fx) (opposite state.fx) = .ok dx)
    (alsoSolved :
      solveLinear
          (FiniteDifference.jacobian (reordered order system) state.x (reordered order state.fx))
          (opposite (reordered order state.fx)) =
        .ok dy) :
    advanced (reordered order system) iteration (state.reordered order) =
      ((advanced system iteration state).1,
        (advanced system iteration state).2.reordered order) := by
  rw [jacobian_reordered] at alsoSolved
  simp only [advanced, IterationState.reordered, jacobian_reordered,
    direction_reordered solved alsoSolved, backtrack_reordered]
  rfl

/-- A turn that takes a step and reports no singular system has solved for it. -/
theorem exists_solution_of_silent
    (notDone : isDone epsilon iteration (state.measured system) = false)
    (silent : ∀ event ∈ (turn system epsilon iteration state).1, event.isSingular = false) :
    ∃ dx,
      solveLinear (FiniteDifference.jacobian system state.x (state.measured system).fx)
          (opposite (state.measured system).fx) =
        .ok dx := by
  cases outcome :
      solveLinear (FiniteDifference.jacobian system state.x (state.measured system).fx)
        (opposite (state.measured system).fx) with
  | ok dx => exact ⟨dx, rfl⟩
  | error cause =>
      have reported :
          (advanced system iteration (state.measured system)).1 =
            [.singular .newton iteration cause] := by
        have here : (state.measured system).x = state.x := rfl
        simp only [advanced, direction, here, outcome]
      have present :
          Event.singular .newton iteration cause ∈ (turn system epsilon iteration state).1 := by
        simp only [turn, notDone, Bool.false_eq_true, ↓reduceIte, reported]
        split <;> simp
      cases silent _ present

/-- The same turn is taken in any order, if neither reports a singular system. -/
theorem turn_reordered
    (silent : ∀ event ∈ (turn system epsilon iteration state).1, event.isSingular = false)
    (alsoSilent :
      ∀ event ∈ (turn (reordered order system) epsilon iteration (state.reordered order)).1,
        event.isSingular = false) :
    turn (reordered order system) epsilon iteration (state.reordered order) =
      ((turn system epsilon iteration state).1,
        (turn system epsilon iteration state).2.viewed (IterationState.reordered order)) := by
  have measured := IterationState.measured_reordered order state system
  cases done : isDone epsilon iteration (state.measured system) with
  | true =>
      have alsoDone :
          isDone epsilon iteration ((state.measured system).reordered order) = true := done
      simp only [turn, measured, done, alsoDone, ↓reduceIte]
      rfl
  | false =>
      have notDone :
          isDone epsilon iteration ((state.measured system).reordered order) = false := done
      obtain ⟨dx, solved⟩ := exists_solution_of_silent system epsilon done silent
      obtain ⟨dy, alsoSolved⟩ :=
        exists_solution_of_silent (reordered order system) epsilon (measured ▸ notDone) alsoSilent
      rw [measured] at alsoSolved
      have step :
          advanced (reordered order system) iteration ((state.measured system).reordered order) =
            ((advanced system iteration (state.measured system)).1,
              (advanced system iteration (state.measured system)).2.reordered order) :=
        advanced_reordered system solved alsoSolved
      have last := IterationState.measured_reordered order
        (advanced system iteration (state.measured system)).2 system
      cases stalled :
          isStalled epsilon iteration (advanced system iteration (state.measured system)).2 with
      | true =>
          have alsoStalled :
              isStalled epsilon iteration
                ((advanced system iteration (state.measured system)).2.reordered order) =
                true :=
            stalled
          simp only [turn, measured, done, notDone, step, stalled, alsoStalled, last,
            Bool.false_eq_true, ↓reduceIte]
          rfl
      | false =>
          have goesOn :
              isStalled epsilon iteration
                ((advanced system iteration (state.measured system)).2.reordered order) =
                false :=
            stalled
          simp only [turn, measured, done, notDone, step, stalled, goesOn, Bool.false_eq_true,
            ↓reduceIte]
          rfl

/--
Newton's method does not depend on the order of the equations. Where no linear solve gives up in
either of two runs on the same equations in different orders, the runs are the same, and uncancelled
runs come to the same result.
-/
theorem run_reordered
    (system : ExpressionSystem ℝ n n)
    (order : Equiv.Perm (Fin n))
    (x : Vector ℝ n)
    (epsilon : ℝ)
    (limit : Int)
    (polls : PollAnswers)
    (silent : ∀ event ∈ (run system x epsilon limit polls).events, event.isSingular = false)
    (alsoSilent :
      ∀ event ∈ (run (reordered order system) x epsilon limit polls).events,
        event.isSingular = false) :
    run (reordered order system) x epsilon limit polls = run system x epsilon limit polls ∧
      ((∀ iteration, polls iteration = false) →
        ∃ result,
          (run system x epsilon limit polls).ending = .returned result ∧
            (run (reordered order system) x epsilon limit polls).ending = .returned result) := by
  have start : (IterationState.atPoint x).reordered order = .atPoint x :=
    IterationState.atPoint_reordered order x
  have atLimit (state : IterationState ℝ n) :
      (scheme (reordered order system) epsilon limit).atLimit (state.reordered order) =
        (scheme system epsilon limit).atLimit state := by
    simp only [scheme, Newton.atLimit, IterationState.measured_reordered]
    rfl
  have same :
      run (reordered order system) x epsilon limit polls = run system x epsilon limit polls := by
    unfold run at silent alsoSilent ⊢
    rw [← start] at alsoSilent
    have viewed := Scheme.runFrom_eq_of_viewed (turn_reordered system epsilon) atLimit silent
      alsoSilent
    rwa [start] at viewed
  refine ⟨same, fun uncancelled => ?_⟩
  obtain ⟨result, returned⟩ :=
    (scheme system epsilon limit).exists_returned_of_uncancelled uncancelled limit.toNat 0
      (.atPoint x) #[]
  exact ⟨result, returned, same ▸ returned⟩

open ExpressionSystem (IsAffine coefficients)

/-- On an affine system with large pivots no linear solve gives up. -/
theorem isSingular_of_affine
    {system : ExpressionSystem ℝ n n}
    (affine : IsAffine system)
    (pivots : HasLargePivots (coefficients system))
    (x : Vector ℝ n)
    (epsilon : ℝ)
    (limit : Int)
    (polls : PollAnswers) :
    ∀ event ∈ (run system x epsilon limit polls).events, event.isSingular = false := by
  have turns
      (iteration : Nat)
      (state : IterationState ℝ n)
      (event : Event ℝ)
      (reported : event ∈ (turn system epsilon iteration state).1) :
      event.isSingular = false := by
    obtain ⟨dx, solved, _⟩ := pivots.exists_solution (opposite (state.measured system).fx)
    have slope :
        FiniteDifference.jacobian system (state.measured system).x (state.measured system).fx =
          coefficients system :=
      FiniteDifference.jacobian_of_isAffine affine state.x
    have nothing : (advanced system iteration (state.measured system)).1 = [] := by
      simp only [advanced, direction, slope, solved]
    unfold turn at reported
    dsimp only at reported
    split at reported
    · rcases List.mem_pair.mp reported with rfl | rfl <;> rfl
    · rw [nothing] at reported
      split at reported
      · rcases List.mem_pair.mp reported with rfl | rfl <;> rfl
      · rw [List.mem_singleton.mp reported]
        rfl
  intro event present
  obtain ⟨last, final, shape⟩ :=
    (scheme system epsilon limit).exists_events_runFrom polls limit.toNat 0 (.atPoint x) #[]
  rw [run, ← Array.mem_toList_iff, shape] at present
  rcases List.mem_append.mp present with turned | ended
  · obtain ⟨taken, _, reported⟩ := List.mem_flatMap.mp turned
    exact turns taken.2 taken.1 event reported
  · rcases final with rfl | ⟨_, rfl⟩
    · cases ended
    · rw [List.mem_singleton.mp ended]
      rfl

/-- A matrix whose rows are in the order in which elimination leaves them. -/
theorem hasLargePivots_triangular :
    HasLargePivots (#v[#v[2, 1], #v[0, 1]] : DenseMatrix ℝ 2 2) := by
  let rows : DenseMatrix ℝ 2 3 := #v[#v[2, 1, 0], #v[0, 1, 0]]
  have highest (i : Fin 2) : pivotRow rows i = i := by
    fin_cases i <;>
      simp [rows, pivotRow, Fin.foldl_succ, DenseMatrix.entry, Vector.get_eq_getElem]
  have kept (i : Fin 2) : ordered rows i = rows := by
    simp [ordered, highest, rows]
  have cleared (i : Fin 2) : clearBelow rows i = rows := by
    apply Exact.ext_get
    intro k
    apply Exact.ext_get
    intro j
    fin_cases i <;> fin_cases k <;> fin_cases j <;>
      simp [rows, clearBelow, DenseMatrix.entry, Vector.get_eq_getElem]
  have tested (i : Fin 2) :
      Arithmetic.less (Arithmetic.magnitude (rows.entry i i.castSucc)) pivotTolerance = false := by
    fin_cases i <;> norm_num [rows, DenseMatrix.entry, Vector.get_eq_getElem, pivotTolerance]
  have stages (i : Fin 2) : stage rows i = .ok rows := by
    rw [stage_eq, kept, tested, cleared, if_neg Bool.false_ne_true]
  have start : augmented #v[#v[2, 1], #v[0, 1]] #v[0, 0] = rows := by
    simp [augmented, rows]
  refine ⟨#v[0, 0], rows, ?_⟩
  rw [start]
  simp only [afterStages, Outcome.bind_eq_ok_iff]
  exact ⟨rows, ⟨rows, rfl, stages 0⟩, stages 1⟩

/-- The lines `y = 3` and `2 x + y = 1` are met by the same turns whichever comes first. -/
theorem twoLines_reordered :
    let system : ExpressionSystem ℝ 2 2 :=
      #v[[⟨1, .single 1⟩, ⟨-3, .one⟩], [⟨2, .single 0⟩, ⟨1, .single 1⟩, ⟨-1, .one⟩]]
    let exchanged : ExpressionSystem ℝ 2 2 :=
      #v[[⟨2, .single 0⟩, ⟨1, .single 1⟩, ⟨-1, .one⟩], [⟨1, .single 1⟩, ⟨-3, .one⟩]]
    reordered (Equiv.swap 0 1) system = exchanged ∧
      ∃ result,
        (run system #v[0, 0] 1 5 PollAnswers.never).ending = .returned result ∧
          (run exchanged #v[0, 0] 1 5 PollAnswers.never).ending = .returned result := by
  intro system exchanged
  have same : reordered (Equiv.swap 0 1) system = exchanged := by
    apply Exact.ext_get
    intro i
    fin_cases i <;> rfl
  have pivots : HasLargePivots (coefficients system) := by
    have matrix : coefficients system = #v[#v[0, 1], #v[2, 1]] := by
      apply Exact.ext_get
      intro i
      apply Exact.ext_get
      intro j
      fin_cases i <;> fin_cases j <;>
        simp [coefficients, system, Expression.coefficient, Vector.get_eq_getElem]
    rw [matrix]
    exact hasLargePivots_exchanged
  have exchangedPivots : HasLargePivots (coefficients exchanged) := by
    have matrix : coefficients exchanged = #v[#v[2, 1], #v[0, 1]] := by
      apply Exact.ext_get
      intro i
      apply Exact.ext_get
      intro j
      fin_cases i <;> fin_cases j <;>
        simp [coefficients, exchanged, Expression.coefficient, Vector.get_eq_getElem]
    rw [matrix]
    exact hasLargePivots_triangular
  have affine : IsAffine system := by
    simp [IsAffine, system, Term.IsAffine, Monomial.toList]
  have exchangedAffine : IsAffine exchanged := by
    simp [IsAffine, exchanged, Term.IsAffine, Monomial.toList]
  refine ⟨same, ?_⟩
  rw [← same] at exchangedPivots exchangedAffine ⊢
  exact (run_reordered system (Equiv.swap 0 1) #v[0, 0] 1 5 PollAnswers.never
    (isSingular_of_affine affine pivots _ _ _ _)
    (isSingular_of_affine exchangedAffine exchangedPivots _ _ _ _)).2 fun _ => rfl

end Newton

end RootFinding
