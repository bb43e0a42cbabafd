import RootFinding.Proofs.Double.Finite
import RootFinding.Proofs.Double.Norm
import RootFinding.Proofs.Iteration.Count
import RootFinding.Proofs.Outcome
import RootFinding.Proofs.Procedure.Trail

/-!
# How a run leaves the finite points

The direction of a step is finite exactly where the residuals at its origin are, however the linear
solve went: the damped step takes a tiny share of them, which keeps finite residuals finite but makes
no others so. A run from a finite point thus stays finite up to a definite landmark: a step from a
finite point with residuals that overflowed, a sum that overflows along a finite direction, or a
restart between two points so far out that their sum overflows.
-/

namespace RootFinding

open Double

section Directions

variable {n : Nat}

/-- A damped step is finite exactly if the residuals are. -/
theorem allFinite_dampedStep (fx : Vector Float n) :
    allFinite (dampedStep fx) = allFinite fx := by
  rw [Bool.eq_iff_iff]
  constructor
  · intro finite
    rw [allFinite_iff, dampedStep, Vector.forall_mem_map] at finite
    rw [allFinite_iff]
    exact fun entry member => isFinite_of_mul (finite entry member)
  · intro finite
    have share := isBelow_dampingShare (isMagnitude_norm finite)
    rw [allFinite_iff] at finite
    rw [allFinite_iff, dampedStep, Vector.forall_mem_map]
    exact fun entry member => isFinite_neg_mul share (finite entry member)

/-- What comes out of a linear solve is finite, and so is what went in. -/
theorem allFinite_of_solveLinear
    {A : DenseMatrix Float n n}
    {b dx : Vector Float n}
    (solved : solveLinear A b = .ok dx) :
    allFinite b = true ∧ allFinite dx = true := by
  unfold solveLinear at solved
  split at solved
  · rename_i finite
    rw [Bool.and_eq_true] at finite
    obtain ⟨rows, _, solved⟩ := Outcome.bind_eq_ok_iff.mp solved
    dsimp only at solved
    split at solved
    · rename_i solutionFinite
      cases solved
      exact ⟨finite.2, solutionFinite⟩
    · cases solved
  · cases solved

/-- Newton's method walks along a finite direction exactly where its residuals are finite. -/
theorem Newton.allFinite_direction
    (iteration : Nat)
    (jacobian : DenseMatrix Float n n)
    (fx : Vector Float n) :
    allFinite (Newton.direction iteration jacobian fx).2 = allFinite fx := by
  unfold Newton.direction
  split
  · rename_i solved
    obtain ⟨finite, solutionFinite⟩ := allFinite_of_solveLinear solved
    rw [allFinite_opposite] at finite
    rw [finite, solutionFinite]
  · exact allFinite_dampedStep fx

namespace Secant

/-- Cutting a step to length one neither makes nor loses a finite step. -/
theorem allFinite_capped (dx : Vector Float n) : allFinite (capped dx) = allFinite dx := by
  unfold capped
  dsimp only
  split
  · rename_i long
    rw [Bool.eq_iff_iff, allFinite_iff, allFinite_iff, Vector.forall_mem_map]
    constructor
    · exact fun finite entry member => isFinite_of_div (finite entry member)
    · exact fun finite entry member => isFinite_div (finite entry member) long
  · rfl

/-- The secant method walks along a finite direction exactly where its residuals are finite. -/
theorem allFinite_direction
    (iteration : Nat)
    (state : SecantState Float n) :
    allFinite (direction iteration state).2.1 = allFinite state.fx := by
  unfold direction
  split
  · rename_i solved
    obtain ⟨finite, solutionFinite⟩ := allFinite_of_solveLinear solved
    rw [allFinite_opposite] at finite
    rw [allFinite_capped, finite, solutionFinite]
  · rw [allFinite_capped, allFinite_dampedStep]

end Secant

end Directions

namespace Landmark

variable {n : Nat}

/-- The direction of a step is finite exactly if the residuals at its origin are. -/
def FollowsResiduals (system : ExpressionSystem Float n n) : Landmark Float n → Prop
  | .walked step => allFinite step.direction = allFinite (residuals system step.origin)
  | _ => True

/-- A landmark at which a run leaves the finite points. -/
inductive LeavesFinite (system : ExpressionSystem Float n n) : Landmark Float n → Prop where
  | residuals
      {step : Step Float n}
      (origin : allFinite step.origin = true)
      (overflowed : allFinite (RootFinding.residuals system step.origin) = false)
      (direction : allFinite step.direction = false) :
      LeavesFinite system (.walked step)
  | sum
      {step : Step Float n}
      (origin : allFinite step.origin = true)
      (direction : allFinite step.direction = true)
      (target : allFinite step.target = false) :
      LeavesFinite system (.walked step)
  | midpoint
      {point : Vector Float n}
      (overflowed : allFinite point = false) :
      LeavesFinite system (.restarted point)

/-- The point at which a run stands after a landmark. -/
def place : Landmark Float n → Vector Float n
  | .measured point _ => point
  | .walked step => step.target
  | .restarted point => point

variable {system : ExpressionSystem Float n n}
variable {lengths : List Float}

/-- From one landmark to the next a run stays finite or leaves the finite points. -/
theorem allFinite_place_or_leavesFinite
    {prior next : Landmark Float n}
    (precedes : Precedes system lengths prior next)
    (follows : FollowsResiduals system next)
    (finite : allFinite prior.place = true) :
    allFinite next.place = true ∨ LeavesFinite system next := by
  cases next with
  | measured point error =>
      left
      cases prior with
      | measured _ _ => cases precedes
      | walked step =>
          obtain ⟨rfl, _⟩ := precedes
          exact finite
      | restarted origin =>
          obtain ⟨rfl, _⟩ := precedes
          exact finite
  | restarted point =>
      cases outcome : allFinite point with
      | true => exact .inl outcome
      | false => exact .inr (.midpoint outcome)
  | walked step =>
      have origin : allFinite step.origin = true := by
        cases prior with
        | measured point error =>
            obtain ⟨rfl, _⟩ := precedes
            exact finite
        | walked _ => cases precedes
        | restarted _ => cases precedes
      cases outcome : allFinite step.target with
      | true => exact .inl outcome
      | false =>
          right
          cases direction : allFinite step.direction with
          | true => exact .sum origin direction outcome
          | false => exact .residuals origin (follows.symm.trans direction) direction

/-- A trail from a finite point ends at one, or leaves the finite points at one of its landmarks. -/
theorem Leads.allFinite_or_leavesFinite
    {prior last : Landmark Float n}
    {path : List (Landmark Float n)}
    (leads : Leads system lengths prior path last)
    (follows : ∀ mark ∈ path, FollowsResiduals system mark)
    (finite : allFinite prior.place = true) :
    allFinite last.place = true ∨ ∃ mark ∈ path, LeavesFinite system mark := by
  induction path generalizing prior with
  | nil =>
      have same := leads.ends
      rw [List.getLast?_singleton, Option.some.injEq] at same
      exact .inl (same ▸ finite)
  | cons next path inductionHypothesis =>
      obtain ⟨precedes, chain⟩ := List.isChain_cons_cons.mp leads.chain
      obtain ⟨nextFollows, laterFollow⟩ := List.forall_mem_cons.mp follows
      have ends := leads.ends
      rw [List.getLast?_cons_cons] at ends
      rcases allFinite_place_or_leavesFinite precedes nextFollows finite with stays | leaves
      · rcases inductionHypothesis ⟨chain, ends⟩ laterFollow stays with
          arrives | ⟨mark, member, leaves⟩
        · exact .inl arrives
        · exact .inr ⟨mark, List.mem_cons_of_mem _ member, leaves⟩
      · exact .inr ⟨next, List.mem_cons_self, leaves⟩

end Landmark

namespace Procedure

variable {n : Nat}
variable (system : ExpressionSystem Float n n)

variable {system} in
/-- A measurement is no step, so it says nothing of directions. -/
theorem followsResiduals_measured
    {state : IterationState Float n}
    {mark : Landmark Float n}
    (member : mark ∈ ((measured state).ledger system).landmarks) :
    mark.FollowsResiduals system := by
  rw [ledger_measured, List.mem_singleton] at member
  subst mark
  trivial

namespace Newton

variable {system} in
/-- An advance of Newton's method goes where its residuals lead it. -/
theorem followsResiduals_advanced
    {iteration : Nat}
    {state : IterationState Float n}
    {mark : Landmark Float n}
    (member :
      mark ∈ ((advanced iteration (state.measured system)).ledger system).landmarks) :
    mark.FollowsResiduals system := by
  rw [ledger_advanced, List.mem_singleton] at member
  subst mark
  exact RootFinding.Newton.allFinite_direction _ _ _

/-- A turn of Newton's method goes where its residuals lead it. -/
theorem followsResiduals_turn
    {epsilon : Float}
    {iteration : Nat}
    {state : IterationState Float n}
    {mark : Landmark Float n}
    (member : mark ∈ ((turn epsilon iteration state).ledger system).landmarks) :
    mark.FollowsResiduals system := by
  cases done : RootFinding.Newton.isDone epsilon iteration (state.measured system) with
  | true =>
      rw [ledger_turn_of_done done] at member
      exact followsResiduals_measured member
  | false =>
      cases stalled :
          RootFinding.Newton.isStalled epsilon iteration
            (RootFinding.Newton.advanced system iteration (state.measured system)).2 with
      | false =>
          rw [ledger_turn_of_onward done stalled, Ledger.landmarks_append] at member
          rcases List.mem_append.mp member with first | stepped
          · exact followsResiduals_measured first
          · exact followsResiduals_advanced stepped
      | true =>
          rw [ledger_turn_of_stalled done stalled, Ledger.landmarks_append,
            Ledger.landmarks_append] at member
          rcases List.mem_append.mp member with first | later
          · exact followsResiduals_measured first
          · rcases List.mem_append.mp later with stepped | last
            · exact followsResiduals_advanced stepped
            · exact followsResiduals_measured last

end Newton

namespace Secant

/-- A restart of the secant method goes where its residuals lead it. -/
theorem followsResiduals_settled
    {epsilon : Float}
    {iteration : Nat}
    {state : SecantState Float n}
    {mark : Landmark Float n}
    (member : mark ∈ ((settled epsilon iteration state).ledger system).landmarks) :
    mark.FollowsResiduals system := by
  cases restarted : restarts epsilon state with
  | true =>
      rw [ledger_settled_of_restarts system restarted] at member
      simp only [List.mem_cons, List.not_mem_nil, or_false] at member
      rcases member with rfl | rfl <;> trivial
  | false =>
      rw [ledger_settled_of_not_restarts system restarted] at member
      cases member

variable {system} in
/-- An advance of the secant method goes where its residuals lead it. -/
theorem followsResiduals_advanced
    {epsilon : Float}
    {iteration : Nat}
    {state : SecantState Float n}
    (measured : state.toIterationState.IsMeasured system)
    {mark : Landmark Float n}
    (member : mark ∈ ((advanced epsilon iteration state).ledger system).landmarks) :
    mark.FollowsResiduals system := by
  rw [ledger_advanced] at member
  simp only [List.mem_cons, List.not_mem_nil, or_false] at member
  rcases member with rfl | rfl
  · have direction := RootFinding.Secant.allFinite_direction iteration state
    rw [measured.fx_eq] at direction
    exact direction
  · trivial

variable {system} in
/-- A turn of the secant method goes where its residuals lead it. -/
theorem followsResiduals_turn
    {epsilon : Float}
    {iteration : Nat}
    {state : SecantState Float n}
    (measured : state.toIterationState.IsMeasured system)
    {mark : Landmark Float n}
    (member : mark ∈ ((turn epsilon iteration state).ledger system).landmarks) :
    mark.FollowsResiduals system := by
  cases small : Arithmetic.less state.error epsilon with
  | true =>
      rw [ledger_turn_of_small system small] at member
      cases member
  | false =>
      rw [ledger_turn_of_large system small, Ledger.landmarks_append] at member
      rcases List.mem_append.mp member with settling | stepping
      · exact followsResiduals_settled system settling
      · exact followsResiduals_advanced
          (RootFinding.Secant.isMeasured_settled measured epsilon iteration) stepping

end Secant

end Procedure

/-- Every step of a run follows the residuals at its origin. -/
theorem Method.followsResiduals_procedure
    {n : Nat}
    (method : Method)
    (system : ExpressionSystem Float n n)
    (x : Vector Float n)
    (epsilon : Float)
    (limit : Int)
    (polls : PollAnswers) :
    ∀ mark ∈ ((method.procedure x epsilon limit polls).ledger system).landmarks,
      mark.FollowsResiduals system := by
  cases method with
  | newton =>
      refine (Procedure.Newton.performs system epsilon limit).forall_landmarks_runFrom polls
        (fun _ => True) ?turns ?kept ?atLimit trivial #[]
      case turns =>
        exact fun _ mark member => Procedure.Newton.followsResiduals_turn system member
      case kept =>
        exact fun _ _ => trivial
      case atLimit =>
        intro state _ mark member
        have ledger_eq :
            (Procedure.Newton.atLimit epsilon limit state).ledger system =
              (Procedure.measured state).ledger system :=
          Procedure.Newton.ledger_atLimit limit
        have measurement : mark ∈ ((Procedure.measured state).ledger system).landmarks := by
          rw [← ledger_eq]
          exact member
        exact Procedure.followsResiduals_measured measurement
  | secant =>
      rw [Method.procedure, Procedure.Secant.ledger_run, Ledger.landmarks_append,
        Procedure.Secant.ledger_start, List.forall_mem_append]
      refine ⟨by simp [Landmark.FollowsResiduals], ?_⟩
      refine (Procedure.Secant.performs system epsilon limit).forall_landmarks_runFrom polls
        (fun state => state.toIterationState.IsMeasured system)
        ?turns ?kept ?atLimit (Secant.isMeasured_start system x) _
      case turns =>
        exact fun measured mark member => Procedure.Secant.followsResiduals_turn measured member
      case kept =>
        intro iteration state reported next _ turned
        obtain ⟨_, rfl, _⟩ := Secant.onward_of_turn (congrArg Prod.snd turned)
        exact Secant.isMeasured_advanced system epsilon iteration _
      case atLimit =>
        intro state _ mark member
        cases member

/--
Every step of a run has a finite direction exactly if the residuals at its origin are finite, whether
or not the linear solve gave up. A run from a finite point comes to a finite solution, or there is a
landmark at which it leaves the finite points.
-/
theorem solution_isFinite_or_leavesFinite
    {n : Nat}
    (method : Method)
    (system : ExpressionSystem Float n n)
    {x : Vector Float n}
    (finite : allFinite x = true)
    (epsilon : Float)
    (limit : Int)
    (polls : PollAnswers)
    {result : SolveResult Float n}
    (returned : (method.run system x epsilon limit polls).ending = .returned result) :
    let landmarks := ((method.procedure x epsilon limit polls).ledger system).landmarks
    (∀ step,
        .walked step ∈ landmarks →
        allFinite step.direction = allFinite (residuals system step.origin)) ∧
      (allFinite result.solution = true ∨
        ∃ mark ∈ landmarks, mark.LeavesFinite system) := by
  intro landmarks
  have follows := method.followsResiduals_procedure system x epsilon limit polls
  obtain ⟨last, leads, reported⟩ := method.leads_procedure system x epsilon limit polls
  obtain rfl := reported result returned
  exact ⟨fun step walked => follows _ walked, leads.allFinite_or_leavesFinite follows finite⟩

/-- The square of one variable and another variable by itself. -/
def squareAndLine (squared plain : Fin 2) : ExpressionSystem Float 2 2 :=
  #v[[⟨1.0, .product squared squared⟩], [⟨1.0, .single plain⟩]]

/-- The square and the line end at a point that is not finite. -/
private theorem passes_run_squareAndLine :
    (Method.newton.run (squareAndLine 0 1) #v[1e200, 1.0] 0.01 10 .never).ending.passes
      (fun result => !allFinite result.solution) = true := by
  decide +kernel

/-- A finite start far out comes to a solution that is not finite. -/
theorem far_start_leaves_finite :
    allFinite (#v[1e200, 1.0] : Vector Float 2) = true ∧
      ∃ result,
        (Method.newton.run (squareAndLine 0 1) #v[1e200, 1.0] 0.01 10 .never).ending =
            .returned result ∧
          allFinite result.solution = false := by
  obtain ⟨result, returned, spoiled⟩ := Ending.exists_of_passes passes_run_squareAndLine
  exact ⟨by decide +kernel, result, returned, (Bool.not_eq_true' _).mp spoiled⟩

/-- From there the run leaves the finite points at a definite landmark. -/
theorem squareAndLine_leavesFinite :
    ∃ mark ∈
        ((Method.newton.procedure #v[1e200, 1.0] 0.01 10 .never).ledger
          (squareAndLine 0 1)).landmarks,
      mark.LeavesFinite (squareAndLine 0 1) := by
  obtain ⟨result, returned, spoiled⟩ := Ending.exists_of_passes passes_run_squareAndLine
  rw [Bool.not_eq_true'] at spoiled
  obtain ⟨_, stays | leaves⟩ :=
    solution_isFinite_or_leavesFinite .newton (squareAndLine 0 1) (x := #v[1e200, 1.0])
      (by decide +kernel) 0.01 10 .never returned
  · rw [spoiled] at stays
    cases stays
  · exact leaves

end RootFinding
