import RootFinding.Proofs.Exact.Distance
import RootFinding.Proofs.Iteration.Cancellation
import RootFinding.Proofs.Iteration.Learning
import RootFinding.Proofs.Procedure.Trail

/-!
# How far the secant method can go

Every step is along a direction that was cut to length one, and no further than its end. A restart
goes back half of the last step, because no turn restarts before a step was taken. So a turn moves
the run by one and a half at most, and a run gets no further from its start than its turns allow.
-/

namespace RootFinding

open scoped Exact

namespace Secant

open Exact (distance_triangle)
open Procedure.Secant (restarts toIterationState_settled_of_restarts
  toIterationState_settled_of_not_restarts)

variable {n : Nat}
variable {system : ExpressionSystem ℝ n n}
variable {x : Vector ℝ n}
variable {epsilon : ℝ}
variable {limit : Int}
variable {iteration : Nat}
variable {state next : SecantState ℝ n}

section Step

variable (system : ExpressionSystem ℝ n n)
variable (epsilon : ℝ)
variable (iteration : Nat)
variable (state : SecantState ℝ n)

/-- A step ends between its origin and the end of its direction. -/
theorem distance_advanced :
    ∃ share,
      0 < share ∧ share ≤ 1 ∧
        euclideanNorm (difference (advanced system epsilon iteration state).2.x state.x) =
          share * euclideanNorm (direction iteration state).2.1 := by
  obtain ⟨positive, notBeyond⟩ :=
    alpha_backtrack_bounds system state.x (direction iteration state).2.1 (euclideanNorm state.fx)
  refine ⟨_, positive, notBeyond, ?_⟩
  rw [Procedure.Secant.x_advanced, ← abs_of_pos positive]
  exact Exact.distance_moved _ _ _

/-- No step is longer than one. -/
theorem distance_advanced_le :
    euclideanNorm (difference (advanced system epsilon iteration state).2.x state.x) ≤ 1 := by
  obtain ⟨share, positive, notBeyond, length⟩ := distance_advanced system epsilon iteration state
  rw [length]
  exact mul_le_one₀ notBeyond (Exact.euclideanNorm_nonneg _) (euclideanNorm_direction_le _ _)

variable {state} in
/-- A step after a singular linear system is shorter than one hundredth. -/
theorem distance_advanced_lt
    {cause : Singular ℝ}
    (gaveUp : solveLinear state.matrix (opposite state.fx) = .error cause) :
    euclideanNorm (difference (advanced system epsilon iteration state).2.x state.x) < 0.01 := by
  obtain ⟨share, positive, notBeyond, length⟩ := distance_advanced system epsilon iteration state
  have short := euclideanNorm_direction_lt gaveUp iteration
  rw [length]
  exact (mul_le_of_le_one_left (Exact.euclideanNorm_nonneg _) notBeyond).trans_lt short

end Step

/-- The steps that were taken so far led one apart at most, or none was taken and none counted. -/
theorem distance_previous_le
    (reached : (scheme system epsilon limit).stateBefore? (start system x).2 iteration = some state) :
    state.stalls = 0 ∨ euclideanNorm (difference state.x state.previous) ≤ 1 := by
  cases iteration with
  | zero =>
      cases reached
      exact .inl rfl
  | succ earlier =>
      obtain ⟨before, _, turned⟩ := Scheme.exists_onward_of_stateBefore?_succ reached
      obtain ⟨_, rfl, _⟩ := onward_of_turn turned
      right
      rw [stepped, (previous_advanced system epsilon earlier _).1]
      exact distance_advanced_le system epsilon earlier _

/-- A restart goes back half of the last step. -/
theorem distance_settled_le
    (reached :
      (scheme system epsilon limit).stateBefore? (start system x).2 iteration = some state) :
    euclideanNorm (difference (settled system epsilon iteration state).2.x state.x) ≤ 1 / 2 := by
  cases restarted : restarts epsilon state with
  | false =>
      rw [toIterationState_settled_of_not_restarts system restarted, Exact.distance_self]
      norm_num
  | true =>
      rw [toIterationState_settled_of_restarts system restarted]
      have halfway := Exact.distance_midpoint state.x state.previous
      rcases distance_previous_le reached with unused | near
      · simp [restarts, stallLimit, unused] at restarted
      · exact halfway.trans_le (div_le_div_of_nonneg_right near zero_le_two)

/-- A turn moves the run by one and a half at most. -/
theorem distance_stepped_le
    (reached :
      (scheme system epsilon limit).stateBefore? (start system x).2 iteration = some state) :
    euclideanNorm (difference (stepped system epsilon iteration state).x state.x) ≤ 1.5 := by
  have ready := distance_settled_le reached
  have onward := distance_advanced_le system epsilon iteration
    (settled system epsilon iteration state).2
  have both := distance_triangle (stepped system epsilon iteration state).x
    (settled system epsilon iteration state).2.x state.x
  rw [stepped] at both ⊢
  linarith

/-- After some turns a run is no further from its start than they allow. -/
theorem distance_start_le
    (reached :
      (scheme system epsilon limit).stateBefore? (start system x).2 iteration = some state) :
    euclideanNorm (difference state.x x) ≤ 1.5 * iteration := by
  induction iteration generalizing state with
  | zero =>
      cases reached
      have atStart : (start system x).2.x = x := rfl
      rw [atStart, Exact.distance_self]
      norm_num
  | succ iteration inductionHypothesis =>
      obtain ⟨before, beforeReached, turned⟩ := Scheme.exists_onward_of_stateBefore?_succ reached
      obtain ⟨_, rfl, _⟩ := onward_of_turn turned
      have soFar := inductionHypothesis beforeReached
      have onward := distance_stepped_le beforeReached
      have both := distance_triangle (stepped system epsilon iteration before).x before.x x
      push_cast
      linarith

/-- So is the solution of a result, where a negative limit allows no turn. -/
theorem distance_solution_le
    {polls : PollAnswers}
    {result : SolveResult ℝ n}
    (returned : (run system x epsilon limit polls).ending = .returned result) :
    euclideanNorm (difference result.solution x) ≤ 1.5 * max result.iterations 0 := by
  cases Scheme.returns_of_ending returned with
  | finished early reached turned =>
      rename_i iteration state
      have soFar := distance_start_le reached
      rcases finished_of_turn turned with ⟨_, rfl⟩ | ⟨_, _, rfl, _, rfl⟩
      · have here : euclideanNorm (difference state.x x) ≤ 1.5 * max ((iteration : Int) + 1) 0 := by
          rw [max_eq_left (by omega)]
          push_cast
          linarith
        exact here
      · have onward := distance_stepped_le reached
        have both := distance_triangle (stepped system epsilon iteration state).x state.x x
        have there :
            euclideanNorm (difference (stepped system epsilon iteration state).x x) ≤
              1.5 * max ((iteration : Int) + 1) 0 := by
          rw [max_eq_left (by omega)]
          push_cast
          linarith
        exact there
  | exhausted reached =>
      rename_i state
      have soFar := distance_start_le reached
      have counted : ((limit.toNat : Int) : ℝ) = max limit 0 := by
        rw [Int.toNat_eq_max]
      have here : euclideanNorm (difference state.x x) ≤ 1.5 * max limit 0 := by
        rw [← counted]
        exact soFar
      exact here

/--
The secant method cannot run away. In exact arithmetic every step has length one at most, or less
than one hundredth after a singular linear system, and a restart moves the run by one half at most.
So the solution of a run is within one and a half times its iterations from its start.
-/
theorem distance_bounded
    {n : Nat}
    (system : ExpressionSystem ℝ n n)
    (x : Vector ℝ n)
    (epsilon : ℝ)
    (limit : Int)
    (polls : PollAnswers) :
    (∀ iteration state,
        (scheme system epsilon limit).stateBefore? (start system x).2 iteration = some state →
        epsilon ≤ state.error →
        let ready := (settled system epsilon iteration state).2
        let next := stepped system epsilon iteration state
        euclideanNorm (difference next.x ready.x) ≤ 1 ∧
          euclideanNorm (difference ready.x state.x) ≤ 1 / 2 ∧
          (ReportsSingular system epsilon iteration state →
            euclideanNorm (difference next.x ready.x) < 0.01)) ∧
      ∀ result,
        (run system x epsilon limit polls).ending = .returned result →
        euclideanNorm (difference result.solution x) ≤ 1.5 * max result.iterations 0 := by
  refine ⟨?_, fun result => distance_solution_le⟩
  intro iteration state reached _ ready next
  refine ⟨distance_advanced_le system epsilon iteration ready, distance_settled_le reached, ?_⟩
  rintro ⟨cause, reported⟩
  obtain ⟨_, _, gaveUp⟩ := singular_mem_turn_iff.mp reported
  rw [← matrix_settled system epsilon iteration state] at gaveUp
  exact distance_advanced_lt system epsilon iteration gaveUp

/-- A negative limit is reported as the number of iterations, so it allows less than no distance. -/
theorem negative_limit_allows_no_distance :
    let system : ExpressionSystem ℝ 1 1 := #v[[⟨1, .single 0⟩]]
    let run := run system #v[1] 0.01 (-1) PollAnswers.never
    ∃ result,
      run.ending = .returned result ∧
        ¬euclideanNorm (difference result.solution #v[1]) ≤ 1.5 * result.iterations := by
  intro system run
  refine ⟨_, rfl, ?_⟩
  have iterations : ((-1 : Int) : ℝ) = -1 := by norm_num
  have nonneg := Exact.euclideanNorm_nonneg (difference (#v[1] : Vector ℝ 1) #v[1])
  intro bounded
  have same :
      euclideanNorm (difference (#v[1] : Vector ℝ 1) #v[1]) ≤ 1.5 * ((-1 : Int) : ℝ) := bounded
  rw [iterations] at same
  linarith

end Secant

end RootFinding
