import RootFinding.Proofs.Iteration.Restarts
import RootFinding.Proofs.Iteration.Turns

/-!
# When the secant method restarts

The counter in the state says how many turns in a row were stalled since the last restart, so a turn
restarts exactly if it is the eleventh of a stretch of stalled turns. Everything else about restarts
is read off this law: none comes early, no two are close, and where the error never changes they
come at regular distances.
-/

namespace RootFinding

namespace Secant

open Procedure.Secant (restarts)

section Counting

variable {K : Type} [Scalar K] {n : Nat}
variable {system : ExpressionSystem K n n}
variable {x : Vector K n}
variable {epsilon : K}
variable {limit : Int}
variable {polls : PollAnswers}
variable {iteration : Nat}
variable {state : SecantState K n}

/-- The errors that a run reports are those of its states. -/
theorem getElem?_errors
    (taken : (runStates system x epsilon limit polls)[iteration]? = some state) :
    (run system x epsilon limit polls).errors[iteration]? = some state.error := by
  rw [errors_run, List.getElem?_map, taken]
  rfl

/-- The error that a state remembers is the one with which the turn before began. -/
theorem getElem?_errors_pred
    (taken : (runStates system x epsilon limit polls)[iteration]? = some state) :
    (run system x epsilon limit polls).errors[iteration - 1]? = some state.previousError := by
  rcases cases_of_getElem?_runStates taken with
    ⟨rfl, rfl⟩ | ⟨earlier, before, rfl, beforeTaken, _, rfl⟩
  · exact getElem?_errors taken
  · rw [previousError_stepped]
    exact getElem?_errors beforeTaken

/-- The log calls a turn stalled where its state does. -/
theorem isStalledAt_iff
    (taken : (runStates system x epsilon limit polls)[iteration]? = some state) :
    (run system x epsilon limit polls).IsStalledAt epsilon iteration ↔
      isStalled epsilon state = true := by
  constructor
  · rintro ⟨error, before, here, there, close⟩
    rw [getElem?_errors taken, Option.some.injEq] at here
    rw [getElem?_errors_pred taken, Option.some.injEq] at there
    subst error before
    exact close
  · intro close
    exact ⟨_, _, getElem?_errors taken, getElem?_errors_pred taken, close⟩

/-- A turn whose state is kept is not among the restarts. -/
theorem not_mem_restarts
    (taken : (runStates system x epsilon limit polls)[iteration]? = some state)
    (kept : restarts epsilon state = false) :
    iteration ∉ (run system x epsilon limit polls).restarts := by
  rw [mem_restarts_run]
  rintro ⟨other, otherTaken, _, restarted⟩
  rw [taken, Option.some.injEq] at otherTaken
  subst other
  rw [kept] at restarted
  cases restarted

/-- The number of stalled turns in a row that a state adds its own turn to. -/
def stretch (epsilon : K) (state : SecantState K n) : Nat :=
  if isStalled epsilon state then state.stalls + 1 else 0

/-- A state is restarted when it stalls and ten turns before it did. -/
theorem restarts_iff :
    restarts epsilon state = true ↔ isStalled epsilon state = true ∧ 10 ≤ state.stalls := by
  simp only [restarts, stallLimit, Bool.and_eq_true, decide_eq_true_eq, Nat.lt_succ_iff]

/-- The counter never passes ten. -/
theorem stalls_le
    (taken : (runStates system x epsilon limit polls)[iteration]? = some state) :
    state.stalls ≤ 10 := by
  rcases cases_of_getElem?_runStates taken with
    ⟨rfl, rfl⟩ | ⟨earlier, before, rfl, beforeTaken, _, rfl⟩
  · exact Nat.zero_le 10
  · rw [stalls_stepped]
    split
    · rename_i counted
      have few : ¬10 ≤ before.stalls := by
        intro many
        have restarted := restarts_iff.mpr ⟨counted.1, many⟩
        rw [counted.2] at restarted
        cases restarted
      omega
    · exact Nat.zero_le 10

/-- The counter measures the stretch of stalled turns that ends with a turn. -/
theorem isGreatest_stretch
    (taken : (runStates system x epsilon limit polls)[iteration]? = some state) :
    IsGreatest {count | (run system x epsilon limit polls).IsStalledFor epsilon count iteration}
      (stretch epsilon state) := by
  induction iteration generalizing state with
  | zero =>
      cases stalled : isStalled epsilon state with
      | false =>
          rw [stretch, stalled, if_neg Bool.false_ne_true]
          exact Run.isGreatest_zero ((isStalledAt_iff taken).not.mpr (by simp [stalled]))
      | true =>
          obtain ⟨_, rfl⟩ | ⟨_, _, impossible, _⟩ := cases_of_getElem?_runStates taken
          · rw [stretch, stalled, if_pos rfl]
            exact Run.isGreatest_one ((isStalledAt_iff taken).mpr stalled) (.inl rfl)
          · cases impossible
  | succ iteration inductionHypothesis =>
      cases stalled : isStalled epsilon state with
      | false =>
          rw [stretch, stalled, if_neg Bool.false_ne_true]
          exact Run.isGreatest_zero ((isStalledAt_iff taken).not.mpr (by simp [stalled]))
      | true =>
          rw [stretch, stalled, if_pos rfl]
          have here := (isStalledAt_iff taken).mpr stalled
          obtain ⟨impossible, _⟩ | ⟨earlier, before, same, beforeTaken, large, stepped_eq⟩ :=
            cases_of_getElem?_runStates taken
          · cases impossible
          · cases same
            have counted : state.stalls =
                if restarts epsilon before then 0 else stretch epsilon before := by
              rw [stepped_eq, stalls_stepped, stretch]
              cases restarts epsilon before <;> simp
            rw [counted]
            cases restarted : restarts epsilon before with
            | true =>
                exact Run.isGreatest_one here
                  (.inr (mem_restarts_run.mpr ⟨before, beforeTaken, large, restarted⟩))
            | false =>
                exact Run.isGreatest_succ here (not_mem_restarts beforeTaken restarted)
                  (inductionHypothesis beforeTaken)

/-- A turn restarts exactly if it is the eleventh in a stretch of stalled turns. -/
theorem mem_restarts_iff :
    iteration ∈ (run system x epsilon limit polls).restarts ↔
      (∃ error,
          (run system x epsilon limit polls).errors[iteration]? = some error ∧
            Arithmetic.less error epsilon = false) ∧
        (run system x epsilon limit polls).IsStalledAt epsilon iteration ∧
        IsGreatest
          {count | (run system x epsilon limit polls).IsStalledFor epsilon count iteration} 11 := by
  rw [mem_restarts_run]
  constructor
  · rintro ⟨state, taken, large, restarted⟩
    obtain ⟨stalled, many⟩ := restarts_iff.mp restarted
    have few := stalls_le taken
    have eleven : stretch epsilon state = 11 := by
      rw [stretch, if_pos stalled]
      omega
    exact ⟨⟨_, getElem?_errors taken, large⟩, (isStalledAt_iff taken).mpr stalled,
      eleven ▸ isGreatest_stretch taken⟩
  · rintro ⟨⟨error, here, large⟩, stalledAt, greatest⟩
    rw [errors_run, List.getElem?_map, Option.map_eq_some_iff] at here
    obtain ⟨state, taken, rfl⟩ := here
    have stalled := (isStalledAt_iff taken).mp stalledAt
    have eleven := greatest.unique (isGreatest_stretch taken)
    rw [stretch, if_pos stalled] at eleven
    exact ⟨state, taken, large, restarts_iff.mpr ⟨stalled, by omega⟩⟩

/-- There is no restart within the first ten turns. -/
theorem ten_le_of_mem_restarts
    (restarted : iteration ∈ (run system x epsilon limit polls).restarts) :
    10 ≤ iteration := by
  obtain ⟨_, _, stretch, _⟩ := mem_restarts_iff.mp restarted
  have enough := stretch.count_le
  omega

/-- The turns from one restart to the next are eleven or more. -/
theorem pairwise_restarts :
    (run system x epsilon limit polls).restarts.Pairwise fun earlier later =>
      earlier + 11 ≤ later := by
  have ordered : (run system x epsilon limit polls).restarts.Pairwise (· < ·) :=
    List.Pairwise.sublist restarts_run_sublist List.pairwise_lt_range
  apply ordered.imp_of_mem
  intro earlier later earlierRestarted laterRestarted before
  obtain ⟨_, _, stretch, _⟩ := mem_restarts_iff.mp laterRestarted
  by_contra close
  exact stretch.undisturbed earlier before (by omega) earlierRestarted

/-- Numbers at distances of eleven or more need as much room. -/
theorem length_mul_eleven_le
    {turns : List Nat}
    {first beyond : Nat}
    (apart : turns.Pairwise fun earlier later => earlier + 11 ≤ later)
    (above : ∀ turn ∈ turns, first + 10 ≤ turn)
    (below : ∀ turn ∈ turns, turn < beyond)
    (room : first ≤ beyond) :
    first + 11 * turns.length ≤ beyond := by
  induction turns generalizing first with
  | nil =>
      simpa using room
  | cons turn later inductionHypothesis =>
      rw [List.pairwise_cons] at apart
      have here := above turn List.mem_cons_self
      have inside := below turn List.mem_cons_self
      have rest : turn + 1 + 11 * later.length ≤ beyond :=
        inductionHypothesis apart.2
          (fun other present => by have far := apart.1 other present; omega)
          (fun other present => below other (List.mem_cons_of_mem turn present))
          inside
      rw [List.length_cons]
      omega

/-- Of eleven turns at most one restarts. -/
theorem length_restarts_le :
    (run system x epsilon limit polls).restarts.length ≤
      (run system x epsilon limit polls).errors.length / 11 := by
  have room :
      0 + 11 * (run system x epsilon limit polls).restarts.length ≤
        (run system x epsilon limit polls).errors.length :=
    length_mul_eleven_le pairwise_restarts
      (fun turn restarted => by have enough := ten_le_of_mem_restarts restarted; omega)
      (fun turn restarted => List.mem_range.mp (restarts_run_sublist.mem restarted))
      (Nat.zero_le _)
  omega

/-- A result counts the turns whose errors the log shows. -/
theorem length_errors
    {result : SolveResult K n}
    (returned : (run system x epsilon limit polls).ending = .returned result) :
    (run system x epsilon limit polls).errors.length = result.iterations.toNat := by
  have counted :=
    (numbersTurns system epsilon limit).length_turnStates (Nat.zero_add limit.toNat) returned
  rw [errors_run, List.length_map, ← counted, Nat.zero_add]
  rfl

end Counting

section Constant

variable {n : Nat}
variable {system : ExpressionSystem Float n n}
variable {x : Vector Float n}
variable {epsilon error : Float}
variable {limit : Int}
variable {polls : PollAnswers}

/-- Where the error never changes every turn is stalled, for its difference is zero. -/
theorem isStalled_of_constant
    (finite : Arithmetic.isFinite error = true)
    (bound : Arithmetic.less 0.0 (epsilon * 1e-3) = true)
    (constant : ∀ reported ∈ (run system x epsilon limit polls).errors, reported = error)
    {iteration : Nat}
    {state : SecantState Float n}
    (taken : (runStates system x epsilon limit polls)[iteration]? = some state) :
    isStalled epsilon state = true := by
  have here := constant _ (List.mem_of_getElem? (getElem?_errors taken))
  have before := constant _ (List.mem_of_getElem? (getElem?_errors_pred taken))
  rw [isStalled, here, before]
  exact Double.less_of_zero (Double.value_magnitude_of_zero (Double.value_sub_self finite)) bound

/-- Where the error never changes the counter goes round with a period of eleven. -/
theorem stalls_of_constant
    (finite : Arithmetic.isFinite error = true)
    (bound : Arithmetic.less 0.0 (epsilon * 1e-3) = true)
    (constant : ∀ reported ∈ (run system x epsilon limit polls).errors, reported = error)
    {iteration : Nat}
    {state : SecantState Float n}
    (taken : (runStates system x epsilon limit polls)[iteration]? = some state) :
    state.stalls = iteration % 11 := by
  induction iteration generalizing state with
  | zero =>
      obtain ⟨_, rfl⟩ | ⟨_, _, impossible, _⟩ := cases_of_getElem?_runStates taken
      · rfl
      · cases impossible
  | succ iteration inductionHypothesis =>
      obtain ⟨impossible, _⟩ | ⟨earlier, before, same, beforeTaken, _, rfl⟩ :=
        cases_of_getElem?_runStates taken
      · cases impossible
      · cases same
        have stalled := isStalled_of_constant finite bound constant beforeTaken
        have counted := inductionHypothesis beforeTaken
        rw [stalls_stepped, counted]
        cases restarted : restarts epsilon before with
        | true =>
            have many := (restarts_iff.mp restarted).2
            simp only [Bool.true_eq_false, and_false, ↓reduceIte]
            omega
        | false =>
            have few : ¬10 ≤ before.stalls := by
              intro many
              rw [restarts_iff.mpr ⟨stalled, many⟩] at restarted
              cases restarted
            simp only [stalled, and_self, ↓reduceIte]
            omega

/-- Where the error never changes every eleventh turn restarts. -/
theorem restarts_of_constant
    (finite : Arithmetic.isFinite error = true)
    (large : Arithmetic.less error epsilon = false)
    (bound : Arithmetic.less 0.0 (epsilon * 1e-3) = true)
    (constant : ∀ reported ∈ (run system x epsilon limit polls).errors, reported = error) :
    (run system x epsilon limit polls).restarts =
      (List.range ((run system x epsilon limit polls).errors.length / 11)).map fun period =>
        11 * period + 10 := by
  have reported : (run system x epsilon limit polls).restarts.Pairwise (· < ·) :=
    List.Pairwise.sublist restarts_run_sublist List.pairwise_lt_range
  have regular :
      ((List.range ((run system x epsilon limit polls).errors.length / 11)).map fun period =>
        11 * period + 10).Pairwise (· < ·) := by
    rw [List.pairwise_map]
    exact List.pairwise_lt_range.imp fun earlier => by omega
  apply reported.eq_of_mem_iff regular
  intro iteration
  have everyEleventh :
      iteration ∈ (run system x epsilon limit polls).restarts ↔
        iteration < (run system x epsilon limit polls).errors.length ∧ iteration % 11 = 10 := by
    rw [mem_restarts_run, errors_run, List.length_map]
    constructor
    · rintro ⟨state, taken, _, restarted⟩
      obtain ⟨present, _⟩ := List.getElem?_eq_some_iff.mp taken
      have many := (restarts_iff.mp restarted).2
      have counted := stalls_of_constant finite bound constant taken
      exact ⟨present, by omega⟩
    · rintro ⟨present, eleventh⟩
      have taken := List.getElem?_eq_getElem present
      have here := constant _ (List.mem_of_getElem? (getElem?_errors taken))
      have stalled := isStalled_of_constant finite bound constant taken
      have counted := stalls_of_constant finite bound constant taken
      exact ⟨_, taken, here ▸ large, restarts_iff.mpr ⟨stalled, by omega⟩⟩
  rw [everyEleventh]
  simp only [List.mem_map, List.mem_range]
  constructor
  · rintro ⟨present, eleventh⟩
    exact ⟨iteration / 11, by omega, by omega⟩
  · rintro ⟨period, inside, rfl⟩
    exact ⟨by omega, by omega⟩

end Constant

/--
A run restarts in a turn exactly if that turn finds no small error and is the eleventh in a stretch
of stalled turns. So no restart comes before turn ten, restarts are eleven turns or more apart, and
at most one of eleven turns restarts. Where the error never changes, every eleventh turn restarts,
provided that a thousandth of the tolerance is positive as a double.
-/
theorem restarts_after_eleven_stalled
    {n : Nat}
    (system : ExpressionSystem Float n n)
    (x : Vector Float n)
    (epsilon : Float)
    (limit : Int)
    (polls : PollAnswers) :
    let run := run system x epsilon limit polls
    (∀ iteration,
        iteration ∈ run.restarts ↔
          (∃ error, run.errors[iteration]? = some error ∧ Arithmetic.less error epsilon = false) ∧
            run.IsStalledAt epsilon iteration ∧
            IsGreatest {count | run.IsStalledFor epsilon count iteration} 11) ∧
      (∀ iteration ∈ run.restarts, 10 ≤ iteration) ∧
      (run.restarts.Pairwise fun earlier later => earlier + 11 ≤ later) ∧
      run.restarts.length ≤ run.errors.length / 11 ∧
      (∀ result, run.ending = .returned result →
        run.errors.length = result.iterations.toNat) ∧
      ∀ error,
        Arithmetic.isFinite error = true →
        Arithmetic.less error epsilon = false →
        Arithmetic.less 0.0 (epsilon * 1e-3) = true →
        (∀ reported ∈ run.errors, reported = error) →
          run.restarts = (List.range (run.errors.length / 11)).map fun period =>
            11 * period + 10 :=
  ⟨fun _ => mem_restarts_iff, fun _ => ten_le_of_mem_restarts, pairwise_restarts,
    length_restarts_le, fun _ => length_errors,
    fun _ finite large bound => restarts_of_constant finite large bound⟩

/-- Of twelve turns on a constant residual the eleventh restarts. -/
theorem constant_residual_restarts :
    let system : ExpressionSystem Float 1 1 := #v[[⟨1.0, .one⟩]]
    let run := run system #v[0.0] 0.01 12 PollAnswers.never
    run.errors = List.replicate 12 1.0 ∧ run.restarts = [10] := by
  intro system run
  have errors : run.errors = List.replicate 12 1.0 := by
    decide +kernel
  obtain ⟨_, _, _, _, _, periodic⟩ :=
    restarts_after_eleven_stalled system #v[0.0] 0.01 12 PollAnswers.never
  have regular := periodic 1.0 (by decide +kernel) (by decide +kernel) (by decide +kernel)
    (fun reported present => List.eq_of_mem_replicate (errors ▸ present))
  refine ⟨errors, regular.trans ?_⟩
  rw [show run.errors.length = 12 from congrArg List.length errors]
  rfl

/--
A thousandth of the least positive double is zero. So with that tolerance no turn is stalled, and a
run of twelve turns on a constant residual does not restart.
-/
theorem least_tolerance_never_restarts :
    let system : ExpressionSystem Float 1 1 := #v[[⟨1.0, .one⟩]]
    let run := run system #v[0.0] 5e-324 12 PollAnswers.never
    Arithmetic.less 0.0 (5e-324 : Float) = true ∧
      run.ending.passes (fun result => result.iterations = 12) = true ∧
      run.errors = List.replicate 12 1.0 ∧
      Arithmetic.isFinite (1.0 : Float) = true ∧
      Arithmetic.less (1.0 : Float) 5e-324 = false ∧
      run.restarts ≠ [10] := by
  decide +kernel

end Secant

end RootFinding
