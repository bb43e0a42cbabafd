import RootFinding.Proofs.Double.Norm
import RootFinding.Proofs.Procedure.Accounting
import RootFinding.Proofs.Procedure.Descent

/-!
# What a converged result of the secant method says of its start

A run that ends with an error below the tolerance has improved on a start with a larger error. One
exit asks for less: a run that hardly moves any more is called converged up to ten times the
tolerance. Its error may then be no smaller than the first one, but only where a step was forced or
the run restarted, because all other steps make the error smaller. A start with an undefined error
never comes to a defined one, so no run from it converges.
-/

namespace RootFinding

namespace Landmark

variable {K : Type} [Scalar K] [ExactlyOrdered K] {n : Nat}
variable {system : ExpressionSystem K n n}
variable {lengths : List K}

/-- Along a trail without forced steps and restarts the last error is smaller than the first. -/
theorem exact_lt_of_smooth
    (within : ∀ length ∈ lengths, length ∈ LineSearch.allLengths)
    {origin target : Vector K n}
    {first final : K}
    {later : List (Landmark K n)}
    (chain : List.IsChain (Precedes system lengths) (.measured origin first :: later))
    (ends : later.getLast? = some (.measured target final))
    (smooth :
      ∀ mark ∈ Landmark.measured origin first :: later,
        mark.isRestart = false ∧ mark.isForced system lengths = false) :
    ExactlyOrdered.exact final < ExactlyOrdered.exact first := by
  have decreasing := isChain_errors within chain smooth
  have transitive :
      IsTrans K fun earlier later => ExactlyOrdered.exact later < ExactlyOrdered.exact earlier :=
    ⟨fun _ _ _ first second => second.trans first⟩
  have errors_eq :
      (Landmark.measured origin first :: later).filterMap error? =
        first :: later.filterMap error? :=
    rfl
  have ordered := List.isChain_iff_pairwise.mp decreasing
  rw [errors_eq, List.pairwise_cons] at ordered
  exact ordered.1 final (List.mem_filterMap.mpr ⟨_, List.mem_of_getLast? ends, rfl⟩)

end Landmark

namespace Secant

open Double

variable {n : Nat}
variable {system : ExpressionSystem Float n n}
variable {x : Vector Float n}
variable {epsilon : Float}
variable {limit : Int}
variable {result : SolveResult Float n}

section Undefined

/-- A damped step along undefined residuals is undefined in every coordinate. -/
theorem isUndefined_dampedStep
    {fx : Vector Float n}
    (undefined : IsUndefined (euclideanNorm fx))
    (i : Fin n) :
    IsUndefined ((dampedStep fx).get i) := by
  have entry :
      (dampedStep fx).get i = -(0.01 / (1.0 + euclideanNorm fx)) * fx.get i :=
    Vector.getElem_map _ i.isLt
  rw [entry]
  exact ((undefined.add_right 1.0).div_right 0.01).neg.mul_left _

/-- Cutting an undefined step does not define it. -/
theorem isUndefined_capped
    {dx : Vector Float n}
    (undefined : ∀ i, IsUndefined (dx.get i))
    (i : Fin n) :
    IsUndefined ((capped dx).get i) := by
  unfold capped
  dsimp only
  split
  · have entry : (dx.map fun entry => entry / euclideanNorm dx).get i = dx.get i / euclideanNorm dx :=
      Vector.getElem_map _ i.isLt
    rw [entry]
    exact (undefined i).div_left _
  · exact undefined i

/-- Where the residuals have an undefined norm, the linear solve gives up. -/
theorem isUndefined_direction
    {state : SecantState Float n}
    (undefined : IsUndefined (euclideanNorm state.fx))
    (iteration : Nat)
    (i : Fin n) :
    IsUndefined ((direction iteration state).2.1.get i) := by
  have notFinite : allFinite (opposite state.fx) = false := by
    rw [allFinite_opposite]
    exact not_allFinite_of_isUndefined_norm undefined
  have gaveUp : solveLinear state.matrix (opposite state.fx) = .error .nonFiniteInput := by
    simp only [solveLinear, notFinite, Bool.and_false, Bool.false_eq_true, ↓reduceIte]
  simp only [direction, gaveUp]
  exact isUndefined_capped (isUndefined_dampedStep undefined) i

/-- A turn steps from an undefined error to an undefined error. -/
theorem isUndefined_error_stepped
    {state : SecantState Float n}
    (measured : state.toIterationState.IsMeasured system)
    (undefined : IsUndefined state.error)
    (iteration : Nat) :
    IsUndefined (stepped system epsilon iteration state).error := by
  have notStalled : isStalled epsilon state = false := (undefined.sub_left _).magnitude.not_less _
  have settled_eq :
      (settled system epsilon iteration state).2 =
        { state with previousError := state.error, stalls := 0 } := by
    simp only [settled, notStalled, Bool.false_eq_true, ↓reduceIte]
  rw [stepped, settled_eq]
  generalize ready_eq :
    ({ state with previousError := state.error, stalls := 0 } : SecantState Float n) = ready
  have there : IsUndefined (euclideanNorm (residuals system ready.x)) := by
    rw [← ready_eq, ← measured.error_eq]
    exact undefined
  have norm : IsUndefined (euclideanNorm ready.fx) := by
    rw [← ready_eq, measured.fx_eq, ← measured.error_eq]
    exact undefined
  rw [(isMeasured_advanced system epsilon iteration ready).error_eq, Procedure.Secant.x_advanced]
  refine isUndefined_norm_residuals there fun i => ?_
  have entry :
      (Procedure.Secant.step system iteration ready).target.get i =
        ready.x.get i +
          (Procedure.Secant.step system iteration ready).alpha *
            (direction iteration ready).2.1.get i :=
    getElem_moved _ _ _ i.val i.isLt
  rw [entry]
  exact ((isUndefined_direction norm iteration i).mul_right _).add_right _

/-- No run that starts with an undefined error converges. -/
theorem not_converged_of_isUndefined
    {polls : PollAnswers}
    (undefined : IsUndefined (errorAt system x))
    (returned : (run system x epsilon limit polls).ending = .returned result) :
    result.converged = false := by
  have every
      {iteration : Nat}
      {state : SecantState Float n}
      (reached :
        (scheme system epsilon limit).stateBefore? (start system x).2 iteration = some state) :
      state.toIterationState.IsMeasured system ∧ IsUndefined state.error := by
    refine Scheme.invariant_of_stateBefore?
      (fun _ later => later.toIterationState.IsMeasured system ∧ IsUndefined later.error)
      ⟨isMeasured_start system x, undefined⟩ ?_ reached
    rintro iteration before next ⟨measured, undefined⟩ turned
    obtain ⟨_, rfl, _⟩ := onward_of_turn turned
    exact ⟨isMeasured_advanced system epsilon iteration _,
      isUndefined_error_stepped measured undefined iteration⟩
  cases Scheme.returns_of_ending returned with
  | finished early reached turned =>
      obtain ⟨measured, undefined⟩ := every reached
      rcases finished_of_turn turned with ⟨small, _⟩ | ⟨_, next, rfl, _, rfl⟩
      · rw [undefined.not_less] at small
        cases small
      · exact (isUndefined_error_stepped measured undefined _).not_less _
  | exhausted reached => exact (every reached).2.not_less _

end Undefined

/--
The result stands where a turn, not one of the first six, left a step that hardly moved. Its error
and the first error both lie from the tolerance up to ten times the tolerance, and at some landmark
of the run a step was forced or the run restarted.
-/
structure EndsStuck
    (system : ExpressionSystem Float n n)
    (x : Vector Float n)
    (epsilon : Float)
    (limit : Int)
    (polls : PollAnswers)
    (result : SolveResult Float n) :
    Prop where
  exists_stuck :
    ∃ iteration before,
      (scheme system epsilon limit).stateBefore? (start system x).2 iteration = some before ∧
        isStuck epsilon iteration (stepped system epsilon iteration before) = true ∧
        result =
          (stepped system epsilon iteration before).result (iteration + 1) true
            Method.secant.label
  large : Arithmetic.less result.finalError epsilon = false
  bounded : Arithmetic.less result.finalError (epsilon * 10.0) = true
  started_bounded : Arithmetic.less (errorAt system x) (epsilon * 10.0) = true
  exists_ascent :
    ∃ mark ∈ ((Method.secant.procedure x epsilon limit polls).ledger system).landmarks,
      mark.isRestart = true ∨ mark.isForced system Method.secant.lengths = true

/-- A run that gets stuck took a step. -/
theorem exists_step_of_stuck
    {polls : PollAnswers}
    {iteration : Nat}
    (returned : (run system x epsilon limit polls).ending = .returned result)
    (late : 5 < iteration)
    (iterations_eq : result.iterations = iteration + 1) :
    ∃ step,
      .walked step ∈ ((Method.secant.procedure x epsilon limit polls).ledger system).landmarks := by
  obtain ⟨_, counted⟩ :=
    (Procedure.Secant.isPriced system epsilon limit).balances_runFrom
      (Procedure.Secant.performs system epsilon limit) (numbersTurns system epsilon limit) polls
      (start system x).2 (start system x).1.toArray result returned
  obtain ⟨_, noStep⟩ := Procedure.Secant.accounts_start system x
  have some_step : 0 < ((Method.secant.procedure x epsilon limit polls).ledger system).steps := by
    rw [Method.procedure, Procedure.Secant.ledger_run, Ledger.steps_append, noStep]
    split at counted <;> omega
  obtain ⟨mark, member, isStep⟩ := List.countP_pos_iff.mp some_step
  cases mark with
  | walked step => exact ⟨step, member⟩
  | measured point error => cases isStep
  | restarted point => cases isStep

/-- The last error of a run that took a step without forcing one and without a restart is smaller. -/
theorem exact_finalError_lt_of_smooth
    {polls : PollAnswers}
    {step : Step Float n}
    (returned : (run system x epsilon limit polls).ending = .returned result)
    (walked :
      .walked step ∈ ((Method.secant.procedure x epsilon limit polls).ledger system).landmarks)
    (smooth :
      ∀ mark ∈ ((Method.secant.procedure x epsilon limit polls).ledger system).landmarks,
        mark.isRestart = false ∧ mark.isForced system Method.secant.lengths = false) :
    exact result.finalError < exact (errorAt system x) := by
  obtain ⟨last, leads, reported⟩ :=
    Method.secant.leads_procedure system x epsilon limit polls
  obtain rfl := reported result returned
  obtain ⟨later, landmarks_eq⟩ :
      ∃ later,
        ((Method.secant.procedure x epsilon limit polls).ledger system).landmarks =
          .measured x (errorAt system x) :: later := by
    rw [Method.procedure, Procedure.Secant.ledger_run, Ledger.landmarks_append,
      Procedure.Secant.ledger_start]
    exact ⟨_, rfl⟩
  rw [landmarks_eq] at leads walked smooth
  have ends := leads.ends
  cases later with
  | nil =>
      rw [List.mem_singleton] at walked
      cases walked
  | cons next later =>
      rw [List.getLast?_cons_cons, List.getLast?_cons_cons] at ends
      exact Landmark.exact_lt_of_smooth (Method.lengths_mem_allLengths .secant)
        leads.chain.tail ends smooth

/-- Where the error did not fall, a run that gets stuck was driven up somewhere. -/
theorem endsStuck_of_not_improved
    {polls : PollAnswers}
    {iteration : Nat}
    {before : SecantState Float n}
    (returned : (run system x epsilon limit polls).ending = .returned result)
    (converged : result.converged = true)
    (defined : value (errorAt system x) ≠ .notANumber)
    (notImproved : Arithmetic.less result.finalError (errorAt system x) = false)
    (reached :
      (scheme system epsilon limit).stateBefore? (start system x).2 iteration = some before)
    (stuck : isStuck epsilon iteration (stepped system epsilon iteration before) = true)
    (shape :
      result =
        (stepped system epsilon iteration before).result (iteration + 1)
          (Arithmetic.less (stepped system epsilon iteration before).error (epsilon * 10.0))
          Method.secant.label)
    (large : Arithmetic.less result.finalError epsilon = false) :
    EndsStuck system x epsilon limit polls result := by
  have verdict :
      Arithmetic.less (stepped system epsilon iteration before).error (epsilon * 10.0) = true := by
    rw [shape] at converged
    exact converged
  have bounded : Arithmetic.less result.finalError (epsilon * 10.0) = true := by
    rw [shape]
    exact verdict
  have started : Arithmetic.less (errorAt system x) (epsilon * 10.0) = true := by
    have tolerance : value (epsilon * 10.0) ≠ .notANumber := fun undefined =>
      absurd bounded (Bool.eq_false_iff.mp (IsUndefined.not_greater _ ⟨undefined⟩))
    rw [less_iff_exact_lt tolerance]
    exact (exact_le_of_not_less defined notImproved).trans_lt (exact_lt_of_less bounded)
  refine ⟨⟨iteration, before, reached, stuck, verdict ▸ shape⟩, large, bounded, started, ?_⟩
  by_contra noAscent
  have smooth :
      ∀ mark ∈ ((Method.secant.procedure x epsilon limit polls).ledger system).landmarks,
        mark.isRestart = false ∧ mark.isForced system Method.secant.lengths = false := by
    simpa only [not_exists, not_and, not_or, Bool.not_eq_true] using noAscent
  have late : 5 < iteration := by
    simp only [isStuck, Bool.and_eq_true, decide_eq_true_eq] at stuck
    exact stuck.1
  obtain ⟨step, walked⟩ := exists_step_of_stuck returned late (by rw [shape]; rfl)
  have smaller := exact_finalError_lt_of_smooth returned walked smooth
  rw [← less_iff_exact_lt defined, notImproved] at smaller
  cases smaller

/--
A converged result has a smaller error than its start, if that was not below the tolerance, unless
the run got stuck.
-/
theorem improved_or_endsStuck
    (polls : PollAnswers)
    (returned : (run system x epsilon limit polls).ending = .returned result)
    (converged : result.converged = true)
    (large : Arithmetic.less (errorAt system x) epsilon = false) :
    Arithmetic.less result.finalError (errorAt system x) = true ∨
      EndsStuck system x epsilon limit polls result := by
  have defined : value (errorAt system x) ≠ .notANumber := by
    intro undefined
    rw [not_converged_of_isUndefined ⟨undefined⟩ returned] at converged
    cases converged
  have improved_of_small
      (small : Arithmetic.less result.finalError epsilon = true) :
      Arithmetic.less result.finalError (errorAt system x) = true := by
    have tolerance : value epsilon ≠ .notANumber := fun undefined =>
      absurd small (Bool.eq_false_iff.mp (IsUndefined.not_greater _ ⟨undefined⟩))
    rw [less_iff_exact_lt defined]
    exact (exact_lt_of_less small).trans_le (exact_le_of_not_less tolerance large)
  cases improved : Arithmetic.less result.finalError (errorAt system x) with
  | true => exact .inl rfl
  | false =>
      have notImproved := Bool.eq_false_iff.mp improved
      right
      cases Scheme.returns_of_ending returned with
      | exhausted reached => exact absurd (improved_of_small converged) notImproved
      | @finished iteration before _ early reached turned =>
          rcases finished_of_turn turned with ⟨small, rfl⟩ | ⟨_, next, rfl, stuck, shape⟩
          · exact absurd (improved_of_small small) notImproved
          · exact endsStuck_of_not_improved returned converged defined improved reached stuck shape
              (Bool.eq_false_iff.mpr fun small => notImproved (improved_of_small small))

/-- The equation `0.05 = 0`, which has no root. -/
def smallConstant : ExpressionSystem Float 1 1 :=
  #v[[⟨0.05, .one⟩]]

/-- Where the method gives up on the small constant, so far out that no step moves the point. -/
def farResult : SolveResult Float 1 where
  solution := #v[1e17]
  iterations := 7
  finalError := 0.05
  converged := true
  functionEvaluations := 44
  jacobianEvaluations := 0
  methodUsed := "Secant"

/-- From far away, the run on a small constant ends where it started. -/
private theorem ending_run_smallConstant :
    (run smallConstant #v[1e17] 0.01 100 PollAnswers.never).ending = .returned farResult := by
  decide +kernel

/-- Not every converged result has a smaller error than its start. -/
theorem converged_without_improvement :
    Arithmetic.less (0.0 : Float) 0.01 = true ∧
      (run smallConstant #v[1e17] 0.01 100 PollAnswers.never).ending = .returned farResult ∧
      farResult.converged = true ∧
      Arithmetic.less (errorAt smallConstant #v[1e17]) 0.01 = false ∧
      Arithmetic.less farResult.finalError (errorAt smallConstant #v[1e17]) = false :=
  ⟨by decide +kernel, ending_run_smallConstant, rfl, by decide +kernel, by decide +kernel⟩

/-- The run on the small constant got stuck. -/
theorem smallConstant_endsStuck :
    EndsStuck smallConstant #v[1e17] 0.01 100 PollAnswers.never farResult := by
  have large : Arithmetic.less (errorAt smallConstant #v[1e17]) 0.01 = false := by
    decide +kernel
  have notImproved :
      Arithmetic.less farResult.finalError (errorAt smallConstant #v[1e17]) = false := by
    decide +kernel
  rcases improved_or_endsStuck PollAnswers.never ending_run_smallConstant rfl large with
    improved | stuck
  · rw [notImproved] at improved
    cases improved
  · exact stuck

end Secant

end RootFinding
