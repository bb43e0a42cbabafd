import RootFinding.Proofs.Procedure.Trail

/-!
# Descent

Every step of a run was chosen by the line search against the errors that the run measures right
before and right after it. So as long as a run neither restarts nor is forced to take its shortest
length, the errors that it measures strictly decrease, and they do so in exact values.
-/

namespace RootFinding

variable {K : Type} [Scalar K] {n : Nat}

namespace Landmark

/-- The error that is measured at a landmark. -/
def error? : Landmark K n → Option K
  | .measured _ error => some error
  | _ => none

/-- No length along the direction of the step passes the test of the line search. -/
def isForced (system : ExpressionSystem K n n) (lengths : List K) : Landmark K n → Bool
  | .walked step => lengths.all fun length => !step.accepts system length
  | _ => false

variable {system : ExpressionSystem K n n}
variable {lengths : List K}

/-- Only a measurement at its origin comes before a step. -/
theorem isChosen_of_precedes_walked
    {prior : Landmark K n}
    {step : Step K n}
    (precedes : Precedes system lengths prior (.walked step)) :
    prior = .measured step.origin (errorAt system step.origin) ∧
      LineSearch.IsChosen (step.accepts system) lengths step.alpha := by
  cases prior with
  | measured point error =>
      obtain ⟨rfl, rfl, chosen⟩ := precedes
      exact ⟨rfl, chosen⟩
  | walked _ => cases precedes
  | restarted _ => cases precedes

/-- Only the measurement at its target comes after a step. -/
theorem eq_measured_of_walked_precedes
    {step : Step K n}
    {next : Landmark K n}
    (precedes : Precedes system lengths (.walked step) next) :
    next = .measured step.target (errorAt system step.target) := by
  cases next with
  | measured point error =>
      obtain ⟨rfl, rfl⟩ := precedes
      rfl
  | walked _ => cases precedes
  | restarted _ => cases precedes

/-- A step lies between the measurement at its origin and the one at its target. -/
theorem measured_around_step
    {x : Vector K n}
    {step : Step K n}
    {before after : List (Landmark K n)}
    (chain :
      List.IsChain (Precedes system lengths) (.restarted x :: (before ++ .walked step :: after))) :
    LineSearch.IsChosen (step.accepts system) lengths step.alpha ∧
      before.getLast? = some (.measured step.origin (errorAt system step.origin)) ∧
      ∀ mark ∈ after.head?, mark = .measured step.target (errorAt system step.target) := by
  rw [← List.cons_append, List.isChain_append] at chain
  obtain ⟨_, laterChain, joined⟩ := chain
  have following : ∀ mark ∈ after.head?, Precedes system lengths (.walked step) mark := by
    intro mark first
    obtain ⟨rest, rfl⟩ := List.head?_eq_some_iff.mp first
    exact (List.isChain_cons_cons.mp laterChain).1
  cases before with
  | nil =>
      -- No step is the first landmark, because the trail starts at a point that was set.
      obtain ⟨same, _⟩ := isChosen_of_precedes_walked (joined _ rfl _ rfl)
      cases same
  | cons first rest =>
      rw [List.getLast?_cons_cons] at joined
      cases ends : (first :: rest).getLast? with
      | none =>
          rw [List.getLast?_eq_none_iff] at ends
          cases ends
      | some prior =>
          obtain ⟨rfl, chosen⟩ := isChosen_of_precedes_walked (joined prior ends _ rfl)
          refine ⟨chosen, rfl, fun mark first => ?_⟩
          exact eq_measured_of_walked_precedes (following mark first)

/-- Along a step that was not forced the exact error decreases. -/
theorem exact_lt_of_not_isForced
    [ExactlyOrdered K]
    (within : ∀ length ∈ lengths, length ∈ LineSearch.allLengths)
    {step : Step K n}
    (chosen : LineSearch.IsChosen (step.accepts system) lengths step.alpha)
    (notForced : isForced system lengths (.walked step) = false) :
    ExactlyOrdered.exact (errorAt system step.target) <
      ExactlyOrdered.exact (errorAt system step.origin) := by
  have someAccepted : ¬∀ length ∈ lengths, step.accepts system length = false := by
    intro none
    rw [isForced, List.all_eq_false] at notForced
    obtain ⟨length, member, accepted⟩ := notForced
    rw [none length member] at accepted
    exact accepted rfl
  obtain ⟨member, accepted⟩ := chosen.accepted_of_not_forced someAccepted
  exact ExactlyOrdered.exact_lt_of_isSufficient (within _ member) accepted

/-- The errors along a trail strictly decrease where nothing restarts and no step is forced. -/
theorem isChain_errors
    [ExactlyOrdered K]
    (within : ∀ length ∈ lengths, length ∈ LineSearch.allLengths)
    {stretch : List (Landmark K n)}
    (chain : List.IsChain (Precedes system lengths) stretch)
    (smooth :
      ∀ mark ∈ stretch, mark.isRestart = false ∧ mark.isForced system lengths = false) :
    (stretch.filterMap error?).IsChain fun earlier later =>
      ExactlyOrdered.exact later < ExactlyOrdered.exact earlier := by
  induction stretch with
  | nil => exact .nil
  | cons mark rest inductionHypothesis =>
      obtain ⟨⟨notRestart, _⟩, restSmooth⟩ := List.forall_mem_cons.mp smooth
      have decreasing := inductionHypothesis chain.tail restSmooth
      cases mark with
      | restarted _ => cases notRestart
      | walked step => exact decreasing
      | measured point error =>
          cases rest with
          | nil => exact .singleton error
          | cons next rest =>
              obtain ⟨precedes, restChain⟩ := List.isChain_cons_cons.mp chain
              obtain ⟨⟨nextNotRestart, notForced⟩, _⟩ := List.forall_mem_cons.mp restSmooth
              cases next with
              | measured _ _ => cases precedes
              | restarted _ => cases nextNotRestart
              | walked step =>
                  obtain ⟨same, chosen⟩ := isChosen_of_precedes_walked precedes
                  cases same
                  cases rest with
                  | nil => exact .singleton _
                  | cons last rest =>
                      have arrives := (List.isChain_cons_cons.mp restChain).1
                      obtain rfl := eq_measured_of_walked_precedes arrives
                      exact List.isChain_cons_cons.mpr
                        ⟨exact_lt_of_not_isForced within chosen notForced, decreasing⟩

end Landmark

/-- Both methods search among the lengths of the longer search. -/
theorem Method.lengths_mem_allLengths (method : Method) :
    ∀ length ∈ (method.lengths : List K), length ∈ LineSearch.allLengths := by
  intro length member
  cases method with
  | newton => exact member
  | secant =>
      rcases List.mem_cons.mp member with rfl | shorter
      · exact List.mem_cons_self
      · exact List.mem_cons_of_mem _ ((LineSearch.halvings_prefix 0.5 4 3).subset shorter)

/-- The lengths of Newton's method go down to one part in 128, those of the secant method in 16. -/
example :
    (Method.newton.lengths : List Float) =
        [1.0, 0.5, 0.25, 0.125, 0.0625, 0.03125, 0.015625, 0.0078125] ∧
      (Method.secant.lengths : List Float) = [1.0, 0.5, 0.25, 0.125, 0.0625] := by
  decide +kernel

/--
The landmarks of a run are a trail from its first point to the solution that it reports. Every step
has the first length that passes the test of the line search, or the last where none does, and the
test compares the errors that are measured right before and right after the step, unless the run is
cancelled in between. Where no step is forced and nothing restarts, the measured errors strictly
decrease in exact values.
-/
theorem steps_decrease_sufficiently
    [ExactlyOrdered K]
    (method : Method)
    (system : ExpressionSystem K n n)
    (x : Vector K n)
    (epsilon : K)
    (limit : Int)
    (polls : PollAnswers) :
    let run := method.run system x epsilon limit polls
    let procedure := method.procedure x epsilon limit polls
    let landmarks := (procedure.ledger system).landmarks
    procedure.value system = run ∧
      List.IsChain (Landmark.Precedes system method.lengths) (.restarted x :: landmarks) ∧
      (∀ result,
        run.ending = .returned result →
        landmarks.getLast? = some (.measured result.solution result.finalError)) ∧
      (∀ before step after,
        landmarks = before ++ .walked step :: after →
        LineSearch.IsChosen (step.accepts system) method.lengths step.alpha ∧
          before.getLast? = some (.measured step.origin (errorAt system step.origin)) ∧
          (after.head? = some (.measured step.target (errorAt system step.target)) ∨
            after = [] ∧ run.ending = .cancelled)) ∧
      ∀ stretch,
        stretch <:+: landmarks →
        (∀ mark ∈ stretch,
          mark.isRestart = false ∧ mark.isForced system method.lengths = false) →
        (stretch.filterMap Landmark.error?).Pairwise fun earlier later =>
          ExactlyOrdered.exact later < ExactlyOrdered.exact earlier := by
  intro run procedure landmarks
  obtain ⟨last, leads, reported⟩ := method.leads_procedure system x epsilon limit polls
  have chain :
      List.IsChain (Landmark.Precedes system method.lengths) (.restarted x :: landmarks) :=
    leads.chain
  have ends : (.restarted x :: landmarks : List (Landmark K n)).getLast? = some last :=
    leads.ends
  refine ⟨method.value_procedure system x epsilon limit polls, chain, ?_, ?_, ?_⟩
  · intro result returned
    obtain rfl := reported result returned
    cases shape : landmarks with
    | nil =>
        rw [shape] at ends
        cases ends
    | cons first rest =>
        rw [shape, List.getLast?_cons_cons] at ends
        exact ends
  · intro before step after split
    rw [split] at chain ends
    obtain ⟨chosen, origin, target⟩ := Landmark.measured_around_step chain
    refine ⟨chosen, origin, ?_⟩
    cases after with
    | cons next rest => exact .inl (congrArg some (target next rfl))
    | nil =>
        refine .inr ⟨rfl, ?_⟩
        rw [← List.cons_append, List.getLast?_concat, Option.some.injEq] at ends
        subst ends
        cases ending : run.ending with
        | cancelled => rfl
        | returned result => cases reported result ending
  · intro stretch within smooth
    have stretchChain := List.IsChain.infix chain.tail within
    have decreasing :=
      Landmark.isChain_errors method.lengths_mem_allLengths stretchChain smooth
    have transitive :
        IsTrans K fun earlier later =>
          ExactlyOrdered.exact later < ExactlyOrdered.exact earlier :=
      ⟨fun _ _ _ first second => second.trans first⟩
    exact List.isChain_iff_pairwise.mp decreasing

/-- Two steps towards the root of two are not forced, so all three errors decrease. -/
theorem squareRoot_descends :
    let system : ExpressionSystem Float 1 1 := #v[[⟨1.0, .product 0 0⟩, ⟨-2.0, .one⟩]]
    let landmarks := ((Method.newton.procedure #v[1.0] 1e-6 2 .never).ledger system).landmarks
    let errors := landmarks.filterMap Landmark.error?
    errors.length = 3 ∧
      errors.Pairwise fun earlier later => Double.exact later < Double.exact earlier := by
  intro system landmarks errors
  have smooth :
      ∀ mark ∈ landmarks,
        mark.isRestart = false ∧ mark.isForced system Method.newton.lengths = false := by
    decide +kernel
  have three : errors.length = 3 := by
    decide +kernel
  obtain ⟨_, _, _, _, decreasing⟩ :=
    steps_decrease_sufficiently .newton system #v[1.0] 1e-6 2 .never
  exact ⟨three, decreasing landmarks (List.infix_refl _) smooth⟩

end RootFinding
