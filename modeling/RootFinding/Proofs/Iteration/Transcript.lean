import RootFinding.Proofs.Iteration.Cancellation

/-!
# What a run reports of its turns

A run takes its turns from a list of states, each of which follows from the one before, and reports
the events of these turns one after the other. So what single turns say of themselves can be read
off the events of the whole run, whether it comes to a result or is cancelled.
-/

namespace RootFinding

namespace Scheme

variable {K σ ρ : Type}
variable {scheme : Scheme K σ ρ}
variable {start : σ}
variable {polls : PollAnswers}
variable {remaining iteration : Nat}
variable {state : σ}

/-- The states from which a run takes its turns, the first one first. -/
def turnStates
    (scheme : Scheme K σ ρ)
    (polls : PollAnswers) :
    (remaining iteration : Nat) → σ → List σ
  | 0, _, _ => []
  | remaining + 1, iteration, state =>
      if polls iteration then []
      else
        match (scheme.turn iteration state).2 with
        | .finished _ => [state]
        | .onward next => state :: scheme.turnStates polls remaining (iteration + 1) next

/-- A cancelled turn leaves no state. -/
theorem turnStates_of_cancelled
    (poll : polls iteration = true)
    (remaining : Nat)
    (state : σ) :
    scheme.turnStates polls (remaining + 1) iteration state = [] := by
  simp [turnStates, poll]

/-- A turn that finishes is the last one to leave its state. -/
theorem turnStates_of_finished
    (poll : polls iteration = false)
    {reported : List (Event K)}
    {result : ρ}
    (turned : scheme.turn iteration state = (reported, .finished result))
    (remaining : Nat) :
    scheme.turnStates polls (remaining + 1) iteration state = [state] := by
  simp [turnStates, poll, turned]

/-- A turn that goes on leaves its state in front of the later ones. -/
theorem turnStates_of_onward
    (poll : polls iteration = false)
    {reported : List (Event K)}
    {next : σ}
    (turned : scheme.turn iteration state = (reported, .onward next))
    (remaining : Nat) :
    scheme.turnStates polls (remaining + 1) iteration state =
      state :: scheme.turnStates polls remaining (iteration + 1) next := by
  simp [turnStates, poll, turned]

/-- The states of a run that got to a reached state are the ones before its later turns. -/
private theorem stateBefore?_of_getElem?_later
    {turn : Nat}
    {later : σ}
    (reached : scheme.stateBefore? start iteration = some state)
    (taken : (scheme.turnStates polls remaining iteration state)[turn]? = some later) :
    scheme.stateBefore? start (iteration + turn) = some later := by
  induction remaining generalizing iteration state turn with
  | zero =>
      cases taken
  | succ remaining inductionHypothesis =>
      cases poll : polls iteration with
      | true =>
          rw [turnStates_of_cancelled poll] at taken
          cases taken
      | false =>
          rcases turned : scheme.turn iteration state with ⟨reported, next | finish⟩
          · rw [turnStates_of_onward poll turned] at taken
            cases turn with
            | zero =>
                cases taken
                exact reached
            | succ turn =>
                have nextReached := stateBefore?_succ_of_onward reached (congrArg Prod.snd turned)
                rw [← Nat.succ_add_eq_add_succ]
                exact inductionHypothesis nextReached taken
          · rw [turnStates_of_finished poll turned] at taken
            cases turn with
            | zero =>
                cases taken
                exact reached
            | succ turn =>
                cases taken

/-- The states of a run are the ones before its turns. -/
theorem stateBefore?_of_getElem?_turnStates
    {turn : Nat}
    {later : σ}
    (taken : (scheme.turnStates polls remaining 0 start)[turn]? = some later) :
    scheme.stateBefore? start turn = some later := by
  have reached := stateBefore?_of_getElem?_later rfl taken
  rwa [Nat.zero_add] at reached

/-- A run reports what it reported before, the events of its turns, and those at its limit. -/
theorem exists_events_runFrom
    (scheme : Scheme K σ ρ)
    (polls : PollAnswers)
    (remaining iteration : Nat)
    (state : σ)
    (events : Array (Event K)) :
    ∃ last,
      (last = [] ∨ ∃ final, last = (scheme.atLimit final).1) ∧
        (scheme.runFrom polls remaining iteration state events).events.toList =
          events.toList ++
            ((scheme.turnStates polls remaining iteration state).zipIdx iteration).flatMap
              (fun taken => (scheme.turn taken.2 taken.1).1) ++
            last := by
  induction remaining generalizing iteration state events with
  | zero =>
      refine ⟨_, .inr ⟨state, rfl⟩, ?_⟩
      simp [runFrom_at_limit, turnStates]
  | succ remaining inductionHypothesis =>
      cases poll : polls iteration with
      | true =>
          refine ⟨[], .inl rfl, ?_⟩
          simp [runFrom_of_cancelled scheme poll, turnStates_of_cancelled poll]
      | false =>
          rcases turned : scheme.turn iteration state with ⟨reported, next | finish⟩
          · obtain ⟨last, final, shape⟩ :=
              inductionHypothesis (iteration + 1) next (events.appendList reported)
            refine ⟨last, final, ?_⟩
            rw [runFrom_of_onward scheme poll turned, shape, turnStates_of_onward poll turned]
            simp [turned]
          · refine ⟨[], .inl rfl, ?_⟩
            rw [runFrom_of_finished scheme poll turned, turnStates_of_finished poll turned]
            simp [turned]

/-- What events say that no run reports at its limit is said by its turns, one after the other. -/
theorem filterMap_events_runFrom
    {α : Type}
    {read? : Event K → Option α}
    (silent : ∀ final, (scheme.atLimit final).1.filterMap read? = [])
    (polls : PollAnswers)
    (remaining iteration : Nat)
    (state : σ)
    (events : Array (Event K)) :
    (scheme.runFrom polls remaining iteration state events).events.toList.filterMap read? =
      events.toList.filterMap read? ++
        ((scheme.turnStates polls remaining iteration state).zipIdx iteration).flatMap
          fun taken => (scheme.turn taken.2 taken.1).1.filterMap read? := by
  obtain ⟨last, final, shape⟩ := exists_events_runFrom scheme polls remaining iteration state events
  have nothing : last.filterMap read? = [] := by
    rcases final with rfl | ⟨final, rfl⟩
    · rfl
    · exact silent final
  rw [shape, List.filterMap_append, List.filterMap_append, nothing, List.append_nil,
    List.filterMap_flatMap]

/-- A result counts the turns of its run, where a negative limit allows none. -/
theorem NumbersTurns.length_turnStates
    {n : Nat}
    {scheme : Scheme K σ (SolveResult K n)}
    {limit : Int}
    (numbers : scheme.NumbersTurns limit)
    {remaining iteration : Nat}
    {state : σ}
    {events : Array (Event K)}
    {result : SolveResult K n}
    (total : iteration + remaining = limit.toNat)
    (returned :
      (scheme.runFrom polls remaining iteration state events).ending = .returned result) :
    iteration + (scheme.turnStates polls remaining iteration state).length =
      result.iterations.toNat := by
  induction remaining generalizing iteration state events with
  | zero =>
      rw [runFrom_at_limit, Ending.returned.injEq] at returned
      subst result
      rw [numbers.iterations_atLimit, turnStates, ← total]
      rfl
  | succ remaining inductionHypothesis =>
      cases poll : polls iteration with
      | true =>
          rw [runFrom_of_cancelled scheme poll] at returned
          cases returned
      | false =>
          rcases turned : scheme.turn iteration state with ⟨reported, next | finish⟩
          · rw [runFrom_of_onward scheme poll turned] at returned
            rw [turnStates_of_onward poll turned, List.length_cons,
              ← inductionHypothesis (by omega) returned]
            omega
          · rw [runFrom_of_finished scheme poll turned, Ending.returned.injEq] at returned
            subst finish
            rw [turnStates_of_finished poll turned,
              numbers.iterations_of_finished (congrArg Prod.snd turned)]
            simp only [List.length_singleton]
            omega

end Scheme

end RootFinding
