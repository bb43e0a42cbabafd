import RootFinding.Iteration.Run

/-!
# The states that a run reaches

A run walks through the states before its turns. What holds at the start and is kept by every turn
holds in each of them, and a result was handed out either by a turn that finished or at the limit.
These are the only two ways, so a property of results follows from one of states and of one turn.
-/

namespace RootFinding

namespace Scheme

variable {K σ ρ : Type}
variable {scheme : Scheme K σ ρ}
variable {start : σ}

/-- Where a turn goes on, its next state stands before the next turn. -/
theorem stateBefore?_succ_of_onward
    {iteration : Nat}
    {state next : σ}
    (reached : scheme.stateBefore? start iteration = some state)
    (turned : (scheme.turn iteration state).2 = .onward next) :
    scheme.stateBefore? start (iteration + 1) = some next := by
  simp only [stateBefore?, reached, turned]

/-- A state before a later turn was left by the turn in front of it. -/
theorem exists_onward_of_stateBefore?_succ
    {iteration : Nat}
    {next : σ}
    (reached : scheme.stateBefore? start (iteration + 1) = some next) :
    ∃ state,
      scheme.stateBefore? start iteration = some state ∧
        (scheme.turn iteration state).2 = .onward next := by
  cases before : scheme.stateBefore? start iteration with
  | none =>
      simp [stateBefore?, before] at reached
  | some state =>
      cases turned : (scheme.turn iteration state).2 with
      | finished result =>
          simp [stateBefore?, before, turned] at reached
      | onward following =>
          simp only [stateBefore?, before, turned, Option.some.injEq] at reached
          subst following
          exact ⟨state, rfl, turned⟩

/-- What holds at the start and is kept by every turn holds before every turn. -/
theorem invariant_of_stateBefore?
    (Invariant : Nat → σ → Prop)
    (atStart : Invariant 0 start)
    (kept :
      ∀ {iteration state next},
        Invariant iteration state →
        (scheme.turn iteration state).2 = .onward next →
        Invariant (iteration + 1) next)
    {iteration : Nat}
    {state : σ}
    (reached : scheme.stateBefore? start iteration = some state) :
    Invariant iteration state := by
  induction iteration generalizing state with
  | zero =>
      simp only [stateBefore?, Option.some.injEq] at reached
      subst state
      exact atStart
  | succ iteration inductionHypothesis =>
      obtain ⟨before, beforeReached, turned⟩ :=
        exists_onward_of_stateBefore?_succ reached
      exact kept (inductionHypothesis beforeReached) turned

/-- The ways in which a run from `start` with at most `limit` turns comes to a result. -/
inductive Returns
    (scheme : Scheme K σ ρ)
    (start : σ)
    (limit : Nat) :
    ρ → Prop where
  | finished
      {iteration : Nat}
      {state : σ}
      {result : ρ}
      (early : iteration < limit)
      (reached : scheme.stateBefore? start iteration = some state)
      (turned : (scheme.turn iteration state).2 = .finished result) :
      Returns scheme start limit result
  | exhausted
      {state : σ}
      (reached : scheme.stateBefore? start limit = some state) :
      Returns scheme start limit (scheme.atLimit state).2

/-- The rest of a run that got to a reached state comes to its result in one of these ways. -/
private theorem returns_of_ending_runFrom
    {isCancelled : Nat → Bool}
    {remaining iteration : Nat}
    {state : σ}
    {events : Array (Event K)}
    {result : ρ}
    (reached : scheme.stateBefore? start iteration = some state)
    (returned :
      (scheme.runFrom isCancelled remaining iteration state events).ending =
        .returned result) :
    scheme.Returns start (iteration + remaining) result := by
  -- The turns that were taken and those that remain always add up to the limit.
  induction remaining generalizing iteration state events with
  | zero =>
      rw [runFrom_at_limit, Ending.returned.injEq] at returned
      subst result
      exact .exhausted reached
  | succ remaining inductionHypothesis =>
      cases poll : isCancelled iteration with
      | true =>
          rw [runFrom_of_cancelled scheme poll] at returned
          cases returned
      | false =>
          rcases turned : scheme.turn iteration state with ⟨reported, next | finish⟩
          · rw [runFrom_of_onward scheme poll turned] at returned
            have nextReached :=
              stateBefore?_succ_of_onward reached (congrArg Prod.snd turned)
            have later := inductionHypothesis nextReached returned
            rwa [Nat.add_right_comm] at later
          · rw [runFrom_of_finished scheme poll turned, Ending.returned.injEq] at returned
            subst finish
            exact .finished (Nat.lt_add_of_pos_right (Nat.succ_pos remaining)) reached
              (congrArg Prod.snd turned)

/-- A result of a run comes from a turn that finished or from the limit. -/
theorem returns_of_ending
    {isCancelled : Nat → Bool}
    {limit : Nat}
    {events : Array (Event K)}
    {result : ρ}
    (returned :
      (scheme.runFrom isCancelled limit 0 start events).ending = .returned result) :
    scheme.Returns start limit result := by
  have fromStart : scheme.stateBefore? start 0 = some start := rfl
  simpa only [Nat.zero_add] using returns_of_ending_runFrom fromStart returned

/-- A run that is not cancelled returns. -/
theorem exists_returned_of_uncancelled
    (scheme : Scheme K σ ρ)
    {isCancelled : Nat → Bool}
    (uncancelled : ∀ iteration, isCancelled iteration = false)
    (remaining iteration : Nat)
    (state : σ)
    (events : Array (Event K)) :
    ∃ result,
      (scheme.runFrom isCancelled remaining iteration state events).ending =
        .returned result := by
  induction remaining generalizing iteration state events with
  | zero =>
      exact ⟨_, rfl⟩
  | succ remaining inductionHypothesis =>
      rcases turned : scheme.turn iteration state with ⟨reported, next | finish⟩
      · rw [runFrom_of_onward scheme (uncancelled iteration) turned]
        exact inductionHypothesis (iteration + 1) next _
      · rw [runFrom_of_finished scheme (uncancelled iteration) turned]
        exact ⟨finish, rfl⟩

end Scheme

end RootFinding
