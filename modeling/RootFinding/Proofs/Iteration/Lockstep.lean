import RootFinding.Proofs.Iteration.Transcript

/-!
# Runs in lock step

Two schemes whose turns report the same and lead to corresponding states, as long as neither reports
anything that is not allowed, have the same runs. What a turn reports is among the events of the
run, so it is enough that the two runs report nothing of the kind.
-/

namespace RootFinding

/-- The same turn, where states are seen in another way. -/
def Turn.viewed {σ τ ρ : Type} (view : σ → τ) : Turn σ ρ → Turn τ ρ
  | .onward next => .onward (view next)
  | .finished result => .finished result

namespace Scheme

variable {K σ τ ρ : Type}
variable {scheme : Scheme K σ ρ}
variable {other : Scheme K τ ρ}
variable {polls : PollAnswers}
variable {remaining iteration : Nat}
variable {event : Event K}

/-- What was reported before a run is among its events. -/
theorem mem_events_of_mem
    {events : Array (Event K)}
    (reported : event ∈ events)
    (scheme : Scheme K σ ρ)
    (polls : PollAnswers)
    (remaining iteration : Nat)
    (state : σ) :
    event ∈ (scheme.runFrom polls remaining iteration state events).events := by
  obtain ⟨last, _, shape⟩ := exists_events_runFrom scheme polls remaining iteration state events
  rw [← Array.mem_toList_iff, shape, List.append_assoc]
  exact List.mem_append_left _ (Array.mem_toList_iff.mpr reported)

/-- What the first turn of a run reports is among the events of the run. -/
theorem mem_events_of_mem_first_turn
    {state : σ}
    (poll : polls iteration = false)
    (reported : event ∈ (scheme.turn iteration state).1)
    (remaining : Nat)
    (events : Array (Event K)) :
    event ∈ (scheme.runFrom polls (remaining + 1) iteration state events).events := by
  have appended : event ∈ events.appendList (scheme.turn iteration state).1 := by
    rw [Array.appendList_eq_append, ← Array.mem_toList_iff, Array.toList_appendList]
    exact List.mem_append_right _ reported
  cases turned : (scheme.turn iteration state).2 with
  | onward next =>
      rw [runFrom_of_onward scheme poll (Prod.ext rfl turned)]
      exact mem_events_of_mem appended scheme polls remaining (iteration + 1) next
  | finished result =>
      rw [runFrom_of_finished scheme poll (Prod.ext rfl turned)]
      exact appended

/--
Turns that agree while they report nothing but what is allowed make up runs that agree, if neither
of the runs reports anything else.
-/
theorem runFrom_eq_of_viewed
    {view : σ → τ}
    {IsAllowed : Event K → Prop}
    (turns :
      ∀ {iteration state},
        (∀ event ∈ (scheme.turn iteration state).1, IsAllowed event) →
        (∀ event ∈ (other.turn iteration (view state)).1, IsAllowed event) →
        other.turn iteration (view state) =
          ((scheme.turn iteration state).1, (scheme.turn iteration state).2.viewed view))
    (atLimit : ∀ state, other.atLimit (view state) = scheme.atLimit state)
    {state : σ}
    {events : Array (Event K)}
    (allowed :
      ∀ event ∈ (scheme.runFrom polls remaining iteration state events).events, IsAllowed event)
    (otherAllowed :
      ∀ event ∈ (other.runFrom polls remaining iteration (view state) events).events,
        IsAllowed event) :
    other.runFrom polls remaining iteration (view state) events =
      scheme.runFrom polls remaining iteration state events := by
  induction remaining generalizing iteration state events with
  | zero =>
      rw [runFrom_at_limit, runFrom_at_limit, atLimit]
  | succ remaining inductionHypothesis =>
      cases poll : polls iteration with
      | true =>
          rw [runFrom_of_cancelled _ poll, runFrom_of_cancelled _ poll]
      | false =>
          have same := turns
            (fun event reported =>
              allowed event (mem_events_of_mem_first_turn poll reported remaining events))
            (fun event reported =>
              otherAllowed event (mem_events_of_mem_first_turn poll reported remaining events))
          cases turned : (scheme.turn iteration state).2 with
          | onward next =>
              rw [turned] at same
              rw [runFrom_of_onward scheme poll (Prod.ext rfl turned)] at allowed ⊢
              rw [runFrom_of_onward other poll same] at otherAllowed ⊢
              exact inductionHypothesis allowed otherAllowed
          | finished result =>
              rw [turned] at same
              rw [runFrom_of_finished scheme poll (Prod.ext rfl turned),
                runFrom_of_finished other poll same]

end Scheme

end RootFinding
