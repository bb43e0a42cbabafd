import RootFinding.Cancellation
import RootFinding.Iteration.Run
import RootFinding.Proofs.Procedure.Basic

/-!
# Runs as procedures

Turns that are procedures make up a run that is one. Where each turn comes to what a turn of a
scheme comes to, the run comes to the run of the scheme, events and all. What is to be said of the
ledger of a run follows from what its turns enter, by one induction.
-/

namespace RootFinding

/-- A scheme whose turns are procedures. -/
structure ProcedureScheme (K : Type) (n : Nat) (σ ρ : Type) where
  turn : (iteration : Nat) → σ → Procedure K n (List (Event K) × Turn σ ρ)
  atLimit : σ → Procedure K n (List (Event K) × ρ)

namespace ProcedureScheme

variable {K : Type} {n : Nat} {σ ρ : Type}

/-- Take at most `remaining` turns from `state`, the first of them numbered `iteration`. -/
def runFrom
    (procedures : ProcedureScheme K n σ ρ)
    (polls : PollAnswers) :
    (remaining iteration : Nat) → σ → Array (Event K) → Procedure K n (Run K ρ)
  | 0, _, state, events => do
      let last ← procedures.atLimit state
      return { events := events.appendList last.1, ending := .returned last.2 }
  | remaining + 1, iteration, state, events =>
      if polls iteration then return { events, ending := .cancelled }
      else do
        let turned ← procedures.turn iteration state
        match turned.2 with
        | .finished result =>
            return { events := events.appendList turned.1, ending := .returned result }
        | .onward next =>
            procedures.runFrom polls remaining (iteration + 1) next (events.appendList turned.1)

variable [Arithmetic K]

/-- The turns come to what the turns of a scheme come to on a system. -/
structure Performs
    (procedures : ProcedureScheme K n σ ρ)
    (scheme : Scheme K σ ρ)
    (system : ExpressionSystem K n n) :
    Prop where
  value_turn :
    ∀ iteration state,
      (procedures.turn iteration state).value system = scheme.turn iteration state
  value_atLimit :
    ∀ state,
      (procedures.atLimit state).value system = scheme.atLimit state

variable {procedures : ProcedureScheme K n σ ρ}
variable {scheme : Scheme K σ ρ}
variable {system : ExpressionSystem K n n}

/-- Procedures that compute the turns compute the run. -/
theorem Performs.value_runFrom
    (performs : procedures.Performs scheme system)
    (polls : PollAnswers)
    (remaining iteration : Nat)
    (state : σ)
    (events : Array (Event K)) :
    (procedures.runFrom polls remaining iteration state events).value system =
      scheme.runFrom polls remaining iteration state events := by
  induction remaining generalizing iteration state events with
  | zero =>
      simp only [runFrom, Procedure.value_bind, Procedure.value_pure, performs.value_atLimit]
      rfl
  | succ remaining inductionHypothesis =>
      cases poll : polls iteration with
      | true =>
          rw [Scheme.runFrom_of_cancelled scheme poll, runFrom, if_pos poll, Procedure.value_pure]
      | false =>
          rw [runFrom, if_neg (Bool.eq_false_iff.mp poll), Procedure.value_bind,
            performs.value_turn]
          rcases turned : scheme.turn iteration state with ⟨reported, next | finish⟩
          · rw [Scheme.runFrom_of_onward scheme poll turned]
            exact inductionHypothesis (iteration + 1) next _
          · rw [Scheme.runFrom_of_finished scheme poll turned]
            rfl

/--
What holds of a run that is cancelled at once or cut off, and of one whose first turn finishes, and
holds of a run whose first turn goes on if it holds of the rest, that holds of every run.
-/
theorem Performs.runFrom_induction
    (performs : procedures.Performs scheme system)
    {total : Nat}
    (polls : PollAnswers)
    (Holds : Nat → σ → Ledger K n → Run K ρ → Prop)
    (cancelled :
      ∀ iteration state events,
        Holds iteration state .blank { events, ending := .cancelled })
    (exhausted :
      ∀ state events,
        Holds total state ((procedures.atLimit state).ledger system)
          { events := Array.appendList events (scheme.atLimit state).1
            ending := .returned (scheme.atLimit state).2 })
    (finished :
      ∀ {iteration state reported result} events,
        scheme.turn iteration state = (reported, .finished result) →
        Holds iteration state ((procedures.turn iteration state).ledger system)
          { events := Array.appendList events reported, ending := .returned result })
    (onward :
      ∀ {iteration state reported next ledger run},
        scheme.turn iteration state = (reported, .onward next) →
        Holds (iteration + 1) next ledger run →
        Holds iteration state ((procedures.turn iteration state).ledger system ++ ledger) run)
    {remaining iteration : Nat}
    (counted : iteration + remaining = total)
    (state : σ)
    (events : Array (Event K)) :
    Holds iteration state
      ((procedures.runFrom polls remaining iteration state events).ledger system)
      (scheme.runFrom polls remaining iteration state events) := by
  induction remaining generalizing iteration state events with
  | zero =>
      subst counted
      simp only [runFrom, Procedure.ledger_bind, Procedure.ledger_pure, Ledger.append_blank]
      exact exhausted state events
  | succ remaining inductionHypothesis =>
      cases poll : polls iteration with
      | true =>
          rw [Scheme.runFrom_of_cancelled scheme poll, runFrom, if_pos poll,
            Procedure.ledger_pure]
          exact cancelled iteration state events
      | false =>
          rw [runFrom, if_neg (Bool.eq_false_iff.mp poll), Procedure.ledger_bind,
            performs.value_turn]
          rcases turned : scheme.turn iteration state with ⟨reported, next | finish⟩
          · rw [Scheme.runFrom_of_onward scheme poll turned]
            exact onward turned (inductionHypothesis (by omega) next _)
          · rw [Scheme.runFrom_of_finished scheme poll turned]
            simp only [Procedure.ledger_pure, Ledger.append_blank]
            exact finished events turned

/--
What holds of the landmarks of every turn from a state that keeps an invariant, and of those at the
limit, holds of every landmark of a run.
-/
theorem Performs.forall_landmarks_runFrom
    (performs : procedures.Performs scheme system)
    (polls : PollAnswers)
    (Invariant : σ → Prop)
    {Holds : Landmark K n → Prop}
    (turns :
      ∀ {iteration state},
        Invariant state →
        ∀ mark ∈ ((procedures.turn iteration state).ledger system).landmarks, Holds mark)
    (kept :
      ∀ {iteration state reported next},
        Invariant state →
        scheme.turn iteration state = (reported, .onward next) →
        Invariant next)
    (atLimit :
      ∀ {state},
        Invariant state →
        ∀ mark ∈ ((procedures.atLimit state).ledger system).landmarks, Holds mark)
    {remaining iteration : Nat}
    {state : σ}
    (invariant : Invariant state)
    (events : Array (Event K)) :
    ∀ mark ∈ ((procedures.runFrom polls remaining iteration state events).ledger system).landmarks,
      Holds mark := by
  refine performs.runFrom_induction polls
    (fun _ state spent _ => Invariant state → ∀ mark ∈ spent.landmarks, Holds mark)
    ?cancelled ?exhausted ?finished ?onward rfl state events invariant
  case cancelled =>
    intro iteration state events _ mark member
    cases member
  case exhausted =>
    intro state events invariant
    exact atLimit invariant
  case finished =>
    intro iteration state reported result events _ invariant
    exact turns invariant
  case onward =>
    intro iteration state reported next spent run turned later invariant mark member
    rw [Ledger.landmarks_append] at member
    rcases List.mem_append.mp member with here | there
    · exact turns invariant mark here
    · exact later (kept invariant turned) mark there

end ProcedureScheme

end RootFinding
