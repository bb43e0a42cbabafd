import RootFinding.Iteration.Event
import RootFinding.Iteration.State

/-!
# Runs

An iteration method is a scheme: what one turn does to the state, and what is reported at the
iteration limit. A run takes turns until one of them finishes, the limit is reached, or a poll,
made before every turn, says that the run is cancelled.
-/

namespace RootFinding

/-- What a turn leads to. -/
inductive Turn (σ ρ : Type) where
  | onward (next : σ)
  | finished (result : ρ)
  deriving Repr, DecidableEq

inductive Ending (ρ : Type) where
  | returned (result : ρ)
  | cancelled
  deriving Repr, DecidableEq

/-- The events of a run in order, and how it ended. -/
structure Run (K ρ : Type) where
  events : Array (Event K)
  ending : Ending ρ
  deriving Repr, DecidableEq

/-- An iteration method over states `σ` with results `ρ`. -/
structure Scheme (K σ ρ : Type) where
  turn : (iteration : Nat) → σ → List (Event K) × Turn σ ρ
  atLimit : σ → List (Event K) × ρ

namespace Scheme

variable {K σ ρ : Type}

/--
Take at most `remaining` turns from `state`, the first of them numbered `iteration`; `isCancelled`
answers the poll before each turn.
-/
def runFrom
    (scheme : Scheme K σ ρ)
    (isCancelled : Nat → Bool) :
    (remaining iteration : Nat) → σ → Array (Event K) → Run K ρ
  | 0, _, state, events =>
      let (last, result) := scheme.atLimit state
      { events := events.appendList last, ending := .returned result }
  | remaining + 1, iteration, state, events =>
      if isCancelled iteration then { events, ending := .cancelled }
      else
        match scheme.turn iteration state with
        | (reported, .finished result) =>
            { events := events.appendList reported, ending := .returned result }
        | (reported, .onward next) =>
            scheme.runFrom isCancelled remaining (iteration + 1) next (events.appendList reported)

theorem runFrom_at_limit
    (scheme : Scheme K σ ρ)
    (isCancelled : Nat → Bool)
    (iteration : Nat)
    (state : σ)
    (events : Array (Event K)) :
    scheme.runFrom isCancelled 0 iteration state events =
      { events := events.appendList (scheme.atLimit state).1,
        ending := .returned (scheme.atLimit state).2 } :=
  rfl

theorem runFrom_of_cancelled
    (scheme : Scheme K σ ρ)
    {isCancelled : Nat → Bool}
    {iteration : Nat}
    (poll : isCancelled iteration = true)
    (remaining : Nat)
    (state : σ)
    (events : Array (Event K)) :
    scheme.runFrom isCancelled (remaining + 1) iteration state events =
      { events, ending := .cancelled } := by
  simp [runFrom, poll]

theorem runFrom_of_finished
    (scheme : Scheme K σ ρ)
    {isCancelled : Nat → Bool}
    {iteration : Nat}
    (poll : isCancelled iteration = false)
    {state : σ}
    {reported : List (Event K)}
    {result : ρ}
    (turned : scheme.turn iteration state = (reported, .finished result))
    (remaining : Nat)
    (events : Array (Event K)) :
    scheme.runFrom isCancelled (remaining + 1) iteration state events =
      { events := events.appendList reported, ending := .returned result } := by
  simp [runFrom, poll, turned]

theorem runFrom_of_onward
    (scheme : Scheme K σ ρ)
    {isCancelled : Nat → Bool}
    {iteration : Nat}
    (poll : isCancelled iteration = false)
    {state next : σ}
    {reported : List (Event K)}
    (turned : scheme.turn iteration state = (reported, .onward next))
    (remaining : Nat)
    (events : Array (Event K)) :
    scheme.runFrom isCancelled (remaining + 1) iteration state events =
      scheme.runFrom isCancelled remaining (iteration + 1) next (events.appendList reported) := by
  simp [runFrom, poll, turned]

/-- The state before turn `iteration`, if the run gets there. -/
def stateBefore? (scheme : Scheme K σ ρ) (start : σ) : (iteration : Nat) → Option σ
  | 0 => some start
  | iteration + 1 =>
      match scheme.stateBefore? start iteration with
      | some state =>
          match (scheme.turn iteration state).2 with
          | .onward next => some next
          | .finished _ => none
      | none => none

end Scheme

end RootFinding
