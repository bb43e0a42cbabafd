import RootFinding.Proofs.Double.Order
import RootFinding.Proofs.Iteration.Transcript
import RootFinding.Proofs.Procedure.Secant

/-!
# Restarts in the log of the secant method

The log of a run shows the error with which every turn began, and the turns that restarted. A turn
is stalled if its error hardly differs from that of the turn before, and a stretch of stalled turns
ends with a restart. All of this is said of the log alone; the state that a turn starts from says
the same, and what one turn reports follows from its state.
-/

namespace RootFinding

namespace Event

variable {K : Type}

/-- The error with which a turn begins. -/
def openingError? : Event K → Option K
  | .began _ _ error => some error
  | _ => none

/-- The turn that restarts. -/
def restart? : Event K → Option Nat
  | .restarted iteration => some iteration
  | _ => none

end Event

namespace Run

variable {K ρ : Type}

/-- The errors with which the turns of a run began, the first one first. -/
def errors (run : Run K ρ) : List K :=
  run.events.toList.filterMap Event.openingError?

/-- The turns in which a run restarted, the first one first. -/
def restarts (run : Run K ρ) : List Nat :=
  run.events.toList.filterMap Event.restart?

section Stretches

variable [Arithmetic K]
variable (run : Run K ρ)
variable (epsilon : K)

/--
The error at the beginning of a turn hardly differs from the one a turn before; the first turn has
none before it and is compared with itself.
-/
def IsStalledAt (turn : Nat) : Prop :=
  ∃ error before,
    run.errors[turn]? = some error ∧
      run.errors[turn - 1]? = some before ∧
      Arithmetic.less (Arithmetic.magnitude (error - before)) (epsilon * 1e-3) = true

/-- The last `count` turns up to `turn` are stalled, and none of them before it restarts. -/
structure IsStalledFor (count turn : Nat) : Prop where
  count_le : count ≤ turn + 1
  stalled : ∀ earlier ≤ turn, turn < earlier + count → run.IsStalledAt epsilon earlier
  undisturbed : ∀ earlier < turn, turn < earlier + count → earlier ∉ run.restarts

variable {run : Run K ρ}
variable {epsilon : K}
variable {turn count : Nat}

theorem isGreatest_zero
    (moving : ¬run.IsStalledAt epsilon turn) :
    IsGreatest {count | run.IsStalledFor epsilon count turn} 0 := by
  constructor
  · constructor <;> intros <;> omega
  · intro count stretch
    by_contra positive
    exact moving (stretch.stalled turn le_rfl (by omega))

/-- A stretch begins at the first turn, and after every restart. -/
theorem isGreatest_one
    (stalled : run.IsStalledAt epsilon turn)
    (first : turn = 0 ∨ turn - 1 ∈ run.restarts) :
    IsGreatest {count | run.IsStalledFor epsilon count turn} 1 := by
  constructor
  · constructor
    case count_le => omega
    case stalled =>
      intro earlier before within
      obtain rfl : earlier = turn := by omega
      exact stalled
    case undisturbed =>
      intros
      omega
  · intro count stretch
    by_contra longer
    have enough := stretch.count_le
    rcases first with rfl | restarted
    · omega
    · exact stretch.undisturbed (turn - 1) (by omega) (by omega) restarted

/-- A stretch goes on through a stalled turn, unless the turn before restarted. -/
theorem isGreatest_succ
    (stalled : run.IsStalledAt epsilon (turn + 1))
    (undisturbed : turn ∉ run.restarts)
    (greatest : IsGreatest {count | run.IsStalledFor epsilon count turn} count) :
    IsGreatest {count | run.IsStalledFor epsilon count (turn + 1)} (count + 1) := by
  obtain ⟨stretch, longest⟩ := greatest
  constructor
  · constructor
    case count_le => exact Nat.succ_le_succ stretch.count_le
    case stalled =>
      intro earlier before within
      rcases Nat.lt_succ_iff_lt_or_eq.mp (Nat.lt_succ_of_le before) with past | rfl
      · exact stretch.stalled earlier (by omega) (by omega)
      · exact stalled
    case undisturbed =>
      intro earlier before within
      rcases Nat.lt_succ_iff_lt_or_eq.mp before with past | rfl
      · exact stretch.undisturbed earlier past (by omega)
      · exact undisturbed
  · intro longer other
    have enough := other.count_le
    have shorter : run.IsStalledFor epsilon (longer - 1) turn := by
      constructor
      case count_le => omega
      case stalled =>
        intro earlier before within
        exact other.stalled earlier (by omega) (by omega)
      case undisturbed =>
        intro earlier before within
        exact other.undisturbed earlier (by omega) (by omega)
    have bounded : longer - 1 ≤ count := longest shorter
    omega

end Stretches

end Run

namespace Secant

open Procedure.Secant (restarts)

variable {K : Type} [Scalar K] {n : Nat}

section Turns

variable (system : ExpressionSystem K n n)
variable (epsilon : K)
variable (iteration : Nat)
variable (state : SecantState K n)

/-- A decision about a restart reports the restart and nothing else. -/
theorem events_settled :
    (settled system epsilon iteration state).1 =
      if restarts epsilon state then [.restarted iteration] else [] := by
  unfold settled restarts
  split
  · rename_i stalled
    split
    · rename_i many
      simp [stalled, many]
    · rename_i few
      simp [few]
  · rename_i moving
    simp [moving]

/-- A step reports singular systems and resets of the matrix, and nothing else. -/
theorem filterMap_events_advanced
    {α : Type}
    {read? : Event K → Option α}
    (noSingular : ∀ method iteration cause, read? (.singular method iteration cause) = none)
    (noReset : read? .matrixReset = none) :
    (advanced system epsilon iteration state).1.filterMap read? = [] := by
  have aiming : (direction iteration state).1.filterMap read? = [] := by
    unfold direction
    split <;> simp [noSingular]
  have learning (update : SecantUpdate K n) : update.events.filterMap read? = [] := by
    cases update <;> simp [SecantUpdate.events, noReset]
  unfold advanced
  dsimp only
  split
  · rw [List.filterMap_append, aiming, learning, List.append_nil]
  · exact aiming

/-- A turn opens with the error of its state. -/
theorem filterMap_openingError?_turn :
    (turn system epsilon iteration state).1.filterMap Event.openingError? = [state.error] := by
  have restarting :
      (settled system epsilon iteration state).1.filterMap Event.openingError? = [] := by
    rw [events_settled]
    split <;> rfl
  have stepping (ready : SecantState K n) :
      (advanced system epsilon iteration ready).1.filterMap Event.openingError? = [] :=
    filterMap_events_advanced system epsilon iteration ready (fun _ _ _ => rfl) rfl
  unfold turn
  dsimp only
  split
  · rfl
  · split <;>
      simp [Event.openingError?, restarting, stepping]

/-- A turn reports a restart where it makes one. -/
theorem filterMap_restart?_turn :
    (turn system epsilon iteration state).1.filterMap Event.restart? =
      if Arithmetic.less state.error epsilon = false ∧ restarts epsilon state = true then
        [iteration]
      else [] := by
  have restarting :
      (settled system epsilon iteration state).1.filterMap Event.restart? =
        if restarts epsilon state then [iteration] else [] := by
    rw [events_settled]
    split <;> rfl
  have stepping (ready : SecantState K n) :
      (advanced system epsilon iteration ready).1.filterMap Event.restart? = [] :=
    filterMap_events_advanced system epsilon iteration ready (fun _ _ _ => rfl) rfl
  unfold turn
  dsimp only
  split
  · rename_i small
    simp [Event.restart?, small]
  · rename_i large
    rw [Bool.not_eq_true] at large
    split <;>
      simp only [List.cons_append, List.filterMap_cons, List.filterMap_append, restarting, stepping,
        Event.restart?, List.filterMap_nil, List.append_nil, large, true_and]

/-- A step keeps the error that it started from. -/
theorem previousError_stepped :
    (stepped system epsilon iteration state).previousError = state.error := by
  have kept (ready : SecantState K n) :
      (advanced system epsilon iteration ready).2.previousError = ready.previousError := by
    unfold advanced
    dsimp only
    split <;> rfl
  rw [stepped, kept]
  unfold settled
  split
  · split <;> rfl
  · rfl

/-- A step counts a stalled turn, unless the state moved or is restarted. -/
theorem stalls_stepped :
    (stepped system epsilon iteration state).stalls =
      if isStalled epsilon state = true ∧ restarts epsilon state = false then state.stalls + 1
      else 0 := by
  have kept (ready : SecantState K n) :
      (advanced system epsilon iteration ready).2.stalls = ready.stalls := by
    unfold advanced
    dsimp only
    split <;> rfl
  rw [stepped, kept]
  unfold settled restarts
  split
  · rename_i stalled
    split
    · rename_i many
      simp [stalled, many]
    · rename_i few
      simp [stalled, few]
  · rename_i moving
    simp [moving]

end Turns

/-- The states from which a run of the secant method takes its turns. -/
def runStates
    (system : ExpressionSystem K n n)
    (x : Vector K n)
    (epsilon : K)
    (limit : Int)
    (polls : PollAnswers) :
    List (SecantState K n) :=
  (scheme system epsilon limit).turnStates polls limit.toNat 0 (start system x).2

variable {system : ExpressionSystem K n n}
variable {x : Vector K n}
variable {epsilon : K}
variable {limit : Int}
variable {polls : PollAnswers}
variable {iteration : Nat}
variable {state : SecantState K n}

/-- The first state is that of the start, and every later one was stepped to. -/
theorem cases_of_getElem?_runStates
    (taken : (runStates system x epsilon limit polls)[iteration]? = some state) :
    iteration = 0 ∧ state = (start system x).2 ∨
      ∃ earlier before,
        iteration = earlier + 1 ∧
          (runStates system x epsilon limit polls)[earlier]? = some before ∧
          Arithmetic.less before.error epsilon = false ∧
          state = stepped system epsilon earlier before := by
  have reached := Scheme.stateBefore?_of_getElem?_turnStates taken
  cases iteration with
  | zero =>
      cases reached
      exact .inl ⟨rfl, rfl⟩
  | succ earlier =>
      obtain ⟨before, beforeReached, turned⟩ := Scheme.exists_onward_of_stateBefore?_succ reached
      obtain ⟨large, shape, _⟩ := onward_of_turn turned
      obtain ⟨present, _⟩ := List.getElem?_eq_some_iff.mp taken
      have here := List.getElem?_eq_getElem (Nat.lt_of_succ_lt present)
      have hereReached := Scheme.stateBefore?_of_getElem?_turnStates here
      rw [beforeReached, Option.some.injEq] at hereReached
      rw [← hereReached] at here
      exact .inr ⟨earlier, before, rfl, here, large, shape⟩

/-- What the events of the turns say, where each says at most one thing, the whole run says. -/
theorem filterMap_events_run
    {α : Type}
    {read? : Event K → Option α}
    (noReset : read? .matrixReset = none)
    (noExhaustion : ∀ method iterations error, read? (.exhausted method iterations error) = none) :
    (run system x epsilon limit polls).events.toList.filterMap read? =
      ((runStates system x epsilon limit polls).zipIdx).flatMap fun taken =>
        (turn system epsilon taken.2 taken.1).1.filterMap read? := by
  have silent (final : SecantState K n) :
      ((scheme system epsilon limit).atLimit final).1.filterMap read? = [] := by
    simp [scheme, atLimit, noExhaustion]
  have starting : (start system x).1.filterMap read? = [] := by
    have learning (update : SecantUpdate K n) : update.events.filterMap read? = [] := by
      cases update <;> simp [SecantUpdate.events, noReset]
    exact learning _
  rw [run, Scheme.filterMap_events_runFrom silent, starting, List.nil_append]
  rfl

/-- The errors of a run are those of the states from which it takes its turns. -/
theorem errors_run :
    (run system x epsilon limit polls).errors =
      (runStates system x epsilon limit polls).map fun state => state.error := by
  rw [Run.errors, filterMap_events_run rfl fun _ _ _ => rfl]
  simp only [filterMap_openingError?_turn, ← List.map_eq_flatMap]
  conv_rhs => rw [← List.zipIdx_map_fst 0 (runStates system x epsilon limit polls), List.map_map]
  rfl

/-- A run restarts in the turns whose states call for it. -/
theorem mem_restarts_run :
    iteration ∈ (run system x epsilon limit polls).restarts ↔
      ∃ state,
        (runStates system x epsilon limit polls)[iteration]? = some state ∧
          Arithmetic.less state.error epsilon = false ∧
          restarts epsilon state = true := by
  rw [Run.restarts, filterMap_events_run rfl fun _ _ _ => rfl]
  simp only [filterMap_restart?_turn, List.mem_flatMap, Prod.exists,
    List.mk_mem_zipIdx_iff_getElem?]
  constructor
  · rintro ⟨state, turn, taken, reported⟩
    split at reported
    · rename_i restarted
      cases List.mem_singleton.mp reported
      exact ⟨state, taken, restarted⟩
    · cases reported
  · rintro ⟨state, taken, restarted⟩
    exact ⟨state, iteration, taken, by simp [restarted]⟩

/-- A run reports its restarts in the order of its turns, each once. -/
theorem restarts_run_sublist :
    (run system x epsilon limit polls).restarts.Sublist
      (List.range (run system x epsilon limit polls).errors.length) := by
  rw [Run.restarts, filterMap_events_run rfl fun _ _ _ => rfl, errors_run, List.length_map,
    List.range_eq_range', ← List.zipIdx_map_snd, List.map_eq_flatMap]
  apply List.Sublist.flatMap_right
  intro taken _
  rw [filterMap_restart?_turn]
  split
  · exact List.Sublist.refl _
  · exact List.nil_sublist _

end Secant

end RootFinding
