import RootFinding.Proofs.Iteration.Count

/-!
# Cancelled runs

A run polls once before each of its turns and does nothing else with the answers. So a run whose
polls all pass is the run without a token, and a run that is cancelled has reported the beginning of
what that run reports. How many polls there are is the number of turns that the result reports.
-/

namespace RootFinding

namespace Scheme

variable {K σ ρ : Type}
variable {scheme : Scheme K σ ρ}
variable {polls : PollAnswers}
variable {iteration : Nat}
variable {state : σ}

/-- How many turns a run takes that nobody cancels; it polls once before each of them. -/
def turnsFrom (scheme : Scheme K σ ρ) : (remaining iteration : Nat) → σ → Nat
  | 0, _, _ => 0
  | remaining + 1, iteration, state =>
      match (scheme.turn iteration state).2 with
      | .finished _ => 1
      | .onward next => scheme.turnsFrom remaining (iteration + 1) next + 1

/-- A run that finishes takes the one turn. -/
theorem turnsFrom_of_finished
    {reported : List (Event K)}
    {result : ρ}
    (turned : scheme.turn iteration state = (reported, .finished result))
    (remaining : Nat) :
    scheme.turnsFrom (remaining + 1) iteration state = 1 := by
  simp [turnsFrom, turned]

/-- A run that goes on takes a turn more than what remains of it. -/
theorem turnsFrom_of_onward
    {reported : List (Event K)}
    {next : σ}
    (turned : scheme.turn iteration state = (reported, .onward next))
    (remaining : Nat) :
    scheme.turnsFrom (remaining + 1) iteration state =
      scheme.turnsFrom remaining (iteration + 1) next + 1 := by
  simp [turnsFrom, turned]

/-- Only the polls before the turns that are taken matter. -/
theorem runFrom_eq_of_passing
    {remaining : Nat}
    {events : Array (Event K)}
    (passing :
      ∀ turn,
        iteration ≤ turn →
        turn < iteration + scheme.turnsFrom remaining iteration state →
        polls turn = false) :
    scheme.runFrom polls remaining iteration state events =
      scheme.runFrom PollAnswers.never remaining iteration state events := by
  induction remaining generalizing iteration state events with
  | zero =>
      rfl
  | succ remaining inductionHypothesis =>
      have uncancelled : PollAnswers.never iteration = false := rfl
      rcases turned : scheme.turn iteration state with ⟨reported, next | finish⟩
      · have length := turnsFrom_of_onward turned remaining
        have poll : polls iteration = false :=
          passing iteration (Nat.le_refl iteration) (by omega)
        rw [runFrom_of_onward scheme poll turned, runFrom_of_onward scheme uncancelled turned]
        apply inductionHypothesis
        intro turn notBefore before
        exact passing turn (by omega) (by omega)
      · have length := turnsFrom_of_finished turned remaining
        have poll : polls iteration = false :=
          passing iteration (Nat.le_refl iteration) (by omega)
        rw [runFrom_of_finished scheme poll turned, runFrom_of_finished scheme uncancelled turned]

/-- A poll that cancels before one of the turns leaves the run without a result. -/
theorem ending_runFrom_of_stopping
    {remaining stop : Nat}
    {events : Array (Event K)}
    (notBefore : iteration ≤ stop)
    (before : stop < iteration + scheme.turnsFrom remaining iteration state)
    (stopping : polls stop = true) :
    (scheme.runFrom polls remaining iteration state events).ending = .cancelled := by
  induction remaining generalizing iteration state events with
  | zero =>
      rw [turnsFrom] at before
      omega
  | succ remaining inductionHypothesis =>
      cases poll : polls iteration with
      | true =>
          rw [runFrom_of_cancelled scheme poll]
      | false =>
          have later : iteration ≠ stop := by
            intro same
            rw [same, stopping] at poll
            cases poll
          rcases turned : scheme.turn iteration state with ⟨reported, next | finish⟩
          · rw [turnsFrom_of_onward turned] at before
            rw [runFrom_of_onward scheme poll turned]
            exact inductionHypothesis (by omega) (by omega)
          · rw [turnsFrom_of_finished turned] at before
            omega

/-- What is reported later comes behind what was reported before. -/
theorem prefix_appendList
    (events : Array (Event K))
    (reported : List (Event K)) :
    events.toList <+: (events.appendList reported).toList := by
  rw [Array.appendList_eq_append, Array.toList_appendList]
  exact List.prefix_append _ _

/-- A run keeps the events that came before it. -/
theorem prefix_events_runFrom
    (scheme : Scheme K σ ρ)
    (polls : PollAnswers)
    (remaining iteration : Nat)
    (state : σ)
    (events : Array (Event K)) :
    events.toList <+: (scheme.runFrom polls remaining iteration state events).events.toList := by
  induction remaining generalizing iteration state events with
  | zero =>
      exact prefix_appendList _ _
  | succ remaining inductionHypothesis =>
      cases poll : polls iteration with
      | true =>
          have stopped := runFrom_of_cancelled scheme poll remaining state events
          exact stopped ▸ List.prefix_refl _
      | false =>
          rcases turned : scheme.turn iteration state with ⟨reported, next | finish⟩
          · rw [runFrom_of_onward scheme poll turned]
            exact (prefix_appendList events reported).trans
              (inductionHypothesis (iteration + 1) next _)
          · rw [runFrom_of_finished scheme poll turned]
            exact prefix_appendList events reported

/-- However its polls are answered, a run reports a beginning of what it reports without them. -/
theorem events_runFrom_prefix
    (scheme : Scheme K σ ρ)
    (polls : PollAnswers)
    (remaining iteration : Nat)
    (state : σ)
    (events : Array (Event K)) :
    (scheme.runFrom polls remaining iteration state events).events.toList <+:
      (scheme.runFrom PollAnswers.never remaining iteration state events).events.toList := by
  induction remaining generalizing iteration state events with
  | zero =>
      exact List.prefix_refl _
  | succ remaining inductionHypothesis =>
      cases poll : polls iteration with
      | true =>
          rw [runFrom_of_cancelled scheme poll]
          exact prefix_events_runFrom scheme .never (remaining + 1) iteration state events
      | false =>
          have uncancelled : PollAnswers.never iteration = false := rfl
          rcases turned : scheme.turn iteration state with ⟨reported, next | finish⟩
          · rw [runFrom_of_onward scheme poll turned, runFrom_of_onward scheme uncancelled turned]
            exact inductionHypothesis (iteration + 1) next _
          · have same :
                scheme.runFrom polls (remaining + 1) iteration state events =
                  scheme.runFrom PollAnswers.never (remaining + 1) iteration state events := by
              rw [runFrom_of_finished scheme poll turned,
                runFrom_of_finished scheme uncancelled turned]
            exact same ▸ List.prefix_refl _

/-- The results of a scheme carry the number of the turn that finished, or the limit. -/
structure NumbersTurns
    {n : Nat}
    (scheme : Scheme K σ (SolveResult K n))
    (limit : Int) :
    Prop where
  iterations_of_finished :
    ∀ {iteration state result},
      (scheme.turn iteration state).2 = .finished result →
      result.iterations = iteration + 1
  iterations_atLimit :
    ∀ state,
      (scheme.atLimit state).2.iterations = limit

/-- The reported iterations count the turns, where a negative limit allows none. -/
theorem NumbersTurns.toNat_iterations
    {n : Nat}
    {scheme : Scheme K σ (SolveResult K n)}
    {limit : Int}
    (numbers : scheme.NumbersTurns limit)
    {remaining iteration : Nat}
    {state : σ}
    {events : Array (Event K)}
    {result : SolveResult K n}
    (total : iteration + remaining = limit.toNat)
    (returned :
      (scheme.runFrom PollAnswers.never remaining iteration state events).ending =
        .returned result) :
    result.iterations.toNat = iteration + scheme.turnsFrom remaining iteration state := by
  induction remaining generalizing iteration state events with
  | zero =>
      rw [runFrom_at_limit, Ending.returned.injEq] at returned
      subst result
      rw [numbers.iterations_atLimit, turnsFrom, total]
  | succ remaining inductionHypothesis =>
      have uncancelled : PollAnswers.never iteration = false := rfl
      rcases turned : scheme.turn iteration state with ⟨reported, next | finish⟩
      · rw [runFrom_of_onward scheme uncancelled turned] at returned
        have later := inductionHypothesis (by omega) returned
        rw [later, turnsFrom_of_onward turned]
        omega
      · rw [runFrom_of_finished scheme uncancelled turned, Ending.returned.injEq] at returned
        subst finish
        rw [numbers.iterations_of_finished (congrArg Prod.snd turned),
          turnsFrom_of_finished turned]
        omega

/-- What a token does to a run whose results count its turns. -/
theorem NumbersTurns.cancelled_or_same
    {n : Nat}
    {scheme : Scheme K σ (SolveResult K n)}
    {limit : Int}
    (numbers : scheme.NumbersTurns limit)
    {passed : Nat}
    (passing : ∀ turn, turn < passed → polls turn = false)
    (stopping : polls passed = true)
    {start : σ}
    {events : Array (Event K)}
    {result : SolveResult K n}
    (returned :
      (scheme.runFrom PollAnswers.never limit.toNat 0 start events).ending =
        .returned result) :
    if passed < result.iterations then
      (scheme.runFrom polls limit.toNat 0 start events).ending = .cancelled
    else
      scheme.runFrom polls limit.toNat 0 start events =
        scheme.runFrom PollAnswers.never limit.toNat 0 start events := by
  have turns := numbers.toNat_iterations (Nat.zero_add _) returned
  split
  · exact ending_runFrom_of_stopping (Nat.zero_le _) (by omega) stopping
  · apply runFrom_eq_of_passing
    intro turn _ before
    exact passing turn (by omega)

end Scheme

variable {K : Type} [Scalar K] {n : Nat}

/-- Newton's method returns the number of its turns. -/
theorem Newton.numbersTurns
    (system : ExpressionSystem K n n)
    (epsilon : K)
    (limit : Int) :
    (scheme system epsilon limit).NumbersTurns limit where
  iterations_of_finished turned := by
    rcases finished_of_turn turned with ⟨_, shape⟩ | ⟨_, _, _, _, shape⟩
    · subst shape
      rfl
    · subst shape
      rfl
  iterations_atLimit _ := rfl

/-- The secant method returns the number of its turns. -/
theorem Secant.numbersTurns
    (system : ExpressionSystem K n n)
    (epsilon : K)
    (limit : Int) :
    (scheme system epsilon limit).NumbersTurns limit where
  iterations_of_finished turned := by
    rcases finished_of_turn turned with ⟨_, shape⟩ | ⟨_, _, _, _, shape⟩
    · subst shape
      rfl
    · subst shape
      rfl
  iterations_atLimit _ := rfl

/-- A token stops a run just when the run takes more turns than polls pass. -/
private theorem Method.cancelled_or_same
    (method : Method)
    (system : ExpressionSystem K n n)
    (x : Vector K n)
    (epsilon : K)
    (limit : Int)
    {passed : Nat}
    {polls : PollAnswers}
    (passing : ∀ turn, turn < passed → polls turn = false)
    (stopping : polls passed = true)
    {result : SolveResult K n}
    (returned : (method.run system x epsilon limit .never).ending = .returned result) :
    if passed < result.iterations then
      (method.run system x epsilon limit polls).ending = .cancelled
    else method.run system x epsilon limit polls = method.run system x epsilon limit .never := by
  cases method with
  | newton =>
      exact (Newton.numbersTurns system epsilon limit).cancelled_or_same passing stopping returned
  | secant =>
      exact (Secant.numbersTurns system epsilon limit).cancelled_or_same passing stopping returned

/-- A cancelled run has reported the beginning of what the whole run reports. -/
private theorem Method.events_run_prefix
    (method : Method)
    (system : ExpressionSystem K n n)
    (x : Vector K n)
    (epsilon : K)
    (limit : Int)
    (polls : PollAnswers) :
    (method.run system x epsilon limit polls).events.toList <+:
      (method.run system x epsilon limit .never).events.toList := by
  cases method with
  | newton => exact Scheme.events_runFrom_prefix _ polls _ _ _ _
  | secant => exact Scheme.events_runFrom_prefix _ polls _ _ _ _

/--
A token whose first polls pass and whose next one cancels stops a run just when the run without it
takes more turns than polls passed. Else the run is the same in everything, and where it is stopped
it has reported a beginning of what the run without the token reports.
-/
theorem cancelled_iff_iterations_gt
    (method : Method)
    (system : ExpressionSystem K n n)
    (x : Vector K n)
    (epsilon : K)
    (limit : Int)
    {passed : Nat}
    {polls : PollAnswers}
    (passing : ∀ turn, turn < passed → polls turn = false)
    (stopping : polls passed = true) :
    ∃ result,
      (method.run system x epsilon limit .never).ending = .returned result ∧
        ((method.run system x epsilon limit polls).ending = .cancelled ↔
          passed < result.iterations) ∧
        (¬passed < result.iterations →
          (method.run system x epsilon limit polls).ending = .returned result ∧
            (method.run system x epsilon limit polls).events =
              (method.run system x epsilon limit .never).events) ∧
        ((method.run system x epsilon limit polls).ending = .cancelled →
          (method.run system x epsilon limit polls).events.toList <+:
            (method.run system x epsilon limit .never).events.toList) := by
  obtain ⟨result, returned⟩ := method.exists_returned system x epsilon limit
  have outcome := method.cancelled_or_same system x epsilon limit passing stopping returned
  refine ⟨result, returned, ?_, ?_, fun _ => method.events_run_prefix system x epsilon limit polls⟩
  · by_cases more : passed < result.iterations
    · rw [if_pos more] at outcome
      exact iff_of_true outcome more
    · rw [if_neg more] at outcome
      rw [outcome, returned]
      exact iff_of_false (fun same => by cases same) more
  · intro notMore
    rw [if_neg notMore] at outcome
    rw [outcome]
    exact ⟨returned, rfl⟩

/-- A run for the root of two takes five turns, so a third poll that cancels stops it. -/
theorem squareRoot_cancelled :
    let system : ExpressionSystem Float 1 1 := #v[[⟨1.0, .product 0 0⟩, ⟨-2.0, .one⟩]]
    let polls := PollAnswers.after 2
    (∀ turn, turn < 2 → polls turn = false) ∧
      polls 2 = true ∧
      (Method.newton.run system #v[1.0] 1e-6 100 polls).ending = .cancelled ∧
      (Method.newton.run system #v[1.0] 1e-6 100 polls).events.toList <+:
        (Method.newton.run system #v[1.0] 1e-6 100 .never).events.toList := by
  have five :
      (Method.newton.run
        (#v[[⟨1.0, .product 0 0⟩, ⟨-2.0, .one⟩]] : ExpressionSystem Float 1 1)
        #v[1.0] 1e-6 100 .never).ending.passes (fun result => result.iterations = 5) = true := by
    decide +kernel
  intro system polls
  have passing : ∀ turn, turn < 2 → polls turn = false := by
    decide
  have stopping : polls 2 = true := by
    decide
  obtain ⟨result, returned, stops, _, reports⟩ :=
    cancelled_iff_iterations_gt .newton system #v[1.0] 1e-6 100 passing stopping
  obtain ⟨found, foundReturned, counted⟩ := Ending.exists_of_passes five
  rw [returned, Ending.returned.injEq] at foundReturned
  subst foundReturned
  have cancelled := stops.mpr (by rw [of_decide_eq_true counted]; decide)
  exact ⟨passing, stopping, cancelled, reports cancelled⟩

end RootFinding
