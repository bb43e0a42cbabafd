import RootFinding.Proofs.Iteration.Measurement
import RootFinding.Proofs.LineSearch.Decrease
import RootFinding.Proofs.Procedure.Method

/-!
# The trail of a run

The landmarks of a run make up a trail: every step starts where the error was measured last and has
a length that the line search chose there, every step and every restart is followed by a measurement
at the point it led to, and a run that comes to a result ends with the one that the result reports.
Each turn adds to the trail, so it is enough to know how one turn takes the trail up and where it
leaves it.
-/

namespace RootFinding

variable {K : Type} [Scalar K] {n : Nat}

/-- The norm of the residuals at a point. -/
def errorAt (system : ExpressionSystem K n n) (x : Vector K n) : K :=
  euclideanNorm (residuals system x)

/-- A length along the direction of a step passes the test of the line search. -/
def Step.accepts (step : Step K n) (system : ExpressionSystem K n n) (length : K) : Bool :=
  LineSearch.isSufficient (errorAt system step.origin) length
    (errorAt system (moved step.origin length step.direction))

/-- The lengths that the line search of a method tries, in order. -/
def Method.lengths : Method → List K
  | .newton => 1.0 :: Newton.shorterLengths
  | .secant => 1.0 :: Secant.shorterLengths

namespace Landmark

/-- One landmark may come right after another in a run with these lengths. -/
def Precedes
    (system : ExpressionSystem K n n)
    (lengths : List K) :
    Landmark K n → Landmark K n → Prop
  | .measured point error, .walked step =>
      point = step.origin ∧
        error = errorAt system point ∧
        LineSearch.IsChosen (step.accepts system) lengths step.alpha
  | .measured _ _, .restarted _ => True
  | .walked step, .measured point error =>
      point = step.target ∧ error = errorAt system point
  | .restarted origin, .measured point error =>
      point = origin ∧ error = errorAt system point
  | _, _ => False

/-- The landmarks `path` go on from `prior`, each preceding the next, and end with `last`. -/
structure Leads
    (system : ExpressionSystem K n n)
    (lengths : List K)
    (prior : Landmark K n)
    (path : List (Landmark K n))
    (last : Landmark K n) :
    Prop where
  chain : List.IsChain (Precedes system lengths) (prior :: path)
  ends : (prior :: path).getLast? = some last

namespace Leads

variable {system : ExpressionSystem K n n}
variable {lengths : List K}
variable {prior next last : Landmark K n}
variable {path : List (Landmark K n)}

theorem nil (prior : Landmark K n) :
    Leads system lengths prior [] prior where
  chain := .singleton prior
  ends := rfl

theorem cons
    (precedes : Precedes system lengths prior next)
    (leads : Leads system lengths next path last) :
    Leads system lengths prior (next :: path) last where
  chain := List.isChain_cons_cons.mpr ⟨precedes, leads.chain⟩
  ends := by
    rw [List.getLast?_cons_cons, leads.ends]

/-- A path may be carried on from where it ends. -/
theorem append
    {middle : Landmark K n}
    {rest : List (Landmark K n)}
    (first : Leads system lengths prior path middle)
    (second : Leads system lengths middle rest last) :
    Leads system lengths prior (path ++ rest) last := by
  induction path generalizing prior with
  | nil =>
      have same := first.ends
      rw [List.getLast?_singleton, Option.some.injEq] at same
      subst same
      exact second
  | cons next path inductionHypothesis =>
      obtain ⟨precedes, chain⟩ := List.isChain_cons_cons.mp first.chain
      have ends := first.ends
      rw [List.getLast?_cons_cons] at ends
      exact .cons precedes (inductionHypothesis ⟨chain, ends⟩)

end Leads

/-- The measurement that a result reports. -/
def reportedBy (result : SolveResult K n) : Landmark K n :=
  .measured result.solution result.finalError

end Landmark

namespace ProcedureScheme

variable {σ : Type}

/--
Each turn takes a trail up at a landmark where its state may stand, and leaves it at one where the
next state may stand. A turn that finishes, and a run at its limit, leaves it at the measurement
that is reported.
-/
structure IsLinked
    (procedures : ProcedureScheme K n σ (SolveResult K n))
    (scheme : Scheme K σ (SolveResult K n))
    (system : ExpressionSystem K n n)
    (lengths : List K)
    (Stands : σ → Landmark K n → Prop) :
    Prop where
  onward :
    ∀ {iteration state reported next prior},
      scheme.turn iteration state = (reported, .onward next) →
      Stands state prior →
      ∃ last,
        Landmark.Leads system lengths prior
            ((procedures.turn iteration state).ledger system).landmarks last ∧
          Stands next last
  finished :
    ∀ {iteration state reported result prior},
      scheme.turn iteration state = (reported, .finished result) →
      Stands state prior →
      Landmark.Leads system lengths prior
        ((procedures.turn iteration state).ledger system).landmarks (.reportedBy result)
  exhausted :
    ∀ {state prior},
      Stands state prior →
      Landmark.Leads system lengths prior
        ((procedures.atLimit state).ledger system).landmarks
        (.reportedBy (scheme.atLimit state).2)

/-- What is to be shown of the rest of a run: it goes on a trail, which ends with its result. -/
def GoesOn
    (system : ExpressionSystem K n n)
    (lengths : List K)
    (Stands : σ → Landmark K n → Prop)
    (_ : Nat)
    (state : σ)
    (spent : Ledger K n)
    (run : Run K (SolveResult K n)) :
    Prop :=
  ∀ prior,
    Stands state prior →
    ∃ last,
      Landmark.Leads system lengths prior spent.landmarks last ∧
        ∀ result, run.ending = .returned result → last = .reportedBy result

/-- Where every turn is linked to the one before, a whole run is a path. -/
theorem IsLinked.goesOn_runFrom
    {procedures : ProcedureScheme K n σ (SolveResult K n)}
    {scheme : Scheme K σ (SolveResult K n)}
    {system : ExpressionSystem K n n}
    {lengths : List K}
    {Stands : σ → Landmark K n → Prop}
    (linked : procedures.IsLinked scheme system lengths Stands)
    (performs : procedures.Performs scheme system)
    (polls : PollAnswers)
    (remaining iteration : Nat)
    (state : σ)
    (events : Array (Event K)) :
    GoesOn system lengths Stands iteration state
      ((procedures.runFrom polls remaining iteration state events).ledger system)
      (scheme.runFrom polls remaining iteration state events) := by
  refine performs.runFrom_induction polls (GoesOn system lengths Stands)
    ?cancelled ?exhausted ?finished ?onward rfl state events
  case cancelled =>
    intro iteration state events prior _
    refine ⟨prior, .nil prior, fun result returned => ?_⟩
    cases returned
  case exhausted =>
    intro state events prior stands
    refine ⟨_, linked.exhausted stands, fun result returned => ?_⟩
    rw [Ending.returned.injEq] at returned
    rw [returned]
  case finished =>
    intro iteration state reported finish events turned prior stands
    refine ⟨_, linked.finished turned stands, fun result returned => ?_⟩
    rw [Ending.returned.injEq] at returned
    rw [returned]
  case onward =>
    intro iteration state reported next spent run turned later prior stands
    obtain ⟨middle, leads, nextStands⟩ := linked.onward turned stands
    obtain ⟨last, laterLeads, ends⟩ := later middle nextStands
    exact ⟨last, leads.append laterLeads, ends⟩

end ProcedureScheme

namespace Procedure

open Landmark (Precedes Leads)

variable (system : ExpressionSystem K n n)

namespace Newton

/-- Newton's method measures at its point first, so this is what has to come next. -/
def Stands (state : IterationState K n) (prior : Landmark K n) : Prop :=
  Precedes system Method.newton.lengths prior (.measured state.x (errorAt system state.x))

variable {system} in
/-- Measuring stays where the path has arrived. -/
theorem leads_measured
    {state : IterationState K n}
    {prior : Landmark K n}
    (stands : Stands system state prior) :
    Leads system Method.newton.lengths prior ((measured state).ledger system).landmarks
      (.measured state.x (errorAt system state.x)) := by
  rw [ledger_measured]
  exact .cons stands (.nil _)

/-- An advance of Newton's method carries the path on by one step. -/
theorem leads_advanced (iteration : Nat) (state : IterationState K n) :
    Leads system Method.newton.lengths (.measured state.x (errorAt system state.x))
      ((advanced iteration (state.measured system)).ledger system).landmarks
      (.walked (step system iteration (state.measured system))) := by
  rw [ledger_advanced]
  exact .cons ⟨rfl, rfl, LineSearch.isChosen_choose _ _ _⟩ (.nil _)

/-- A step is what the next measurement has to follow. -/
theorem stands_advanced (iteration : Nat) (state : IterationState K n) :
    Stands system (RootFinding.Newton.advanced system iteration state).2
      (.walked (step system iteration state)) :=
  ⟨rfl, rfl⟩

/-- The turns of Newton's method are linked. -/
theorem isLinked (epsilon : K) (limit : Int) :
    (scheme epsilon limit).IsLinked (RootFinding.Newton.scheme system epsilon limit) system
      Method.newton.lengths (Stands system) where
  onward := by
    intro iteration state reported next prior turned stands
    obtain ⟨notDone, shape, notStalled⟩ :=
      RootFinding.Newton.onward_of_turn (congrArg Prod.snd turned)
    subst shape
    have ledger_eq := ledger_turn_of_onward notDone notStalled
    rw [scheme, ledger_eq]
    exact ⟨_, (leads_measured stands).append (leads_advanced system iteration state),
      stands_advanced system iteration _⟩
  finished := by
    intro iteration state reported result prior turned stands
    rcases RootFinding.Newton.finished_of_turn (congrArg Prod.snd turned) with
      ⟨done, shape⟩ | ⟨notDone, next, nextShape, stalled, shape⟩
    · subst shape
      have ledger_eq := ledger_turn_of_done done
      rw [scheme, ledger_eq]
      exact leads_measured stands
    · subst shape nextShape
      have ledger_eq := ledger_turn_of_stalled notDone stalled
      have lastLeads := leads_measured (stands_advanced system iteration (state.measured system))
      rw [scheme, ledger_eq]
      exact (leads_measured stands).append
        ((leads_advanced system iteration state).append lastLeads)
  exhausted := by
    intro state prior stands
    have ledger_eq :
        (atLimit epsilon limit state).ledger system = (measured state).ledger system :=
      ledger_atLimit limit
    rw [scheme, ledger_eq]
    exact leads_measured stands

end Newton

namespace Secant

open RootFinding.Secant (stepped isMeasured_advanced)

/-- The secant method has measured at its point last. -/
def Stands (state : SecantState K n) (prior : Landmark K n) : Prop :=
  prior = .measured state.x (errorAt system state.x) ∧
    state.toIterationState.IsMeasured system

variable {system} in
/-- Where the path stands is what a result there reports. -/
theorem Stands.eq_reportedBy
    {state : SecantState K n}
    {prior : Landmark K n}
    (stands : Stands system state prior)
    (iterations : Int)
    (converged : Bool)
    (methodUsed : String) :
    prior = .reportedBy (state.result iterations converged methodUsed) := by
  rw [stands.1, errorAt, ← stands.2.error_eq]
  rfl

variable {system} in
/-- A decision about a restart carries the path on to the midpoint or not at all. -/
theorem leads_settled
    {state : SecantState K n}
    {prior : Landmark K n}
    (stands : Stands system state prior)
    (epsilon : K)
    (iteration : Nat) :
    ∃ last,
      Leads system Method.secant.lengths prior
          ((settled epsilon iteration state).ledger system).landmarks last ∧
        Stands system (RootFinding.Secant.settled system epsilon iteration state).2 last := by
  obtain ⟨rfl, measured⟩ := stands
  cases restarted : restarts epsilon state with
  | true =>
      have shape := toIterationState_settled_of_restarts system restarted iteration
      unfold Stands
      rw [ledger_settled_of_restarts system restarted iteration, shape]
      exact ⟨_, .cons trivial (.cons ⟨rfl, rfl⟩ (.nil _)), rfl,
        IterationState.isMeasured_measured _ system⟩
  | false =>
      have shape := toIterationState_settled_of_not_restarts system restarted iteration
      unfold Stands
      rw [ledger_settled_of_not_restarts system restarted iteration, shape]
      exact ⟨_, .nil _, rfl, measured⟩

/-- The line search compares with the norm of the residuals that the state holds. -/
theorem isChosen_step
    {state : SecantState K n}
    (measured : state.toIterationState.IsMeasured system)
    (iteration : Nat) :
    LineSearch.IsChosen ((step system iteration state).accepts system) Method.secant.lengths
      (step system iteration state).alpha := by
  have before : errorAt system state.x = euclideanNorm state.fx := by
    rw [errorAt, ← measured.fx_eq]
  unfold Step.accepts
  change LineSearch.IsChosen
    (fun length => LineSearch.isSufficient (errorAt system state.x) length _) _ _
  rw [before]
  exact LineSearch.isChosen_choose _ _ _

/-- An advance arrives at the target of its step. -/
theorem x_advanced (epsilon : K) (iteration : Nat) (state : SecantState K n) :
    (RootFinding.Secant.advanced system epsilon iteration state).2.x =
      (step system iteration state).target := by
  unfold RootFinding.Secant.advanced
  dsimp only
  split <;> rfl

variable {system} in
/-- An advance of the secant method carries the path on by one step. -/
theorem leads_advanced
    {state : SecantState K n}
    {prior : Landmark K n}
    (stands : Stands system state prior)
    (epsilon : K)
    (iteration : Nat) :
    ∃ last,
      Leads system Method.secant.lengths prior
          ((advanced epsilon iteration state).ledger system).landmarks last ∧
        Stands system (RootFinding.Secant.advanced system epsilon iteration state).2 last := by
  obtain ⟨rfl, measured⟩ := stands
  have chosen := isChosen_step system measured iteration
  unfold Stands
  rw [ledger_advanced, x_advanced]
  exact ⟨_, .cons ⟨rfl, rfl, chosen⟩ (.cons ⟨rfl, rfl⟩ (.nil _)), rfl,
    isMeasured_advanced system epsilon iteration state⟩

/-- A turn that takes a step settles first. -/
theorem leads_turn
    {epsilon : K}
    {state : SecantState K n}
    {prior : Landmark K n}
    (large : Arithmetic.less state.error epsilon = false)
    (stands : Stands system state prior)
    (iteration : Nat) :
    ∃ last,
      Leads system Method.secant.lengths prior
          ((turn epsilon iteration state).ledger system).landmarks last ∧
        Stands system (stepped system epsilon iteration state) last := by
  obtain ⟨middle, leads, middleStands⟩ := leads_settled stands epsilon iteration
  obtain ⟨last, lastLeads, lastStands⟩ := leads_advanced middleStands epsilon iteration
  rw [ledger_turn_of_large system large iteration]
  exact ⟨last, leads.append lastLeads, lastStands⟩

/-- The turns of the secant method are linked. -/
theorem isLinked (epsilon : K) (limit : Int) :
    (scheme epsilon limit).IsLinked (RootFinding.Secant.scheme system epsilon limit) system
      Method.secant.lengths (Stands system) where
  onward := by
    intro iteration state reported next prior turned stands
    obtain ⟨large, shape, _⟩ := RootFinding.Secant.onward_of_turn (congrArg Prod.snd turned)
    subst shape
    exact leads_turn system large stands iteration
  finished := by
    intro iteration state reported result prior turned stands
    rcases RootFinding.Secant.finished_of_turn (congrArg Prod.snd turned) with
      ⟨small, shape⟩ | ⟨large, next, nextShape, _, shape⟩
    · have ledger_eq := ledger_turn_of_small system small iteration
      rw [scheme, ledger_eq, shape, ← stands.eq_reportedBy]
      exact .nil prior
    · obtain ⟨last, leads, lastStands⟩ := leads_turn system large stands iteration
      subst nextShape
      rw [shape, ← lastStands.eq_reportedBy]
      exact leads
  exhausted := by
    intro state prior stands
    have ends : prior = .reportedBy (RootFinding.Secant.atLimit epsilon limit state).2 :=
      stands.eq_reportedBy _ _ _
    change Leads system Method.secant.lengths prior [] (.reportedBy _)
    rw [RootFinding.Secant.scheme, ← ends]
    exact .nil prior

end Secant

end Procedure

/-- The landmarks of a run make up a trail from its first point. -/
theorem Method.leads_procedure
    (method : Method)
    (system : ExpressionSystem K n n)
    (x : Vector K n)
    (epsilon : K)
    (limit : Int)
    (polls : PollAnswers) :
    ∃ last,
      Landmark.Leads system method.lengths (.restarted x)
          ((method.procedure x epsilon limit polls).ledger system).landmarks last ∧
        ∀ result,
          (method.run system x epsilon limit polls).ending = .returned result →
          last = .reportedBy result := by
  cases method with
  | newton =>
      exact (Procedure.Newton.isLinked system epsilon limit).goesOn_runFrom
        (Procedure.Newton.performs system epsilon limit) polls _ _ _ _ (.restarted x) ⟨rfl, rfl⟩
  | secant =>
      obtain ⟨last, leads, ends⟩ :=
        (Procedure.Secant.isLinked system epsilon limit).goesOn_runFrom
          (Procedure.Secant.performs system epsilon limit) polls limit.toNat 0
          (Secant.start system x).2 (Secant.start system x).1.toArray _
          ⟨rfl, Secant.isMeasured_start system x⟩
      have shape := Procedure.Secant.ledger_run system x epsilon limit polls
      rw [Method.procedure, shape, Ledger.landmarks_append, Procedure.Secant.ledger_start]
      exact ⟨last, .cons ⟨rfl, rfl⟩ leads, ends⟩

end RootFinding
