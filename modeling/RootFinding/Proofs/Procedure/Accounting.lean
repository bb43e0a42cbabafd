import Mathlib.Tactic.Ring
import RootFinding.Proofs.Iteration.Cancellation
import RootFinding.Proofs.Procedure.Method

/-!
# What a run costs

A result reports how many values of expressions its run asked for and how many entries of Jacobians
were estimated. Both are counted by hand along the run, and both agree with the ledger of the run as
a procedure. A ledger accounts for the counters before and after it at the tariff of its method;
accounts of one ledger after the other add up, so a run accounts for what its turns account for.
-/

namespace RootFinding

/-- The two counters that a run keeps. -/
structure Counters where
  functionEvaluations : Nat
  jacobianEvaluations : Nat

/-- What a method pays for a step, and what else it may do. -/
structure Tariff where
  /-- Vectors of residuals for each step, trials apart. -/
  vectorsPerStep : Nat
  /-- Entries of Jacobians for each step. -/
  jacobianPerStep : Nat
  /-- A line search tries at most so many lengths. -/
  mostTrials : Nat
  mayRestart : Bool

/-- A turn measures, and has one more vector for each column of the Jacobian. -/
def Newton.tariff (n : Nat) : Tariff where
  vectorsPerStep := n + 1
  jacobianPerStep := n * n
  mostTrials := 8
  mayRestart := false

/-- A step is followed by one measurement. -/
def Secant.tariff : Tariff where
  vectorsPerStep := 1
  jacobianPerStep := 0
  mostTrials := 5
  mayRestart := true

/--
The ledger explains the counters `after` from those `before`, with `extra` vectors of residuals that
belong to no step.
-/
structure Ledger.Accounts
    {K : Type}
    {n : Nat}
    (spent : Ledger K n)
    (tariff : Tariff)
    (extra : Nat)
    (before after : Counters) :
    Prop where
  calls_eq : spent.calls = n * spent.vectors
  vectors_eq :
    spent.vectors =
      extra + tariff.vectorsPerStep * spent.steps + spent.restarts + spent.trials
  functionEvaluations_eq :
    after.functionEvaluations = before.functionEvaluations + spent.calls
  jacobianEvaluations_eq :
    after.jacobianEvaluations =
      before.jacobianEvaluations + tariff.jacobianPerStep * spent.steps
  steps_le_trials : spent.steps ≤ spent.trials
  trials_le : spent.trials ≤ tariff.mostTrials * spent.steps
  restarts_eq_zero : tariff.mayRestart = false → spent.restarts = 0

namespace Ledger.Accounts

variable {K : Type} {n : Nat}
variable {tariff : Tariff}

theorem blank (counters : Counters) :
    (Ledger.blank : Ledger K n).Accounts tariff 0 counters counters where
  calls_eq := rfl
  vectors_eq := by simp [Ledger.blank, steps, restarts]
  functionEvaluations_eq := rfl
  jacobianEvaluations_eq := by simp [Ledger.blank, steps]
  steps_le_trials := Nat.le_refl _
  trials_le := Nat.zero_le _
  restarts_eq_zero _ := rfl

/-- Accounts of one ledger after the other add up. -/
theorem append
    {first second : Ledger K n}
    {firstExtra secondExtra : Nat}
    {before between after : Counters}
    (firstAccounts : first.Accounts tariff firstExtra before between)
    (secondAccounts : second.Accounts tariff secondExtra between after) :
    (first ++ second).Accounts tariff (firstExtra + secondExtra) before after where
  calls_eq := by
    rw [calls_append, vectors_append, firstAccounts.calls_eq, secondAccounts.calls_eq,
      Nat.mul_add]
  vectors_eq := by
    rw [vectors_append, steps_append, restarts_append, trials_append, firstAccounts.vectors_eq,
      secondAccounts.vectors_eq, Nat.mul_add]
    omega
  functionEvaluations_eq := by
    rw [calls_append, secondAccounts.functionEvaluations_eq,
      firstAccounts.functionEvaluations_eq, Nat.add_assoc]
  jacobianEvaluations_eq := by
    rw [steps_append, secondAccounts.jacobianEvaluations_eq,
      firstAccounts.jacobianEvaluations_eq, Nat.mul_add, Nat.add_assoc]
  steps_le_trials := by
    rw [steps_append, trials_append]
    exact Nat.add_le_add firstAccounts.steps_le_trials secondAccounts.steps_le_trials
  trials_le := by
    rw [steps_append, trials_append, Nat.mul_add]
    exact Nat.add_le_add firstAccounts.trials_le secondAccounts.trials_le
  restarts_eq_zero never := by
    rw [restarts_append, firstAccounts.restarts_eq_zero never,
      secondAccounts.restarts_eq_zero never]

end Ledger.Accounts

/-- The run says of itself that it converged. -/
def Event.isConvergence {K : Type} : Event K → Bool
  | .converged _ _ _ => true
  | _ => false

/--
The run was left through the check that opens a turn: it is the only exit that reports a
convergence, and every exit reports itself last.
-/
def Run.leftAtTop {K ρ : Type} (run : Run K ρ) : Bool :=
  run.events.back?.any Event.isConvergence

/-- The last event that was reported tells how the run left. -/
theorem Run.leftAtTop_appendList
    {K ρ : Type}
    {reported : List (Event K)}
    {last : Event K}
    (ends : reported.getLast? = some last)
    (events : Array (Event K))
    (ending : Ending ρ) :
    Run.leftAtTop { events := events.appendList reported, ending } = last.isConvergence := by
  have back : (events.appendList reported).back? = some last := by
    rw [Array.appendList_eq_append, ← Array.getLast?_toList, Array.toList_appendList,
      List.getLast?_append, ends, Option.some_or]
  rw [leftAtTop, back, Option.any_some]

/-- The counters of a state. -/
def IterationState.counters {K : Type} {n : Nat} (state : IterationState K n) : Counters where
  functionEvaluations := state.functionEvaluations
  jacobianEvaluations := state.jacobianEvaluations

/-- The counters that a result reports. -/
def SolveResult.counters {K : Type} {n : Nat} (result : SolveResult K n) : Counters where
  functionEvaluations := result.functionEvaluations
  jacobianEvaluations := result.jacobianEvaluations

/-- A line search tries at least one length, and none of its lengths twice. -/
theorem LineSearch.trials_bounds
    {K : Type}
    [Scalar K]
    {m n : Nat}
    (system : ExpressionSystem K m n)
    (x dx : Vector K n)
    (before alpha next : K)
    (count : Nat) :
    let choice := backtrack system x dx before alpha (halvings next count)
    1 ≤ choice.trials ∧ choice.trials ≤ count + 1 := by
  have most := trials_choose_le
    (fun length => isSufficient before length (normAfter system x dx length)) alpha
    (halvings next count)
  rw [length_halvings] at most
  exact ⟨trials_choose_pos _ _ _, most⟩

namespace ProcedureScheme

variable {K : Type} [Scalar K] {n : Nat} {σ : Type}

/--
What the turns of a method account for. A turn that goes on takes one step; one that finishes takes
one unless it converged at its top. After the last turn there are `closing` vectors that belong to
no step.
-/
structure IsPriced
    (procedures : ProcedureScheme K n σ (SolveResult K n))
    (scheme : Scheme K σ (SolveResult K n))
    (system : ExpressionSystem K n n)
    (tariff : Tariff)
    (closing : Nat)
    (counters : σ → Counters) :
    Prop where
  onward :
    ∀ {iteration state reported next},
      scheme.turn iteration state = (reported, .onward next) →
      ((procedures.turn iteration state).ledger system).Accounts tariff 0
          (counters state) (counters next) ∧
        ((procedures.turn iteration state).ledger system).steps = 1
  finished :
    ∀ {iteration state reported result},
      scheme.turn iteration state = (reported, .finished result) →
      ((procedures.turn iteration state).ledger system).Accounts tariff closing
          (counters state) result.counters ∧
        ∃ last,
          reported.getLast? = some last ∧
            ((procedures.turn iteration state).ledger system).steps =
              if last.isConvergence then 0 else 1
  exhausted :
    ∀ state,
      ((procedures.atLimit state).ledger system).Accounts tariff closing
          (counters state) (scheme.atLimit state).2.counters ∧
        ((procedures.atLimit state).ledger system).steps = 0 ∧
        ∃ last,
          (scheme.atLimit state).1.getLast? = some last ∧ last.isConvergence = false

/--
What is to be shown of the rest of a run that stands before turn `iteration`: it accounts for its
result, and took a step in each of its turns but one that it left at the top.
-/
def Balances
    (tariff : Tariff)
    (closing : Nat)
    (counters : σ → Counters)
    (iteration : Nat)
    (state : σ)
    (spent : Ledger K n)
    (run : Run K (SolveResult K n)) :
    Prop :=
  ∀ result,
    run.ending = .returned result →
    spent.Accounts tariff closing (counters state) result.counters ∧
      ((iteration + spent.steps : Nat) : Int) =
        if run.leftAtTop then result.iterations - 1 else max result.iterations 0

/-- Where every turn is priced, a whole run balances. -/
theorem IsPriced.balances_runFrom
    {procedures : ProcedureScheme K n σ (SolveResult K n)}
    {scheme : Scheme K σ (SolveResult K n)}
    {system : ExpressionSystem K n n}
    {tariff : Tariff}
    {closing : Nat}
    {counters : σ → Counters}
    {limit : Int}
    (priced : procedures.IsPriced scheme system tariff closing counters)
    (performs : procedures.Performs scheme system)
    (numbers : scheme.NumbersTurns limit)
    (polls : PollAnswers)
    (start : σ)
    (events : Array (Event K)) :
    Balances tariff closing counters 0 start
      ((procedures.runFrom polls limit.toNat 0 start events).ledger system)
      (scheme.runFrom polls limit.toNat 0 start events) := by
  refine performs.runFrom_induction polls (Balances tariff closing counters)
    ?cancelled ?exhausted ?finished ?onward (Nat.zero_add _) start events
  case cancelled =>
    intro iteration state events result returned
    cases returned
  case exhausted =>
    intro state events result returned
    rw [Ending.returned.injEq] at returned
    subst returned
    obtain ⟨accounts, noStep, last, ends, notTop⟩ := priced.exhausted state
    refine ⟨accounts, ?_⟩
    rw [Run.leftAtTop_appendList ends, notTop, noStep, numbers.iterations_atLimit]
    simp only [Bool.false_eq_true, ↓reduceIte]
    omega
  case finished =>
    intro iteration state reported finish events turned result returned
    rw [Ending.returned.injEq] at returned
    subst returned
    obtain ⟨accounts, last, ends, steps_eq⟩ := priced.finished turned
    refine ⟨accounts, ?_⟩
    rw [Run.leftAtTop_appendList ends, steps_eq,
      numbers.iterations_of_finished (congrArg Prod.snd turned)]
    split <;> omega
  case onward =>
    intro iteration state reported next spent run turned later result returned
    obtain ⟨laterAccounts, counted⟩ := later result returned
    obtain ⟨accounts, oneStep⟩ := priced.onward turned
    refine ⟨Nat.zero_add closing ▸ accounts.append laterAccounts, ?_⟩
    rw [← counted, Ledger.steps_append, oneStep]
    omega

end ProcedureScheme

namespace Procedure

variable {K : Type} [Scalar K] {n : Nat}
variable (system : ExpressionSystem K n n)

/-- A measurement that belongs to no step. -/
theorem accounts_measured (tariff : Tariff) (state : IterationState K n) :
    ((measured state).ledger system).Accounts tariff 1
        state.counters (state.measured system).counters ∧
      ((measured state).ledger system).steps = 0 := by
  rw [ledger_measured]
  refine ⟨?_, rfl⟩
  constructor
  case calls_eq => exact (Nat.mul_one n).symm
  case vectors_eq =>
    change 1 = 1 + tariff.vectorsPerStep * 0 + 0 + 0
    omega
  case functionEvaluations_eq => rfl
  case jacobianEvaluations_eq => rfl
  case steps_le_trials => exact Nat.le_refl _
  case trials_le => exact Nat.zero_le _
  case restarts_eq_zero => exact fun _ => rfl

namespace Newton

open RootFinding.Newton (tariff)

/-- A step is measured first, so its tariff holds for both together. -/
theorem accounts_advanced (iteration : Nat) (state : IterationState K n) :
    let spent :=
      (measured state).ledger system ++
        (advanced iteration (state.measured system)).ledger system
    spent.Accounts (tariff n) 0 state.counters
        (RootFinding.Newton.advanced system iteration (state.measured system)).2.counters ∧
      spent.steps = 1 := by
  intro spent
  let tried := (choice system iteration (state.measured system)).trials
  have few : 1 ≤ tried ∧ tried ≤ 8 := LineSearch.trials_bounds system _ _ _ _ _ 7
  have shape :
      spent =
        ⟨n + (n * n + n * tried), 1 + (n + tried), tried,
          [.measured state.x (euclideanNorm (RootFinding.residuals system state.x)),
            .walked (step system iteration (state.measured system))]⟩ := by
    simp only [spent, ledger_measured, ledger_advanced]
    ext1 <;> simp [tried]
  have oneStep : spent.steps = 1 := by
    rw [shape]
    rfl
  have noRestart : spent.restarts = 0 := by
    rw [shape]
    rfl
  rw [shape] at oneStep noRestart ⊢
  refine ⟨?_, oneStep⟩
  constructor
  case calls_eq =>
    change n + (n * n + n * tried) = n * (1 + (n + tried))
    ring
  case vectors_eq =>
    rw [oneStep, noRestart]
    change 1 + (n + tried) = 0 + (n + 1) * 1 + 0 + tried
    omega
  case functionEvaluations_eq =>
    change state.functionEvaluations + n + n * n + n * tried =
      state.functionEvaluations + (n + (n * n + n * tried))
    omega
  case jacobianEvaluations_eq =>
    rw [oneStep]
    exact congrArg _ (Nat.mul_one _).symm
  case steps_le_trials =>
    rw [oneStep]
    exact few.1
  case trials_le =>
    rw [oneStep]
    exact few.2
  case restarts_eq_zero => exact fun _ => noRestart

/-- All turns of Newton's method and its report at the limit are priced. -/
theorem isPriced (epsilon : K) (limit : Int) :
    (scheme epsilon limit).IsPriced (RootFinding.Newton.scheme system epsilon limit) system
      (tariff n) 1 IterationState.counters where
  onward := by
    intro iteration state reported next turned
    obtain ⟨notDone, shape, notStalled⟩ :=
      RootFinding.Newton.onward_of_turn (congrArg Prod.snd turned)
    subst shape
    have ledger_eq := ledger_turn_of_onward notDone notStalled
    rw [scheme, ledger_eq]
    exact accounts_advanced system iteration state
  finished := by
    intro iteration state reported result turned
    have reported_eq := congrArg Prod.fst turned
    rcases RootFinding.Newton.finished_of_turn (congrArg Prod.snd turned) with
      ⟨done, shape⟩ | ⟨notDone, next, nextShape, stalled, shape⟩
    · subst shape
      obtain ⟨accounts, noStep⟩ := accounts_measured system (tariff n) state
      have ledger_eq := ledger_turn_of_done done
      simp only [RootFinding.Newton.scheme, RootFinding.Newton.turn, done, ↓reduceIte]
        at reported_eq
      rw [scheme, ledger_eq, ← reported_eq]
      exact ⟨accounts, .converged .newton _ _, rfl, noStep⟩
    · subst shape nextShape
      obtain ⟨accounts, oneStep⟩ := accounts_advanced system iteration state
      obtain ⟨lastAccounts, noStep⟩ := accounts_measured system (tariff n)
        (RootFinding.Newton.advanced system iteration (state.measured system)).2
      have ledger_eq := ledger_turn_of_stalled notDone stalled
      simp only [RootFinding.Newton.scheme, RootFinding.Newton.turn, notDone, stalled,
        Bool.false_eq_true, ↓reduceIte] at reported_eq
      rw [scheme, ledger_eq, ← Ledger.append_assoc, ← reported_eq]
      refine ⟨accounts.append lastAccounts, .stalled .newton _ _ _, List.getLast?_concat, ?_⟩
      rw [Ledger.steps_append, oneStep, noStep]
      rfl
  exhausted := by
    intro state
    obtain ⟨accounts, noStep⟩ := accounts_measured system (tariff n) state
    have ledger_eq :
        (atLimit epsilon limit state).ledger system = (measured state).ledger system :=
      ledger_atLimit limit
    rw [scheme, ledger_eq]
    exact ⟨accounts, noStep, _, rfl, rfl⟩

end Newton

namespace Secant

open RootFinding.Secant (tariff)

/-- A restart is one measurement, and it is counted as a restart. -/
theorem accounts_settled (epsilon : K) (iteration : Nat) (state : SecantState K n) :
    let spent := (settled epsilon iteration state).ledger system
    spent.Accounts tariff 0 state.counters
        (RootFinding.Secant.settled system epsilon iteration state).2.counters ∧
      spent.steps = 0 := by
  intro spent
  cases restarted : restarts epsilon state with
  | true =>
      have shape : spent = _ := ledger_settled_of_restarts system restarted iteration
      rw [toIterationState_settled_of_restarts system restarted iteration, shape]
      refine ⟨?_, rfl⟩
      constructor
      case calls_eq => exact (Nat.mul_one n).symm
      case vectors_eq => rfl
      case functionEvaluations_eq => rfl
      case jacobianEvaluations_eq => rfl
      case steps_le_trials => exact Nat.le_refl _
      case trials_le => exact Nat.zero_le _
      case restarts_eq_zero => exact fun never => by cases never
  | false =>
      have shape : spent = _ := ledger_settled_of_not_restarts system restarted iteration
      rw [toIterationState_settled_of_not_restarts system restarted iteration, shape]
      exact ⟨.blank _, rfl⟩

/-- An advance of the secant method is one step, charged for its trials. -/
theorem accounts_advanced (epsilon : K) (iteration : Nat) (state : SecantState K n) :
    let spent := (advanced epsilon iteration state).ledger system
    spent.Accounts tariff 0 state.counters
        (RootFinding.Secant.advanced system epsilon iteration state).2.counters ∧
      spent.steps = 1 := by
  intro spent
  let tried := (choice system iteration state).trials
  have few : 1 ≤ tried ∧ tried ≤ 5 := LineSearch.trials_bounds system _ _ _ _ _ 4
  have counters_eq :
      (RootFinding.Secant.advanced system epsilon iteration state).2.counters =
        ⟨state.functionEvaluations + n * tried + n, state.jacobianEvaluations⟩ := by
    unfold RootFinding.Secant.advanced
    dsimp only
    split <;> rfl
  have shape : spent = _ := ledger_advanced system epsilon iteration state
  rw [counters_eq, shape]
  refine ⟨?_, rfl⟩
  constructor
  case calls_eq =>
    change n * tried + n = n * (tried + 1)
    ring
  case vectors_eq =>
    change tried + 1 = 0 + 1 * 1 + 0 + tried
    omega
  case functionEvaluations_eq => exact Nat.add_assoc _ _ _
  case jacobianEvaluations_eq => rfl
  case steps_le_trials => exact few.1
  case trials_le => exact few.2
  case restarts_eq_zero => exact fun never => by cases never

/-- All turns of the secant method are priced, and its report at the limit is free. -/
theorem isPriced (epsilon : K) (limit : Int) :
    (scheme epsilon limit).IsPriced (RootFinding.Secant.scheme system epsilon limit) system
      tariff 0 fun state => state.counters where
  onward := by
    intro iteration state reported next turned
    obtain ⟨large, shape, notStuck⟩ :=
      RootFinding.Secant.onward_of_turn (congrArg Prod.snd turned)
    subst shape
    have ledger_eq := ledger_turn_of_large system large iteration
    obtain ⟨accounts, noStep⟩ := accounts_settled system epsilon iteration state
    obtain ⟨nextAccounts, oneStep⟩ := accounts_advanced system epsilon iteration
      (RootFinding.Secant.settled system epsilon iteration state).2
    rw [scheme, ledger_eq]
    refine ⟨accounts.append nextAccounts, ?_⟩
    rw [Ledger.steps_append, noStep, oneStep]
  finished := by
    intro iteration state reported result turned
    have reported_eq := congrArg Prod.fst turned
    rcases RootFinding.Secant.finished_of_turn (congrArg Prod.snd turned) with
      ⟨small, shape⟩ | ⟨large, next, nextShape, stuck, shape⟩
    · subst shape
      have ledger_eq := ledger_turn_of_small system small iteration
      simp only [RootFinding.Secant.scheme, RootFinding.Secant.turn, small, ↓reduceIte]
        at reported_eq
      rw [scheme, ledger_eq, ← reported_eq]
      exact ⟨.blank _, .converged .secant _ _, rfl, rfl⟩
    · subst shape nextShape
      have ledger_eq := ledger_turn_of_large system large iteration
      obtain ⟨accounts, noStep⟩ := accounts_settled system epsilon iteration state
      obtain ⟨nextAccounts, oneStep⟩ := accounts_advanced system epsilon iteration
        (RootFinding.Secant.settled system epsilon iteration state).2
      rw [RootFinding.Secant.stepped] at stuck
      simp only [RootFinding.Secant.scheme, RootFinding.Secant.turn, large, stuck,
        Bool.false_eq_true, ↓reduceIte] at reported_eq
      rw [scheme, ledger_eq, ← reported_eq]
      refine ⟨accounts.append nextAccounts, .stalled .secant _ _ _, List.getLast?_concat, ?_⟩
      rw [Ledger.steps_append, noStep, oneStep]
      rfl
  exhausted _ := ⟨.blank _, rfl, _, rfl, rfl⟩

/-- Both points of the first pair are paid for before the first turn. -/
theorem accounts_start (x : Vector K n) :
    ((start x).ledger system).Accounts tariff 2 ⟨0, 0⟩
        (RootFinding.Secant.start system x).2.counters ∧
      ((start x).ledger system).steps = 0 := by
  rw [ledger_start]
  refine ⟨?_, rfl⟩
  constructor
  case calls_eq => exact (Nat.mul_two n).symm
  case vectors_eq => rfl
  case functionEvaluations_eq => exact Nat.add_assoc _ _ _
  case jacobianEvaluations_eq => rfl
  case steps_le_trials => exact Nat.le_refl _
  case trials_le => exact Nat.zero_le _
  case restarts_eq_zero => exact fun never => by cases never

end Secant

end Procedure

variable {K : Type} {n : Nat}

/-- What a result reports of the cost, in terms of what its run did. -/
def SolveResult.IsCharged
    (result : SolveResult K n)
    (method : Method)
    (spent : Ledger K n) :
    Prop :=
  match method with
  | .newton =>
      result.jacobianEvaluations = n ^ 2 * spent.steps ∧
        result.functionEvaluations =
          n * (spent.steps + 1) + n ^ 2 * spent.steps + n * spent.trials ∧
        spent.steps ≤ spent.trials ∧
        spent.trials ≤ 8 * spent.steps
  | .secant =>
      result.jacobianEvaluations = 0 ∧
        result.functionEvaluations =
          2 * n + n * spent.steps + n * spent.restarts + n * spent.trials ∧
        spent.steps ≤ spent.trials ∧
        spent.trials ≤ 5 * spent.steps

/-- An account of Newton's method gives the charges of its result. -/
theorem Ledger.Accounts.isCharged_newton
    {spent : Ledger K n}
    {result : SolveResult K n}
    (accounts : spent.Accounts (Newton.tariff n) 1 ⟨0, 0⟩ result.counters) :
    result.IsCharged .newton spent := by
  have vectors_eq := accounts.vectors_eq
  have functions : result.functionEvaluations = 0 + spent.calls :=
    accounts.functionEvaluations_eq
  have entries : result.jacobianEvaluations = 0 + n * n * spent.steps :=
    accounts.jacobianEvaluations_eq
  rw [accounts.restarts_eq_zero rfl] at vectors_eq
  rw [accounts.calls_eq, vectors_eq, Newton.tariff] at functions
  refine ⟨?_, ?_, accounts.steps_le_trials, accounts.trials_le⟩
  · rw [entries]
    ring
  · rw [functions]
    ring

/-- An account of the secant method gives the charges of its result. -/
theorem Ledger.Accounts.isCharged_secant
    {spent : Ledger K n}
    {result : SolveResult K n}
    (accounts : spent.Accounts Secant.tariff 2 ⟨0, 0⟩ result.counters) :
    result.IsCharged .secant spent := by
  have functions : result.functionEvaluations = 0 + spent.calls :=
    accounts.functionEvaluations_eq
  have entries : result.jacobianEvaluations = 0 + 0 * spent.steps :=
    accounts.jacobianEvaluations_eq
  rw [accounts.calls_eq, accounts.vectors_eq, Secant.tariff] at functions
  refine ⟨?_, ?_, accounts.steps_le_trials, accounts.trials_le⟩
  · rw [entries]
    ring
  · rw [functions]
    ring

variable [Scalar K]

/--
The reported evaluations are the questions that the method as a procedure asks, `n` for each vector
of residuals, and make up what the steps, restarts and trials of the run cost. A run that is left
at the top of a turn took a step in each turn before it, any other run in each of its turns, of
which a negative limit allows none.
-/
theorem evaluations_eq_charges
    (method : Method)
    (system : ExpressionSystem K n n)
    (x : Vector K n)
    (epsilon : K)
    (limit : Int)
    (polls : PollAnswers)
    {result : SolveResult K n}
    (returned : (method.run system x epsilon limit polls).ending = .returned result) :
    let run := method.run system x epsilon limit polls
    let procedure := method.procedure x epsilon limit polls
    let spent := procedure.ledger system
    procedure.value system = run ∧
      result.functionEvaluations = spent.calls ∧
      spent.calls = n * spent.vectors ∧
      result.IsCharged method spent ∧
      (spent.steps : Int) =
        if run.leftAtTop then result.iterations - 1 else max result.iterations 0 := by
  intro run procedure spent
  have value_eq := method.value_procedure system x epsilon limit polls
  cases method with
  | newton =>
      obtain ⟨accounts, counted⟩ :=
        (Procedure.Newton.isPriced system epsilon limit).balances_runFrom
          (Procedure.Newton.performs system epsilon limit)
          (Newton.numbersTurns system epsilon limit) polls (.atPoint x) #[] result returned
      rw [Nat.zero_add] at counted
      have functions : result.functionEvaluations = 0 + spent.calls :=
        accounts.functionEvaluations_eq
      exact ⟨value_eq, by omega, accounts.calls_eq, accounts.isCharged_newton, counted⟩
  | secant =>
      obtain ⟨runAccounts, counted⟩ :=
        (Procedure.Secant.isPriced system epsilon limit).balances_runFrom
          (Procedure.Secant.performs system epsilon limit)
          (Secant.numbersTurns system epsilon limit) polls (Secant.start system x).2
          (Secant.start system x).1.toArray result returned
      obtain ⟨startAccounts, noStep⟩ := Procedure.Secant.accounts_start system x
      have shape : spent = _ := Procedure.Secant.ledger_run system x epsilon limit polls
      have accounts := startAccounts.append runAccounts
      rw [← shape] at accounts
      have functions : result.functionEvaluations = 0 + spent.calls :=
        accounts.functionEvaluations_eq
      refine ⟨value_eq, by omega, accounts.calls_eq, accounts.isCharged_secant, ?_⟩
      rw [shape, Ledger.steps_append, noStep]
      exact counted

/--
A run of twelve turns on a constant residual asks for 75 values. Steps and trials explain at most 74
of them, so it restarts.
-/
theorem charges_after_restart :
    let system : ExpressionSystem Float 1 1 := #v[[⟨1.0, .one⟩]]
    let run := Method.secant.run system #v[0.0] 0.01 12 .never
    let spent := (Method.secant.procedure #v[0.0] 0.01 12 .never).ledger system
    ∃ result,
      run.ending = .returned result ∧
        spent.calls = 75 ∧
        result.IsCharged .secant spent ∧
        1 ≤ spent.restarts := by
  have passed :
      (Method.secant.run (#v[[⟨1.0, .one⟩]] : ExpressionSystem Float 1 1)
        #v[0.0] 0.01 12 .never).ending.passes
          (fun result => result.functionEvaluations = 75 && result.iterations = 12) = true := by
    decide +kernel
  intro system run spent
  obtain ⟨result, returned, reported⟩ := Ending.exists_of_passes passed
  rw [Bool.and_eq_true, decide_eq_true_eq, decide_eq_true_eq] at reported
  obtain ⟨_, functions, _, charged, counted⟩ :=
    evaluations_eq_charges .secant system #v[0.0] 0.01 12 .never returned
  have explained :
      result.functionEvaluations =
        2 * 1 + 1 * spent.steps + 1 * spent.restarts + 1 * spent.trials :=
    charged.2.1
  have mostTrials : spent.trials ≤ 5 * spent.steps :=
    charged.2.2.2
  have few : (spent.steps : Int) ≤ 12 := by
    rw [counted, reported.2]
    split <;> decide
  exact ⟨result, returned, functions.symm.trans reported.1, charged, by omega⟩

/-- A negative limit is reported as the number of iterations, although no step is taken. -/
theorem negative_limit_takes_no_step :
    let system : ExpressionSystem Float 1 1 := #v[[⟨1.0, .single 0⟩]]
    let run := Method.newton.run system #v[1.0] 0.01 (-1) .never
    let spent := (Method.newton.procedure #v[1.0] 0.01 (-1) .never).ledger system
    ∃ result,
      run.ending = .returned result ∧
        run.leftAtTop = false ∧
        (spent.steps : Int) ≠ result.iterations :=
  ⟨_, rfl, by decide +kernel, by decide +kernel⟩

end RootFinding
