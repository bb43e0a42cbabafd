import RootFinding.Expression.Basic

/-!
# Procedures

A procedure does not see the system that it computes with. All it can do is to ask for the value of
one expression at one point, so every evaluation of the system is a question of the procedure. On
the way it notes what it is about; its ledger holds these notes and the number of its questions.
-/

namespace RootFinding

/-- A step that is applied to a point. -/
structure Step (K : Type) (n : Nat) where
  origin : Vector K n
  direction : Vector K n
  alpha : K

/-- The point that a step leads to. -/
def Step.target {K : Type} [Arithmetic K] {n : Nat} (step : Step K n) : Vector K n :=
  moved step.origin step.alpha step.direction

/-- What changes the point of a run, or measures the error there. -/
inductive Landmark (K : Type) (n : Nat) where
  | measured (point : Vector K n) (error : K)
  | walked (step : Step K n)
  | restarted (point : Vector K n)

/-- What a procedure notes. -/
inductive Remark (K : Type) (n : Nat) where
  | vector
  | trial
  | landmark (mark : Landmark K n)

/-- A computation that asks for values of expressions and takes notes. -/
inductive Procedure (K : Type) (n : Nat) (α : Type) where
  | done (result : α)
  | ask (index : Fin n) (point : Vector K n) (next : K → Procedure K n α)
  | note (remark : Remark K n) (next : Procedure K n α)

/-- How often a procedure asked, and what it noted. -/
@[ext]
structure Ledger (K : Type) (n : Nat) where
  calls : Nat
  vectors : Nat
  trials : Nat
  landmarks : List (Landmark K n)

namespace Landmark

variable {K : Type} {n : Nat}

def isStep : Landmark K n → Bool
  | .walked _ => true
  | _ => false

def isRestart : Landmark K n → Bool
  | .restarted _ => true
  | _ => false

end Landmark

namespace Ledger

variable {K : Type} {n : Nat}

/-- The ledger in which nothing stands. -/
def blank : Ledger K n :=
  ⟨0, 0, 0, []⟩

/-- One ledger after the other. -/
def followedBy (first second : Ledger K n) : Ledger K n where
  calls := first.calls + second.calls
  vectors := first.vectors + second.vectors
  trials := first.trials + second.trials
  landmarks := first.landmarks ++ second.landmarks

instance : Append (Ledger K n) where
  append := followedBy

/-- The ledger of one question. -/
def ofCall : Ledger K n :=
  ⟨1, 0, 0, []⟩

def ofRemark : Remark K n → Ledger K n
  | .vector => ⟨0, 1, 0, []⟩
  | .trial => ⟨0, 0, 1, []⟩
  | .landmark mark => ⟨0, 0, 0, [mark]⟩

/-- How many steps were applied. -/
def steps (ledger : Ledger K n) : Nat :=
  ledger.landmarks.countP Landmark.isStep

/-- How often the point was set back between two points. -/
def restarts (ledger : Ledger K n) : Nat :=
  ledger.landmarks.countP Landmark.isRestart

variable (first second : Ledger K n)

@[simp]
theorem calls_append : (first ++ second).calls = first.calls + second.calls :=
  rfl

@[simp]
theorem vectors_append : (first ++ second).vectors = first.vectors + second.vectors :=
  rfl

@[simp]
theorem trials_append : (first ++ second).trials = first.trials + second.trials :=
  rfl

@[simp]
theorem landmarks_append :
    (first ++ second).landmarks = first.landmarks ++ second.landmarks :=
  rfl

@[simp]
theorem steps_append : (first ++ second).steps = first.steps + second.steps :=
  List.countP_append

@[simp]
theorem restarts_append : (first ++ second).restarts = first.restarts + second.restarts :=
  List.countP_append

@[simp]
theorem append_blank : first ++ blank = first := by
  ext1 <;> simp [blank]

@[simp]
theorem blank_append : blank ++ second = second := by
  ext1 <;> simp [blank]

/-- Ledgers may be closed in any grouping. -/
theorem append_assoc (third : Ledger K n) :
    first ++ second ++ third = first ++ (second ++ third) := by
  ext1 <;> simp [Nat.add_assoc]

end Ledger

namespace Procedure

variable {K : Type} {n : Nat} {α β : Type}

/-- Go on with the result of a procedure. -/
protected def bind : Procedure K n α → (α → Procedure K n β) → Procedure K n β
  | .done result, next => next result
  | .ask index point rest, next => .ask index point fun answer => (rest answer).bind next
  | .note remark rest, next => .note remark (rest.bind next)

instance : Monad (Procedure K n) where
  pure := .done
  bind := .bind

/-- The value of one expression at a point. -/
def valueOf (index : Fin n) (point : Vector K n) : Procedure K n K :=
  .ask index point .done

def remark (entry : Remark K n) : Procedure K n Unit :=
  .note entry (.done ())

/-- One computation for each index, in order. -/
def forEach : (count : Nat) → (Fin count → Procedure K n α) → Procedure K n (Vector α count)
  | 0, _ => return .ofFn Fin.elim0
  | count + 1, compute => do
      let entries ← forEach count fun i => compute i.castSucc
      let last ← compute (Fin.last count)
      return entries.push last

section Answers

variable [Arithmetic K] (system : ExpressionSystem K n n)

/-- What a procedure comes to where a system answers its questions. -/
def value : Procedure K n α → α
  | .done result => result
  | .ask index point next => (next ((system.get index).valueAt point)).value
  | .note _ next => next.value

/-- What a procedure enters in its ledger where a system answers its questions. -/
def ledger : Procedure K n α → Ledger K n
  | .done _ => .blank
  | .ask index point next =>
      Ledger.ofCall ++ (next ((system.get index).valueAt point)).ledger
  | .note entry next => .ofRemark entry ++ next.ledger

@[simp]
theorem value_pure (result : α) :
    value system (pure result : Procedure K n α) = result :=
  rfl

@[simp]
theorem ledger_pure (result : α) :
    ledger system (pure result : Procedure K n α) = .blank :=
  rfl

/-- The value of a sequence is the value of its second part behind that of its first. -/
@[simp]
theorem value_bind (first : Procedure K n α) (next : α → Procedure K n β) :
    value system (first >>= next) = value system (next (value system first)) := by
  change value system (first.bind next) = _
  induction first with
  | done result => rfl
  | ask index point rest inductionHypothesis => exact inductionHypothesis _
  | note entry rest inductionHypothesis => exact inductionHypothesis

/-- The ledger of a sequence is that of its first part followed by that of the rest. -/
@[simp]
theorem ledger_bind (first : Procedure K n α) (next : α → Procedure K n β) :
    ledger system (first >>= next) =
      ledger system first ++ ledger system (next (value system first)) := by
  change ledger system (first.bind next) = _
  induction first with
  | done result =>
      simp only [Procedure.bind, ledger, value, Ledger.blank_append]
  | ask index point rest inductionHypothesis =>
      simp only [Procedure.bind, ledger, value, inductionHypothesis, Ledger.append_assoc]
  | note entry rest inductionHypothesis =>
      simp only [Procedure.bind, ledger, value, inductionHypothesis, Ledger.append_assoc]

@[simp]
theorem value_valueOf (index : Fin n) (point : Vector K n) :
    value system (valueOf index point) = (system.get index).valueAt point :=
  rfl

@[simp]
theorem ledger_valueOf (index : Fin n) (point : Vector K n) :
    ledger system (valueOf index point) = .ofCall := by
  simp only [valueOf, ledger, Ledger.append_blank]

@[simp]
theorem ledger_remark (entry : Remark K n) :
    ledger system (remark entry) = .ofRemark entry := by
  simp only [remark, ledger, Ledger.append_blank]

/-- The values of a pass are collected in a vector. -/
theorem value_forEach
    {count : Nat}
    (compute : Fin count → Procedure K n α) :
    value system (forEach count compute) = Vector.ofFn fun i => value system (compute i) := by
  induction count with
  | zero => rfl
  | succ count inductionHypothesis =>
      simp only [forEach, value_bind, value_pure, inductionHypothesis, Vector.ofFn_succ]
      rfl

/-- Computations that all cost the same and reach no landmark. -/
theorem ledger_forEach
    {count calls vectors trials : Nat}
    {compute : Fin count → Procedure K n α}
    (each : ∀ i, ledger system (compute i) = ⟨calls, vectors, trials, []⟩) :
    ledger system (forEach count compute) =
      ⟨count * calls, count * vectors, count * trials, []⟩ := by
  induction count with
  | zero =>
      simp [forEach, Ledger.blank]
  | succ count inductionHypothesis =>
      simp only [forEach, ledger_bind, ledger_pure, Ledger.append_blank, each,
        inductionHypothesis fun i => each i.castSucc]
      ext1 <;> simp [Nat.succ_mul]

end Answers

end Procedure

end RootFinding
