import RootFinding.Cancellation
import RootFinding.Iteration.Newton
import RootFinding.Iteration.Secant
import RootFinding.Request

/-!
# Solving

A prepared request is run by its method. An answer is a result or the reason why there is none; it
comes with the events of the run, none of which happen before the whole request was accepted.
-/

namespace RootFinding

/-- Why a request has no result. -/
inductive SolveError where
  | request (cause : RequestError)
  | cancelled
  deriving Repr, DecidableEq

/-- A result with the number of its variables. -/
abbrev AnyResult : Type :=
  (n : Nat) × SolveResult Float n

/-- The events of a request and what became of it. -/
structure SolveAnswer where
  events : Array (Event Float)
  outcome : Except SolveError AnyResult

namespace Method

/-- Run a method from a point. -/
def run {K : Type} [Scalar K] {n : Nat} :
    Method →
    ExpressionSystem K n n →
    Vector K n →
    (epsilon : K) →
    (limit : Int) →
    PollAnswers →
    Run K (SolveResult K n)
  | .newton => Newton.run
  | .secant => Secant.run

end Method

namespace Run

/-- The answer that a finished run gives. -/
def answer {n : Nat} (run : Run Float (SolveResult Float n)) : SolveAnswer where
  events := run.events
  outcome :=
    match run.ending with
    | .returned result => .ok ⟨n, result⟩
    | .cancelled => .error .cancelled

end Run

namespace PreparedSolve

/-- Run a prepared request. -/
def run (prepared : PreparedSolve) (polls : PollAnswers) :
    Run Float (SolveResult Float prepared.size) :=
  prepared.method.run prepared.system prepared.guess prepared.epsilon prepared.limit polls

/-- The event that opens a run. -/
def opening (prepared : PreparedSolve) : Event Float :=
  .accepted prepared.size prepared.method prepared.epsilon prepared.limit

end PreparedSolve

namespace SolveRequest

/-- Check a request and run it. -/
def answer (request : SolveRequest) (polls : PollAnswers) : SolveAnswer :=
  match request.prepare with
  | .error cause => { events := #[], outcome := .error (.request cause) }
  | .ok prepared =>
      let answered := (prepared.run polls).answer
      { answered with events := #[prepared.opening] ++ answered.events }

end SolveRequest

end RootFinding
