import RootFinding.Solve

/-!
# Deadlines

A run that is waited for is given up once its time is over. It has a head start, and what is over by
then is handed out whatever the waiting time is: so are all requests that are refused. How fast runs
are is not a matter of the runs themselves, so it is handed in beside the request.
-/

namespace RootFinding

/-- Why a caller that waited has no result. -/
inductive DeadlineError where
  | solve (cause : SolveError)
  | expired (seconds : Float)
  | tooLong

/-- What a caller is told whose time was over. -/
def expiredMessage (seconds : Float) : String :=
  "Solve did not finish within " ++ Decimal.general 6 (HasExactValue.exactValue seconds) ++
    " seconds."

/-- How fast runs are, in seconds. -/
structure Pace where
  /-- How long one turn takes. -/
  turn : Float
  /-- How long a run goes on before it is waited for. -/
  headStart : Float

/-- How long a run of so many turns goes on after its head start. -/
def Pace.remainder (pace : Pace) (turns : Int) : Float :=
  pace.turn * Float.ofInt turns - pace.headStart

/-- The turns of a run; where there is no result, there was none. -/
def SolveAnswer.turns (answered : SolveAnswer) : Int :=
  match answered.outcome with
  | .ok ⟨_, result⟩ => result.iterations
  | .error _ => 0

/-- The longest time that can be waited, in seconds: 64 bits count its nanoseconds. -/
def longestWait : Float := 9223372036.854775

namespace SolveRequest

/-- The outcome for a caller that waits for `seconds`. -/
def outcomeWithin
    (request : SolveRequest)
    (polls : PollAnswers)
    (pace : Pace)
    (seconds : Float) :
    Except DeadlineError AnyResult :=
  let answered := request.answer polls
  let remainder := pace.remainder answered.turns
  if remainder.le 0.0 then answered.outcome.mapError .solve
  else if longestWait.lt seconds then .error .tooLong
  else if remainder.lt seconds then answered.outcome.mapError .solve
  else .error (.expired seconds)

end SolveRequest

/-- How long a caller waits who does not say. -/
def defaultWait : Float := 120.0

end RootFinding
