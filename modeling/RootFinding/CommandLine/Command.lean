import RootFinding.CommandLine.Arguments
import RootFinding.Random.Permuted
import RootFinding.Sample
import RootFinding.Solve

/-!
# The command

One command line is one solve: its solution goes to the output, a refusal of the request to the
error output, and the exit code says whether the solve converged.
-/

namespace RootFinding

/-- What a command prints and how it ends. -/
structure CommandOutput where
  exitCode : Nat
  output : String
  errors : String
  /-- The events of the run, where they were asked for. -/
  events : Array (Event Float)

/-- Why a command ends without an answer of its own. -/
inductive CommandFailure where
  | usage (cause : UsageError)
  | settings (cause : SettingsError)
  | negativeSeed
  | integerTooLarge
  deriving Repr, DecidableEq

namespace Command

/-- One coordinate of the solution, to ten digits. -/
def shownCoordinate (index : Nat) (value : Float) : String :=
  s!"{variableName index} = " ++ Decimal.general 10 (HasExactValue.exactValue value) ++ "\n"

def shownResult {n : Nat} (result : SolveResult Float n) : String :=
  String.join (result.solution.toList.mapIdx shownCoordinate) ++
    s!"method: {result.methodUsed}  iterations: {result.iterations}  " ++
    s!"error: {shownError result.finalError}  " ++
    s!"converged: {Event.shownTruth result.converged}\n"

/-- The end of a command whose request was refused. -/
def refused (message : String) : CommandOutput where
  exitCode := 2
  output := ""
  errors := "ERROR: " ++ message ++ "\n"
  events := #[]

/-- The end of a command from the outcome of its request. -/
def ofAnswer (verbose : Bool) (answer : SolveAnswer) : Except CommandFailure CommandOutput :=
  match answer.outcome with
  | .ok ⟨_, result⟩ =>
      .ok {
        exitCode := if result.converged then 0 else 1
        output := shownResult result
        errors := ""
        events := if verbose then answer.events else #[] }
  | .error (.request (.input cause)) => .ok (refused cause.message)
  | .error (.request (.parse cause)) => .ok (refused cause.message)
  | .error (.request .integerTooLarge) => .error .integerTooLarge
  | .error .cancelled => .ok (refused cancelledMessage)

/-- The starting point of a command, drawn from its seed if it gives none. -/
def startingPoint (arguments : Arguments) (entropy : Nat) : Except CommandFailure (List Float) :=
  match arguments.guess with
  | some guess => .ok guess
  | none =>
      let drawn : Option (Vector Float _ × PermutedGenerator) := do
        let generator ← PermutedGenerator.ofSeed? (arguments.seed.getD entropy)
        (Draw.startingPoint (arguments.equations.getD []).length).run generator
      match drawn with
      | some (point, _) => .ok point.toList
      | none => .error .negativeSeed

/--
Run a command line under a settings file, which is read with room for so many levels of nesting;
`entropy` is the seed where the command gives none.
-/
def run
    (file : SettingsFile)
    (entropy : Nat)
    (texts : List String)
    (room : Nat := JsonValue.usualRoom) :
    Except CommandFailure CommandOutput := do
  let settings ← (file.settings room).mapError .settings
  let arguments ← (Arguments.ofList texts).mapError .usage
  let _ ← (arguments.request settings []).mapError .usage
  let guess ← startingPoint arguments entropy
  let request ← (arguments.request settings guess).mapError .usage
  ofAnswer arguments.verbose (request.answer .never)

end Command

end RootFinding
