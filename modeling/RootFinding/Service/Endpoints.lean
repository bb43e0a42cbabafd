import RootFinding.CostModel
import RootFinding.Deadline
import RootFinding.Random.Permuted
import RootFinding.Sample
import RootFinding.Service.Exchange
import RootFinding.Service.Target
import RootFinding.Settings
import RootFinding.Verification

/-!
# The service

Three endpoints answer posted records: one solves a system and checks the solution, one makes a
sample system, one estimates the cost of a solve. What a request leaves out comes from the settings,
a missing starting point and a missing seed from the random source. Faults of the request body are
reported before anything is done.
-/

namespace RootFinding

namespace Service

/-- A double in an answer: null unless it is finite. -/
def shownNumber (value : Float) : JsonValue :=
  if value.isFinite then .number value else .null

def shownNumbers (values : List Float) : JsonValue :=
  .list (values.map shownNumber)

/-- What the endpoints know besides the request. -/
structure Surroundings where
  settings : SettingsFile
  /-- The levels of nesting that there is room for where settings are read. -/
  room : Nat := JsonValue.usualRoom
  /-- How often an index or a word is drawn at most. -/
  draws : Nat := usualDraws
  /-- The seed where a request gives none. -/
  entropy : Nat
  pace : Pace

/-- The settings that hold when a request comes in. -/
def Surroundings.current (surroundings : Surroundings) : Except SettingsError Settings :=
  surroundings.settings.settings surroundings.room

/-- The generator that a request asks for. -/
def generator? (surroundings : Surroundings) (seed : Option Int) : Option PermutedGenerator :=
  PermutedGenerator.ofSeed? (seed.getD surroundings.entropy) surroundings.draws

/-! ## Solving -/

/-- The fields of a request to solve. -/
structure SolveFields where
  equations : List String
  guess : Option (List Float)
  epsilon : Option Float
  method : Option String
  limit : Option Int
  seed : Option Int

/-- Convert the fields of a request to solve. -/
def solveFields (members : List (String × JsonValue)) : Checked SolveFields := do
  let (equations, guess, epsilon, method, limit, seed) ←
    Field.both (Field.required (Field.list Field.text) members "equations")
      (Field.both (Field.optional (Field.list Field.number) members "x0")
        (Field.both (Field.optional (Field.single Field.number) members "epsilon")
          (Field.both (Field.optional (Field.single Field.text) members "method")
            (Field.both (Field.optional (Field.single Field.integer) members "max_iterations")
              (Field.optional (Field.single Field.integer) members "seed")))))
  return { equations, guess, epsilon, method, limit, seed }

/-- The starting point of a request, drawn if it gives none. -/
def startingPoint? (surroundings : Surroundings) (fields : SolveFields) : Option (List Float) :=
  match fields.guess with
  | some guess => some guess
  | none => do
      let generator ← generator? surroundings fields.seed
      let (point, _) ← (Draw.startingPoint fields.equations.length).run generator
      return point.toList

/-- The request with everything that was left out filled in. -/
def filledIn (settings : Settings) (fields : SolveFields) (guess : List Float) : SolveRequest where
  equations := .list (fields.equations.map .text)
  guess := .list (guess.map .number)
  epsilon := (fields.epsilon.map .number).getD (settings.get "epsilon")
  method :=
    match fields.method with
    | none | some "" => settings.get "method"
    | some method => .text method
  limit := (fields.limit.map .integer).getD (settings.get "max_iterations")

/-- The waiting time that is set, or the answer if it is none. -/
def waitingTime (settings : Settings) : Except Response Float :=
  match settings.get "timeout_seconds" with
  | .number value => .ok value
  | .boolean value => .ok (if value then 1.0 else 0.0)
  | .integer value =>
      match Numeral.doubleOfInt? value with
      | some seconds => .ok seconds
      | none => .error Response.solverError
  | .text value =>
      match Numeral.ofText? value with
      | some numeral => .ok numeral.toDouble
      | none =>
          .error (Response.refusal 400
            ("could not convert string to float: " ++ Text.quoted value))
  | _ => .error Response.solverError

/-- The answer to a refused request. -/
def requestRefusal : RequestError → Response
  | .input cause => Response.refusal 400 cause.message
  | .parse cause => Response.refusal 400 cause.message
  | .integerTooLarge => Response.solverError

/-- The answer to a solve without a result. -/
def solveRefusal : DeadlineError → Response
  | .solve (.request cause) => requestRefusal cause
  | .solve .cancelled => Response.refusal 504 cancelledMessage
  | .expired seconds => Response.refusal 504 (expiredMessage seconds)
  | .tooLong => Response.solverError

/-- The answer to a result that cannot be checked. -/
def verificationRefusal : VerificationError → Response
  | .equation cause => Response.refusal 400 cause.message
  | .unreadable left => Response.refusal 400 (VerificationError.unreadable left).message
  | .tooManyEntries | .noValue => Response.solverError

def shownStep (step : VerificationStep Float) : JsonValue :=
  .record [
    ("step_number", .integer step.number),
    ("equation", .text step.equation),
    ("residual", shownNumber step.residual),
    ("within_tolerance", .boolean step.withinTolerance)]

def shownVerdict (passed : Bool) : JsonValue :=
  .text (if passed then "pass" else "fail")

/-- The answer to a result with its check. -/
def solved
    {n : Nat}
    (result : SolveResult Float n)
    (guess : List Float)
    (check : VerificationReport Float) :
    Response :=
  Response.success [
    ("solution", shownNumbers result.solution.toList),
    ("iterations", .integer result.iterations),
    ("final_error", shownNumber result.finalError),
    ("converged", .boolean result.converged),
    ("function_evaluations", .integer result.functionEvaluations),
    ("jacobian_evaluations", .integer result.jacobianEvaluations),
    ("method_used", .text result.methodUsed),
    ("initial_guess", shownNumbers guess),
    ("verification_steps", .list (check.steps.map shownStep)),
    ("validation_status", shownVerdict check.passed)]

/-- The tolerance of a request that was accepted. -/
def acceptedEpsilon : JsonValue → Float
  | .number value => value
  | _ => 0.0

/-- Solve the system of a request from a point and check the solution. -/
def solveFrom
    (surroundings : Surroundings)
    (settings : Settings)
    (fields : SolveFields)
    (guess : List Float) :
    Except Response Response := do
  let seconds ← waitingTime settings
  let request := filledIn settings fields guess
  let ⟨_, result⟩ ←
    (request.outcomeWithin .never surroundings.pace seconds).mapError solveRefusal
  let check ←
    (Verification.report fields.equations result.solution.toList
      (acceptedEpsilon request.epsilon)).mapError verificationRefusal
  return solved result guess check

/-- The endpoint that solves. -/
def solve (surroundings : Surroundings) (fields : SolveFields) : Response :=
  if fields.equations.isEmpty then Response.refusal 400 "Equations cannot be empty."
  else
    match surroundings.current, startingPoint? surroundings fields with
    | .ok settings, some guess =>
        match solveFrom surroundings settings fields guess with
        | .ok response | .error response => response
    | _, _ => Response.internalError

/-! ## Sample systems -/

/-- The fields of a request for a sample. -/
structure SampleFields where
  size : Int
  seed : Option Int

/-- Convert the fields of a request for a sample. -/
def sampleFields (members : List (String × JsonValue)) : Checked SampleFields := do
  let (size, seed) ←
    Field.both (Field.required (Field.single Field.integer) members "n")
      (Field.optional (Field.single Field.integer) members "seed")
  return { size, seed }

/-- The endpoint that makes a sample system and a point to start from. -/
def sample (surroundings : Surroundings) (fields : SampleFields) : Response :=
  match generator? surroundings fields.seed with
  | none => Response.internalError
  | some generator =>
      match sampleEquations Float fields.size generator surroundings.draws with
      | .error .size => Response.refusal 400 SampleError.size.message
      | .error .exhausted => Response.internalError
      | .ok (equations, rest) =>
          match (Draw.startingPoint (K := Float) fields.size.toNat).run rest with
          | none => Response.internalError
          | some (point, _) =>
              Response.success [
                ("equations", .list (equations.map .text)),
                ("initial_guess", shownNumbers point.toList)]

/-! ## Cost -/

/-- The fields of a request for an estimate. -/
structure CostFields where
  size : Int
  iterations : Int
  method : String
  period : Option Int

/-- Convert the fields of a request for an estimate. -/
def costFields (members : List (String × JsonValue)) : Checked CostFields := do
  let (size, iterations, method, period) ←
    Field.both (Field.required (Field.single Field.integer) members "n")
      (Field.both (Field.required (Field.single Field.integer) members "iterations")
        (Field.both (Field.required (Field.single Field.text) members "method")
          (Field.optional (Field.single Field.integer) members "update_period")))
  return { size, iterations, method, period }

/-- A double of an estimate in an answer. -/
def shownDouble (value : Option DoubleMagnitude) : JsonValue :=
  shownNumber (Quantity.doubleOf value)

/-- The members of an estimate, with its period as it is shown. -/
def costMembers (estimate : CostEstimate) (period : Int) : List (String × JsonValue) :=
  [("system_size", estimate.size),
    ("iterations", estimate.iterations),
    ("method", .text estimate.method),
    ("time_complexity", shownDouble estimate.time),
    ("time_notation", .text estimate.timeNotation),
    ("estimated_operations", .integer estimate.operations),
    ("space_complexity", shownDouble estimate.space),
    ("space_notation", .text estimate.spaceNotation),
    ("estimated_memory_bytes", .integer estimate.memoryBytes),
    ("update_period", .integer period)]

/-- The update period of a request, from the settings where it gives none. -/
def chosenPeriod (surroundings : Surroundings) (fields : CostFields) :
    Except SettingsError JsonValue :=
  match fields.period with
  | some period => .ok (.integer period)
  | none => surroundings.current.map fun settings => settings.get "update_period"

/-- The answer where there is no estimate. -/
def costRefusal : CostError → Response
  | .notNumber | .noMethod | .outOfRange => Response.internalError
  | cause => Response.refusal 400 cause.message

/-- The endpoint that estimates the cost of a solve; it shows the period as an integer. -/
def cost (surroundings : Surroundings) (fields : CostFields) : Response :=
  match chosenPeriod surroundings fields with
  | .error _ => Response.internalError
  | .ok period =>
      match CostModel.estimate (.integer fields.size) (.integer fields.iterations)
          (.text fields.method) period with
      | .error cause => costRefusal cause
      | .ok estimate =>
          match Field.integer estimate.period with
          | .ok period => Response.success (costMembers estimate period)
          | .error _ => Response.internalError

/-! ## Dispatch -/

/-- A fault of the whole body. -/
def bodyFault (kind : FaultKind) (value : JsonValue) : Response :=
  Response.ofFaults [{ field := none, index := none, kind, value }]

/-- Convert the fields of a body and answer, or report its faults. -/
def withFields {α : Type}
    (fields : List (String × JsonValue) → Checked α)
    (answer : α → Response) :
    RequestBody → Response
  | .document (.record members) =>
      match fields members with
      | .ok value => (answer value).encoded (.record members)
      | .error faults => Response.ofFaults faults
  | .document value => bodyFault .recordExpected value
  | .absent => bodyFault .missing .null
  | .malformed => { status := 422, body := .malformedDocument }
  | .unreadable => Response.refusal 400 "There was an error parsing the body"

/-- What stands at a path: an endpoint for posted records, or a page about the service. -/
inductive Route where
  | endpoint (answer : RequestBody → Response)
  | page

def route? (surroundings : Surroundings) : String → Option Route
  | "/api/solve" => some (.endpoint (withFields solveFields (solve surroundings)))
  | "/api/generate" => some (.endpoint (withFields sampleFields (sample surroundings)))
  | "/api/complexity" => some (.endpoint (withFields costFields (cost surroundings)))
  | "/openapi.json" | "/docs" | "/docs/oauth2-redirect" | "/redoc" => some .page
  | _ => none

/-- The route of a target: that of its path, else of its path without the slashes at its end. -/
def routeOf? (surroundings : Surroundings) (target : String) : Option Route := do
  let path ← Target.path? target
  route? surroundings (Target.key path) <|>
    route? surroundings (Target.key (Target.withoutLastSlashes path))

/-- What a route answers to a verb; the pages about the service are answered without a body. -/
def Route.answer (verb : String) (body : RequestBody) : Route → Response
  | .endpoint answer =>
      if verb = "POST" then answer body else Response.refusal 405 "Method Not Allowed"
  | .page =>
      if verb = "GET" || verb = "HEAD" then { status := 200, body := .plain "" }
      else Response.refusal 405 "Method Not Allowed"

/-- Answer a request; the verb may be written in small letters. -/
def respond (surroundings : Surroundings) (target verb : String) (body : RequestBody) :
    Response :=
  let verb := verb.map Char.toUpper
  let response :=
    match routeOf? surroundings target with
    | some route => route.answer verb body
    | none => Response.refusal 404 "Not Found"
  if verb = "HEAD" then response.headOnly else response

end Service

end RootFinding
