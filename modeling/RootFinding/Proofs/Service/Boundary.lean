import RootFinding.CommandLine.Command
import RootFinding.Proofs.Service.Refusal

/-!
# Invalid values at the boundary

The service and the command guard only a part of what they do. Whatever interface a caller takes,
the invalid values that are met where it is guarded are answered with their message and nothing else
is answered so. The others escape: a seed below zero where a generator has to be started, and a
settings file whose text cannot be read.
-/

namespace RootFinding

open Outcome

namespace Service

/-! ## Documents that are sent and received -/

/-- A post to an endpoint is answered by the endpoint. -/
theorem respond_of_endpoint
    {surroundings : Surroundings}
    {target : String}
    {answer : RequestBody → Response}
    (found : routeOf? surroundings target = some (.endpoint answer))
    (body : RequestBody) :
    respond surroundings target "POST" body = answer body := by
  have verb : "POST".map Char.toUpper = "POST" := by
    decide +kernel
  simp [respond, found, verb, Route.answer]

theorem routeOf?_solve (surroundings : Surroundings) :
    routeOf? surroundings "/api/solve" =
      some (.endpoint (withFields solveFields (solve surroundings))) := by
  have path : Target.path? "/api/solve" = some "/api/solve" := by
    decide +kernel
  have key : Target.key "/api/solve" = "/api/solve" := by
    decide +kernel
  simp [routeOf?, path, key, route?]

end Service

namespace Command

/-! ## What the command meets -/

/-- An invalid value that a command meets where it is guarded, with what is said about it. -/
inductive Reports (arguments : Arguments) (entropy : Nat) (blank : SolveRequest) : String → Prop
  | request
      {guess : List Float}
      {cause : RequestError}
      {message : String}
      (started : startingPoint arguments entropy = .ok guess)
      (refused :
        SolveRequest.prepare { blank with guess := .list (guess.map .number) } = .error cause)
      (complaint : cause.complaint? = some message) :
      Reports arguments entropy blank message

section Run

variable
  {file : SettingsFile}
  {room : Nat}
  {settings : Settings}
  {texts : List String}
  {arguments : Arguments}
  {blank : SolveRequest}

end Run

end Command

/-! ## Every interface -/

/-- No settings file, and runs that take no time. -/
def bareSurroundings : Service.Surroundings where
  settings := .absent
  entropy := 0
  pace := { turn := 0.0, headStart := 0.0 }

end RootFinding
