import RootFinding.Proofs.Guarded.Safety
import RootFinding.Proofs.Request.Refusal
import RootFinding.Service.Endpoints

/-!
# Invalid values at the endpoints

An error is about an invalid value when it blames what the caller or the settings say: a size out of
range, a text that is no number, an equation outside the grammar. Numbers too large for a double and
records nested too deep are failures of another kind. What is said here of each endpoint is which
invalid values it meets where it is guarded and answers with their message, that it answers nothing
else so, and which ones it meets outside.
-/

namespace RootFinding

open Outcome

/-! ## Errors about values -/

/-- The settings file holds bytes that are no text, or an integer of too many digits. -/
def SettingsError.IsInvalidValue : SettingsError → Prop
  | .invalidEncoding | .tooManyDigits | .unencodable => True
  | .tooDeepToRead | .tooDeepToWrite | .isDirectory => False

/-- What is said about the invalid value for which a request is refused. -/
def RequestError.complaint? : RequestError → Option String
  | .input cause => some cause.message
  | .parse cause => some cause.message
  | .integerTooLarge => none

/-- What is said about the invalid value for which a solution cannot be checked. -/
def VerificationError.complaint? : VerificationError → Option String
  | .equation cause => some cause.message
  | .unreadable left => some (VerificationError.unreadable left).message
  | .tooManyEntries | .noValue => none

/-- What is said about the invalid value for which there is no estimate. -/
def CostError.complaint? : CostError → Option String
  | .notNumber | .noMethod | .outOfRange => none
  | cause => some cause.message

/-- A seed from which no generator can be started. -/
def IsNegativeSeed (seed : Option Int) : Prop :=
  ∃ value < 0, seed = some value

namespace Draw

end Draw

namespace Service

/-- A solve has equations, settings and a point to start from. -/
structure SolveFields.Starts
    (surroundings : Surroundings)
    (fields : SolveFields)
    (settings : Settings)
    (guess : List Float) :
    Prop where
  hasEquations : fields.equations ≠ []
  readable : surroundings.current = .ok settings
  started : startingPoint? surroundings fields = some guess

/-- An invalid value that a solve meets where it is guarded, with what is said about it. -/
inductive SolveFields.Reports (surroundings : Surroundings) (fields : SolveFields) : String → Prop
  | noEquations
      (missing : fields.equations = []) :
      Reports surroundings fields "Equations cannot be empty."
  | waiting
      {settings : Settings}
      {guess : List Float}
      {value : String}
      (starts : fields.Starts surroundings settings guess)
      (set : settings.get "timeout_seconds" = .text value)
      (noNumber : Numeral.ofText? value = none) :
      Reports surroundings fields ("could not convert string to float: " ++ Text.quoted value)
  | request
      {settings : Settings}
      {guess : List Float}
      {seconds : Float}
      {cause : RequestError}
      {message : String}
      (starts : fields.Starts surroundings settings guess)
      (waits : waitingTime settings = .ok seconds)
      (refused :
        (filledIn settings fields guess).outcomeWithin .never surroundings.pace seconds =
          .error (.solve (.request cause)))
      (complaint : cause.complaint? = some message) :
      Reports surroundings fields message
  | check
      {settings : Settings}
      {guess : List Float}
      {seconds : Float}
      {result : AnyResult}
      {cause : VerificationError}
      {message : String}
      (starts : fields.Starts surroundings settings guess)
      (waits : waitingTime settings = .ok seconds)
      (returned :
        (filledIn settings fields guess).outcomeWithin .never surroundings.pace seconds =
          .ok result)
      (refused :
        Verification.report fields.equations result.2.solution.toList
            (acceptedEpsilon (filledIn settings fields guess).epsilon) =
          .error cause)
      (complaint : cause.complaint? = some message) :
      Reports surroundings fields message

/-- A solve meets an invalid value where nothing guards it. -/
inductive SolveFields.Escapes (surroundings : Surroundings) (fields : SolveFields) : Prop
  | settings
      {cause : SettingsError}
      (hasEquations : fields.equations ≠ [])
      (unreadable : surroundings.current = .error cause)
      (invalid : cause.IsInvalidValue) :
      Escapes surroundings fields
  | seed
      {settings : Settings}
      (hasEquations : fields.equations ≠ [])
      (readable : surroundings.current = .ok settings)
      (unguessed : fields.guess = none)
      (negative : IsNegativeSeed fields.seed) :
      Escapes surroundings fields

/-- The one invalid value that a sample meets where it is guarded. -/
inductive SampleFields.Reports (fields : SampleFields) : String → Prop
  | size
      (seeded : ¬IsNegativeSeed fields.seed)
      (outside : fields.size < 2 ∨ 10 < fields.size) :
      Reports fields SampleError.size.message

/-- An invalid value that an estimate meets where it is guarded. -/
inductive CostFields.Reports (surroundings : Surroundings) (fields : CostFields) : String → Prop
  | estimate
      {period : JsonValue}
      {cause : CostError}
      {message : String}
      (chosen : chosenPeriod surroundings fields = .ok period)
      (refused :
        CostModel.estimate (.integer fields.size) (.integer fields.iterations)
            (.text fields.method) period =
          .error cause)
      (complaint : cause.complaint? = some message) :
      Reports surroundings fields message

/-- An estimate meets an invalid value where nothing guards it. -/
inductive CostFields.Escapes (surroundings : Surroundings) (fields : CostFields) : Prop
  | settings
      {cause : SettingsError}
      (unset : fields.period = none)
      (unreadable : surroundings.current = .error cause)
      (invalid : cause.IsInvalidValue) :
      Escapes surroundings fields

/-- A solve that starts answers as it ends, with a result or without one. -/
theorem solve_eq_iff_of_starts
    {surroundings : Surroundings}
    {fields : SolveFields}
    {settings : Settings}
    {guess : List Float}
    (starts : fields.Starts surroundings settings guess)
    {response : Response} :
    solve surroundings fields = response ↔
      solveFrom surroundings settings fields guess = .ok response ∨
        solveFrom surroundings settings fields guess = .error response := by
  have hasEquations : fields.equations.isEmpty = false := by
    simpa using starts.hasEquations
  simp only [solve, hasEquations, starts.readable, starts.started, Bool.false_eq_true, ↓reduceIte]
  cases solveFrom surroundings settings fields guess <;> simp

end Service

end RootFinding
