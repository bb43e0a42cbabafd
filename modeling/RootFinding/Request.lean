import RootFinding.Expression.Equation
import RootFinding.Iteration.Event
import RootFinding.Json.Value
import RootFinding.Text.Letters

/-!
# Requests

A request to solve a system arrives as raw values. It is checked in a fixed order: sizes, kinds and
ranges first, then the method, then the ban on trigonometric functions, and the grammar of the
equations last. What passes is a system with a point of the same size, so nothing later can fail
for its shape.
-/

namespace RootFinding

/-- Why a request is refused before its equations are read. -/
inductive InputError where
  | noEquations
  | noGuess
  | sizeMismatch (equations coordinates : Nat)
  | tooFewEquations
  | tooManyEquations
  | nonTextEquation
  | nonNumericGuess
  | nonFiniteGuess
  | nonNumericEpsilon
  | epsilonOutOfRange
  | nonIntegralLimit
  | limitOutOfRange
  | unknownMethod
  | trigonometric (name equation : String)
  deriving Repr, DecidableEq

inductive RequestError where
  | input (cause : InputError)
  | parse (cause : ParseError)
  | integerTooLarge
  deriving Repr, DecidableEq

/-- The fewest equations of a system. -/
def equationMinimum : Nat := 2

/-- The most equations of a system: one for each variable. -/
def equationMaximum : Nat := variableLimit

def epsilonRange : Float × Float := (1e-8, 1e-2)

def limitRange : Int × Int := (10, 10000)

namespace InputError

/-- The wording of an error. -/
def message : InputError → String
  | .noEquations => "At least two equations are required."
  | .noGuess => "An initial guess x0 is required."
  | .sizeMismatch equations coordinates =>
      s!"Number of equations ({equations}) must match number of variables ({coordinates})."
  | .tooFewEquations => s!"Minimum {equationMinimum} equations required."
  | .tooManyEquations => s!"Maximum number of variables/equations is {equationMaximum}."
  | .nonTextEquation => "Every equation must be a string."
  | .nonNumericGuess => "Initial guess must contain only numbers."
  | .nonFiniteGuess => "Initial guess must contain only finite numbers."
  | .nonNumericEpsilon => "Epsilon must be a number."
  | .epsilonOutOfRange => "Epsilon must be between 1e-08 and 0.01."
  | .nonIntegralLimit => "Maximum iterations must be an integer."
  | .limitOutOfRange =>
      s!"Maximum iterations must be between {limitRange.1} and {limitRange.2}."
  | .unknownMethod => "Method must be 'newton' or 'secant'."
  | .trigonometric name equation =>
      s!"Sorry, trigonometric expressions are not supported (found '{name}' in '{equation}')."

end InputError

structure SolveRequest where
  equations : JsonValue
  guess : JsonValue
  epsilon : JsonValue
  method : JsonValue
  limit : JsonValue

/-- The parts of a request whose sizes, kinds and ranges are right. -/
structure CheckedInputs where
  size : Nat
  equations : Vector String size
  guess : Vector Float size
  epsilon : Float
  limit : Nat
  equationMinimum_le : equationMinimum ≤ size
  le_equationMaximum : size ≤ equationMaximum
  limit_pos : 0 < limit

/-- A request that can be run. -/
structure PreparedSolve extends CheckedInputs where
  method : Method
  system : ExpressionSystem Float size size

namespace SolveRequest

/-- The items of a list; other values have none. -/
def items : JsonValue → List JsonValue
  | .list items => items
  | _ => []

/-- The strings of a list that holds nothing else. -/
def texts? (values : List JsonValue) : Option (List String) :=
  values.mapM fun
    | .text value => some value
    | _ => none

/-- The double that a raw coordinate stands for. -/
def coordinate : JsonValue → Except RequestError Float
  | .number value => .ok value
  | .boolean value => .ok (if value then 1.0 else 0.0)
  | .integer value =>
      match Numeral.doubleOfInt? value with
      | some double => .ok double
      | none => .error .integerTooLarge
  | .text value =>
      match Numeral.ofText? value with
      | some numeral => .ok numeral.toDouble
      | none => .error (.input .nonNumericGuess)
  | _ => .error (.input .nonNumericGuess)

/-- The tolerance, if it is a number in range; no integer is in range. -/
def checkedEpsilon : JsonValue → Except InputError Float
  | .number value =>
      if epsilonRange.1.le value && value.le epsilonRange.2 then .ok value
      else .error .epsilonOutOfRange
  | .integer _ => .error .epsilonOutOfRange
  | _ => .error .nonNumericEpsilon

/-- The iteration limit, if it is an integer in range. -/
def checkedLimit : JsonValue → Except InputError { limit : Nat // 0 < limit }
  | .integer value =>
      if inside : limitRange.1 ≤ value ∧ value ≤ limitRange.2 then
        .ok ⟨value.toNat, by
          have lower : (10 : Int) ≤ value := inside.1
          omega⟩
      else .error .limitOutOfRange
  | _ => .error .nonIntegralLimit

/-- Check sizes, kinds and ranges. -/
def checkedInputs (request : SolveRequest) : Except RequestError CheckedInputs := do
  let equations := items request.equations
  let coordinates := items request.guess
  if equations.isEmpty then
    throw (.input .noEquations)
  if coordinates.isEmpty then
    throw (.input .noGuess)
  if equations.length ≠ coordinates.length then
    throw (.input (.sizeMismatch equations.length coordinates.length))
  if equations.length < equationMinimum then
    throw (.input .tooFewEquations)
  if equationMaximum < equations.length then
    throw (.input .tooManyEquations)
  let some texts := texts? equations | throw (.input .nonTextEquation)
  let values ← coordinates.mapM coordinate
  if !values.all Float.isFinite then
    throw (.input .nonFiniteGuess)
  let epsilon ← (checkedEpsilon request.epsilon).mapError .input
  let ⟨limit, limit_pos⟩ ← (checkedLimit request.limit).mapError .input
  if sizes : values.length = texts.length ∧ equationMinimum ≤ texts.length ∧
      texts.length ≤ equationMaximum then
    return {
      size := texts.length
      equations := ⟨texts.toArray, by simp⟩
      guess := ⟨values.toArray, by simp [sizes.1]⟩
      epsilon
      limit
      equationMinimum_le := sizes.2.1
      le_equationMaximum := sizes.2.2
      limit_pos }
  else throw (.input (.sizeMismatch texts.length values.length))

/-- The method that a raw value names, without regard to case and to blanks around the word. -/
def checkedMethod : JsonValue → Except InputError Method
  | .text value =>
      let key := Text.lowered (Text.trimmed value)
      if key = Method.newton.key then .ok .newton
      else if key = Method.secant.key then .ok .secant
      else .error .unknownMethod
  | _ => .error .unknownMethod

/-- The names of trigonometric functions, in the order in which they are looked for. -/
def trigonometricNames : List String :=
  ["sin", "cos", "tan", "cot", "sec", "csc", "asin", "acos", "atan", "sinh", "cosh", "tanh"]

/-- The first name that occurs in an equation. -/
def trigonometricName? (equation : String) : Option String :=
  let lowered := (Text.lowered equation).toList
  trigonometricNames.find? fun name => Text.occursIn name.toList lowered

/-- Refuse the first equation that holds the name of a trigonometric function. -/
def refuseTrigonometric (equations : List String) : Except InputError Unit :=
  equations.forM fun equation =>
    match trigonometricName? equation with
    | some name => .error (.trigonometric name (Text.trimmed equation))
    | none => .ok ()

/-- Check a whole request and read its equations. -/
def prepare (request : SolveRequest) : Except RequestError PreparedSolve := do
  let inputs ← checkedInputs request
  let method ← (checkedMethod request.method).mapError .input
  (refuseTrigonometric inputs.equations.toList).mapError .input
  let system ← (ExpressionSystem.ofEquations inputs.equations).mapError .parse
  return { toCheckedInputs := inputs, method, system }

end SolveRequest

end RootFinding
