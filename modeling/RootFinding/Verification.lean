import RootFinding.Expression.Equation
import RootFinding.Formula.Grammar
import RootFinding.Linear.Vector

/-!
# Verification

A solution is checked by substituting it into the equations as they were written, read as ordinary
formulas and not by the grammar of the solver: every factor of a term counts here. The check passes
when the norm of the residuals is below ten times the tolerance.
-/

namespace RootFinding

/-- Why a solution cannot be checked. -/
inductive VerificationError where
  | tooManyEntries
  | equation (cause : ParseError)
  | unreadable (left : String)
  | noValue
  deriving Repr, DecidableEq

/--
The wording of an error where it has one of its own. Behind that of an unreadable equation its
reader adds what it stumbled over; that cause is left out here.
-/
def VerificationError.message : VerificationError → String
  | .tooManyEntries => "The solution has more entries than there are variables."
  | .equation cause => cause.message
  | .unreadable left => s!"Could not parse expression: '{left}'"
  | .noValue => "The equation has no value."

/-- One equation with its residual. -/
structure VerificationStep (K : Type) where
  number : Nat
  equation : String
  residual : K
  withinTolerance : Bool
  deriving Repr, DecidableEq

/-- The residuals of all equations and the verdict on them. -/
structure VerificationReport (K : Type) where
  steps : List (VerificationStep K)
  residualNorm : K
  passed : Bool
  deriving Repr, DecidableEq

namespace Verification

/-- Drop the zeros between the letter of a variable and the first other digit of its number. -/
def withoutLeadingZeros : List Char → List Char
  | [] => []
  | 'x' :: rest =>
      let zeros := rest.takeWhile (· = '0')
      let behind := rest.drop zeros.length
      let kept :=
        match behind.head? with
        | some c => if (Text.digitValue? c).isSome then 0 else min zeros.length 1
        | none => min zeros.length 1
      'x' :: (if kept = 0 then [] else ['0']) ++
        withoutLeadingZeros (rest.drop zeros.length)
  | c :: rest => c :: withoutLeadingZeros rest
termination_by text => text.length
decreasing_by
  all_goals
    simp only [List.length_cons, List.length_drop]
    omega

/-- The formula of a left-hand side; commas are decimal points. -/
def formulaOf? (left : String) : Option Formula :=
  let pointed := left.toList.map fun c => if c = ',' then '.' else c
  Formula.ofText? (withoutLeadingZeros (Text.trimmedBy Text.isBlank pointed))

/-- The name of a variable, counted from zero. -/
def nameOf (index : Nat) : List Char :=
  'x' :: Nat.toDigits 10 (index + 1)

/-- The value of a name: the entry of the variable that it names. -/
def entryNamed? {K : Type} (solution : List K) (name : List Char) : Option K :=
  (solution.zipIdx.find? fun entry => nameOf entry.2 = name).map (·.1)

section Scalar

variable {K : Type} [Scalar K] [HasPower K]

def residual (solution : List K) (equation : String) : Except VerificationError K := do
  let left ← (Equation.leftSide equation).mapError .equation
  let some formula := formulaOf? left | throw (.unreadable left)
  let some value := formula.value? (entryNamed? solution) | throw .noValue
  return value

/-- Ten times the tolerance of the solve. -/
def tolerance (epsilon : K) : K :=
  epsilon * 10.0

/-- The step of an equation; a negative zero is shown without its sign. -/
def step (solution : List K) (epsilon : K) (index : Nat) (equation : String) :
    Except VerificationError (VerificationStep K) := do
  let value ← residual solution equation
  return {
    number := index + 1
    equation := Text.trimmed equation
    residual := value + 0.0
    withinTolerance := Arithmetic.less (Arithmetic.magnitude value) (tolerance epsilon) }

/-- The norm of the residuals, their squares added from the first one up. -/
def norm (steps : List (VerificationStep K)) : K :=
  Scalar.sqrt (steps.foldl (fun total step => total + step.residual * step.residual) 0.0)

/-- Check a solution against the equations, the first one first. -/
def report (equations : List String) (solution : List K) (epsilon : K) :
    Except VerificationError (VerificationReport K) := do
  if variableLimit < solution.length then
    throw .tooManyEntries
  let steps ← equations.zipIdx.mapM fun (equation, index) => step solution epsilon index equation
  return {
    steps
    residualNorm := norm steps
    passed := Arithmetic.less (norm steps) (tolerance epsilon) }

end Scalar

end Verification

end RootFinding
