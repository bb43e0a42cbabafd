import RootFinding.Expression.Grammar
import RootFinding.Decimal.Numeral

/-!
# Equations

An equation is an expression, an equals sign and a zero. Reading a system reads its equations in
order, and each expression is read to its end before its variables are compared with the size of
the system.
-/

namespace RootFinding

/-- Why text is no equation of a system. -/
inductive ParseError where
  | grammar (source : String) (cause : GrammarError)
  | foreignVariable (number : Nat) (size : Int)
  | missingEquals
  | repeatedEquals
  | nonzeroRight (equation : String)
  deriving Repr, DecidableEq

namespace GrammarError

/-- The wording for an expression `source`. -/
def message (source : String) : GrammarError → String
  | .unexpectedCharacter character =>
      s!"Unexpected character '{character}' in expression '{source}'."
  | .empty => "Empty expression: write the left-hand side before '= 0'."
  | .unexpectedToken token =>
      s!"Unexpected '{String.ofList token.characters}' in expression '{source}'."
  | .unexpectedEnd => s!"Expression '{source}' ends unexpectedly."
  | .malformedNumber text => s!"Invalid number format: '{String.ofList text}'."
  | .unnumberedVariable => "Variable 'x' must be followed by its number (x1..x10)."
  | .variableOutOfRange digits =>
      s!"Variable 'x{String.ofList digits}' is out of range. Use x1..x{variableLimit}."
  | .tooManyDigits count =>
      s!"Exceeds the limit ({variableDigitLimit} digits) for integer string conversion: " ++
        s!"value has {count} digits; use sys.set_int_max_str_digits() to increase the limit"
  | .positiveParenthesis => "Parenthesised literals must be negative, e.g. (-2.5)."
  | .parenthesisWithoutNumber => s!"Invalid number format inside parentheses in '{source}'."
  | .unmatchedParenthesis => s!"Unmatched parenthesis in '{source}'."

end GrammarError

namespace ParseError

/-- The wording of an error. -/
def message : ParseError → String
  | .grammar source cause => cause.message source
  | .foreignVariable number size =>
      s!"Variable 'x{number}' is not part of a {size}-variable system."
  | .missingEquals => "Equation must contain '='. Example: 2*x1 + x2 = 0"
  | .repeatedEquals => "Equation must contain exactly one '=' sign."
  | .nonzeroRight equation =>
      s!"Equation '{equation}' must end with '= 0'. Format: expression = 0"

end ParseError

namespace Expression

variable {K : Type} [Arithmetic K]

/-- The expression that a text stands for, over all variables. -/
def parse (text : String) : Except ParseError (Expression K (Fin variableLimit)) :=
  (ofText text).mapError (.grammar text)

/-- The same expression, if it keeps to the first `n` variables. -/
def within (n : Nat) (expression : Expression K (Fin variableLimit)) :
    Except ParseError (Expression K (Fin n)) :=
  (expression.restrict? n).mapError fun index => .foreignVariable (index.val + 1) n

/-- The expression in `n` variables that a text stands for. -/
def parseWithin (n : Nat) (text : String) : Except ParseError (Expression K (Fin n)) := do
  within n (← parse text)

end Expression

namespace Equation

/-- The text reads as a number equal to zero. -/
def isZero (text : List Char) : Bool :=
  match Numeral.ofText? (String.ofList (Text.condensed text)) with
  | some numeral => numeral.toDouble == 0.0
  | none => false

/-- The left-hand side of an equation, without the blanks around it. -/
def leftSide (equation : String) : Except ParseError String :=
  let text := equation.toList
  let left := text.takeWhile (· ≠ '=')
  let right := (text.dropWhile (· ≠ '=')).drop 1
  if text.count '=' = 0 then .error .missingEquals
  else if text.count '=' ≠ 1 then .error .repeatedEquals
  else if isZero right then .ok (Text.trimmed (String.ofList left))
  else .error (.nonzeroRight (Text.trimmed equation))

end Equation

/-- The system of `n` equations in `n` variables that a list of texts stands for. -/
def ExpressionSystem.ofEquations {K : Type} [Arithmetic K] {n : Nat}
    (equations : Vector String n) :
    Except ParseError (ExpressionSystem K n n) :=
  equations.mapM fun equation => do
    Expression.parseWithin n (← Equation.leftSide equation)

end RootFinding
