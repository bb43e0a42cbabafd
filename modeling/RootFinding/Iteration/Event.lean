import RootFinding.Decimal.Layout
import RootFinding.Linear.Elimination

/-!
# Events of a run

What a run reports while it works: an event is data, and its wording is a function of it.
-/

namespace RootFinding

inductive Method where
  | newton
  | secant
  deriving Repr, DecidableEq

namespace Method

/-- The word by which a request names a method. -/
def key : Method → String
  | .newton => "newton"
  | .secant => "secant"

/-- The name under which a result reports a method. -/
def label : Method → String
  | .newton => "Newton"
  | .secant => "Secant"

end Method

/-- What happened in a run. -/
inductive Event (K : Type) where
  | accepted (size : Nat) (method : Method) (epsilon : K) (limit : Int)
  | began (method : Method) (iteration : Nat) (error : K)
  | converged (method : Method) (iterations : Nat) (error : K)
  | singular (method : Method) (iteration : Nat) (cause : Singular K)
  | matrixReset
  | restarted (iteration : Nat)
  | stalled (method : Method) (iterations : Nat) (error : K) (converged : Bool)
  | exhausted (method : Method) (limit : Int) (error : K)
  deriving Repr, DecidableEq

/-- How closely an event is to be followed. -/
inductive Severity where
  | debug
  | info
  deriving Repr, DecidableEq

/-- A number with three decimals and an exponent. -/
def shownError {K : Type} [HasExactValue K] (value : K) : String :=
  Decimal.scientific 3 (HasExactValue.exactValue value)

def Singular.message {K : Type} [HasExactValue K] : Singular K → String
  | .nonFiniteInput => "Non-finite entries in linear system."
  | .smallPivot pivot column =>
      s!"Pivot {shownError pivot} in column {column} is below tolerance."
  | .nonFiniteSolution => "Linear solve produced non-finite values."

namespace Event

variable {K : Type}

/-- Progress within an iteration is for debugging; beginnings and ends are information. -/
def severity : Event K → Severity
  | .began _ _ _ | .singular _ _ _ | .matrixReset => .debug
  | _ => .info

/-- What is done about a singular system. -/
def remedy : Method → String
  | .newton => "using damped step"
  | .secant => "using damped step and identity B"

def shownTruth (value : Bool) : String :=
  if value then "True" else "False"

/-- The wording of an event. -/
def message [HasExactValue K] : Event K → String
  | .accepted size method epsilon limit =>
      s!"Solving {size}-equation system with {method.key} (epsilon=" ++
        Decimal.general 6 (HasExactValue.exactValue epsilon) ++ s!", max_iterations={limit})"
  | .began method iteration error =>
      s!"{method.label} it={iteration} error={shownError error}"
  | .converged method iterations error =>
      s!"{method.label} converged after {iterations} iterations (error={shownError error})"
  | .singular method iteration cause =>
      s!"{method.label} it={iteration}: {cause.message}; {remedy method}"
  | .matrixReset => "Broyden update produced non-finite entries; resetting to identity"
  | .restarted iteration =>
      s!"Secant stalled at iteration {iteration}; restarting from midpoint"
  | .stalled method iterations error success =>
      s!"{method.label} stalled at iteration {iterations} (error={shownError error}, " ++
        s!"converged={shownTruth success})"
  | .exhausted method limit error =>
      s!"{method.label} hit the iteration limit {limit} (error={shownError error})"

/-- An event as one line, its severity first. -/
def line [HasExactValue K] (event : Event K) : String :=
  match event.severity with
  | .debug => "DEBUG " ++ event.message
  | .info => "INFO " ++ event.message

end Event

end RootFinding
