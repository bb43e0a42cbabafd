import RootFinding.CostModel.Quantity
import RootFinding.Text.Letters

/-!
# Cost estimates

Closed formulas for the work of `k` iterations on `n` equations. Counts are exact integers of any
size. The time of the secant method divides by the update period, so it is a sum of doubles, and
its number of solves is the ceiling of a quotient that was rounded to a double before. The numbers
arrive as raw values and are named in the answer as they came.
-/

namespace RootFinding

def CostError.message : CostError → String
  | .systemSize => "System size must be between 2 and 10."
  | .noIterations => "Iterations must be at least 1."
  | .noPeriod => "Update period must be at least 1."
  | .notNumber => "A size, a count of iterations or a period is not a number."
  | .noMethod => "The method is not a string."
  | .undefined => "cannot convert float NaN to integer"
  | .outOfRange => "The count is out of the range of doubles."
  | .tooManyDigits =>
      s!"Exceeds the limit ({integerDigitLimit} digits) for integer string conversion; " ++
        "use sys.set_int_max_str_digits() to increase the limit"

/-- The estimate of a solve; its size, iterations and period are named as they were given. -/
structure CostEstimate where
  size : JsonValue
  iterations : JsonValue
  method : String
  time : Option DoubleMagnitude
  timeNotation : String
  operations : Nat
  space : Option DoubleMagnitude
  spaceNotation : String
  memoryBytes : Nat
  period : JsonValue

/-- The time of an estimate, its notation and its operations. -/
structure TimeEstimate where
  time : Quantity
  notationText : String
  operations : Quantity

namespace CostModel

open Quantity

/-- Trials of the line search that are counted for each iteration. -/
def searchTrials : Nat := 6

def bytesPerNumber : Nat := 8

/-- A raw number in words. -/
def shownGiven : JsonValue → Except CostError String
  | .boolean value => .ok (if value then "True" else "False")
  | value => do (← given value).shown

/-- The evaluations of a line search in each of `k` iterations. -/
def searches (n k : Quantity) : Except CostError Quantity :=
  productOf k [n, .whole searchTrials]

/-- Newton's method: a Jacobian, an elimination and a line search for each iteration. -/
def newtonTime (n k : Quantity) (iterations : String) : Except CostError TimeEstimate := do
  let evaluations ← product k n
  let jacobians ← productOf k [n, n]
  let eliminations ← product k n.cube
  let searches ← searches n k
  let operations ← sumOf evaluations [jacobians, eliminations, searches]
  let time ← sum eliminations searches
  let shownTrials ← (← product k (.whole searchTrials)).shown
  return {
    time
    notationText := s!"O(k n³ + k n (ls={searchTrials})) ≈ O({iterations} n³ + {shownTrials} n)"
    operations }

/-- The secant method: an update for each iteration and a solve for each period. -/
def secantTime (n k period : Quantity) (iterations : String) : Except CostError TimeEstimate := do
  let solves ← integral DoubleMagnitude.ceiling? (← quotient k period)
  let evaluations ← productOf k [n, .whole 2]
  let eliminations ← product (.whole solves) n.cube
  let updates ← productOf k [n, n]
  let searches ← searches n k
  let operations ← sumOf evaluations [eliminations, updates, searches]
  let shared ← quotient (← product k n.cube) period
  let time ← sumOf updates [.rounded shared, searches]
  let shownTrials ← (← product k (.whole searchTrials)).shown
  return {
    time
    notationText := s!"O(k n² (Broyden) + (k/p) n³ + k n (ls={searchTrials})) " ++
      s!"≈ O({iterations} n² + {solves} n³ + {shownTrials} n)"
    operations }

/-- The bytes that Newton's method holds. -/
def newtonMemory (n : Quantity) : Except CostError Quantity := do
  let square ← product n n
  product (← sum square (← product (.whole 4) n)) (.whole bytesPerNumber)

/-- The bytes that the secant method holds. -/
def secantMemory (n : Quantity) : Except CostError Quantity := do
  sum (← newtonMemory n) (← productOf (.whole 2) [n, n, .whole bytesPerNumber])

/-- The method's name holds the word for Newton's method, in any case. -/
def isNewton (method : String) : Bool :=
  Text.occursIn "newton".toList (Text.lowered method).toList

def methodName : JsonValue → Except CostError String
  | .text value => .ok value
  | .brokenText points => .ok (JsonValue.pointsText points)
  | _ => .error .noMethod

/-- The estimate for so many iterations of a method on a system of a given size. -/
def estimate (size iterations method period : JsonValue) : Except CostError CostEstimate := do
  if !(← isWithin 2 10 size) then
    throw .systemSize
  if ← isBelow 1 iterations then
    throw .noIterations
  if ← isBelow 1 period then
    throw .noPeriod
  let method ← methodName method
  let n ← given size
  let k ← given iterations
  let shownIterations ← shownGiven iterations
  let timed ←
    if isNewton method then newtonTime n k shownIterations
    else secantTime n k (← given period) shownIterations
  let memory ← if isNewton method then newtonMemory n else secantMemory n
  let time ← timed.time.toDouble
  let square ← product n n
  return {
    size
    iterations
    method
    time
    timeNotation := timed.notationText
    operations := ← timed.operations.toCount
    space := ← square.toDouble
    spaceNotation := s!"O(n²) = O({← n.shown}²) = O({← square.shown})"
    memoryBytes := ← memory.toCount
    period := if isNewton method then .integer 1 else period }

end CostModel

end RootFinding
