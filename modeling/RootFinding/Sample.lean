import RootFinding.Decimal.Layout
import RootFinding.Linear.Vector
import RootFinding.Random.Source

/-!
# Sample systems

Random systems with a known near-root. Equation `i` is `a xᵢ + b xᵢ xⱼ + d xᵢ xᵢ + c = 0`, where the
constant is chosen so that a hidden point almost solves it. Every coefficient is drawn together with
the number of decimals with which it is written.
-/

namespace RootFinding

/-- Why no system was made. -/
inductive SampleError where
  | size
  | exhausted
  deriving Repr, DecidableEq

def SampleError.message : SampleError → String
  | .size => "Number of equations must be between 2 and 10."
  | .exhausted => "The random source is exhausted."

/-- A coefficient and the number of decimals that are written of it. -/
structure WrittenCoefficient (K : Type) where
  value : K
  decimals : Nat
  deriving Repr, DecidableEq

/-- An equation as drawn, before it is written. -/
structure SampleEquation (K : Type) (n : Nat) where
  own : Fin n
  other : Fin n
  linear : WrittenCoefficient K
  cross : WrittenCoefficient K
  square : WrittenCoefficient K
  constant : WrittenCoefficient K
  deriving Repr, DecidableEq

/-- The name of a variable, counted from one. -/
def variableName (index : Nat) : String :=
  s!"x{index + 1}"

namespace WrittenCoefficient

variable {K : Type} [Arithmetic K] [HasExactValue K]

/-- Fixed decimals; a negative number stands in parentheses. -/
def text (coefficient : WrittenCoefficient K) : String :=
  let digits := Decimal.fixed coefficient.decimals (HasExactValue.exactValue coefficient.value)
  if Arithmetic.less coefficient.value 0.0 then "(" ++ digits ++ ")" else digits

/-- The coefficient without its sign. -/
def unsigned (coefficient : WrittenCoefficient K) : WrittenCoefficient K :=
  { coefficient with value := Arithmetic.magnitude coefficient.value }

end WrittenCoefficient

def SampleEquation.text {K : Type} [Arithmetic K] [HasExactValue K] {n : Nat}
    (equation : SampleEquation K n) :
    String :=
  let own := variableName equation.own.val
  let other := variableName equation.other.val
  let constant :=
    if Arithmetic.less equation.constant.value 0.0 then " - " ++ equation.constant.unsigned.text
    else " + " ++ equation.constant.text
  equation.linear.text ++ "*" ++ own ++
    " + " ++ equation.cross.text ++ "*" ++ own ++ "*" ++ other ++
    " + " ++ equation.square.text ++ "*" ++ own ++ "*" ++ own ++ constant ++ " = 0"

namespace Draw

variable {σ K : Type} [Arithmetic K] [RandomSource σ K]

/-- A value with a drawn number of decimals, from two to seven. -/
def written (value : K) : Draw σ (WrittenCoefficient K) := do
  return { value, decimals := ← integer K 2 8 }

variable (K) in
/-- An index other than `i`, in at most so many draws. -/
def otherIndex {n : Nat} (i : Fin n) : (draws : Nat) → Draw σ (Fin n)
  | 0 => failure
  | draws + 1 => do
      let j ← integer K 0 n
      if inside : j < n then
        if j = i.val then otherIndex i draws else return ⟨j, inside⟩
      else failure

/-- The coefficient of a variable itself, from 0.5 to 3.5 in size. -/
def linearCoefficient : Draw σ (WrittenCoefficient K) := do
  let size : K ← uniform
  let sign : K := if (← integer K 0 2) = 0 then 1.0 else -1.0
  written ((size * 3.0 + 0.5) * sign)

/-- The rest of an equation for `i`, once its other variable and its first coefficient are drawn. -/
def pairedEquation {n : Nat} (root : Vector K n) (i j : Fin n) (linear : WrittenCoefficient K) :
    Draw σ (SampleEquation K n) := do
  let share : K ← uniform
  let b := (share * 2.0 - 1.0) * 1.5
  let cross ← written b
  let bend : K ← uniform
  let d := bend * 2.0
  let square ← written d
  let own := root.get i
  let balance := linear.value * own + b * own * root.get j + d * own * own
  let offset : K ← uniform
  let c := -balance + (offset * 0.4 - 0.2)
  let constant ← written c
  return { own := i, other := j, linear, cross, square, constant }

/-- One equation that the hidden point almost solves, its other index in at most so many draws. -/
def sampleEquation {n : Nat} (draws : Nat) (root : Vector K n) (i : Fin n) :
    Draw σ (SampleEquation K n) := do
  let linear ← linearCoefficient
  let j ← otherIndex K i draws
  pairedEquation root i j linear

/-- The hidden point, with coordinates from -2 to 2. -/
def hiddenRoot (n : Nat) : Draw σ (Vector K n) := do
  return (← uniformVector n).map fun share => share * 4.0 - 2.0

/-- The hidden point and the equations, the first one first. -/
def sampleSystem (draws n : Nat) : Draw σ (Vector K n × List (SampleEquation K n)) := do
  let root ← hiddenRoot n
  let equations ← (List.finRange n).mapM (sampleEquation draws root)
  return (root, equations)

/-- A point to start from, with coordinates from -0.75 to 0.75. -/
def startingPoint (n : Nat) : Draw σ (Vector K n) := do
  return (← uniformVector n).map fun share => share * 1.5 - 0.75

end Draw

/--
The texts of a sample system of an admissible size, and the source after it. No index is drawn more
often than `draws` says.
-/
def sampleEquations {σ : Type} (K : Type) [Arithmetic K] [HasExactValue K] [RandomSource σ K]
    (size : Int)
    (source : σ)
    (draws : Nat := usualDraws) :
    Except SampleError (List String × σ) :=
  if size < 2 || 10 < size then .error .size
  else
    match (Draw.sampleSystem (K := K) draws size.toNat).run source with
    | some ((_, equations), rest) => .ok (equations.map SampleEquation.text, rest)
    | none => .error .exhausted

end RootFinding
