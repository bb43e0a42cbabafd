import RootFinding.Linear.Vector

/-!
# Expressions

The left-hand side of an equation, ready to be evaluated: a list of terms, each a coefficient times
at most two variables. That a term holds no third variable is part of its type. Variables are drawn
from an index type, so an expression over `Fin n` can only be evaluated at points with `n` entries
and never reads outside of one.
-/

namespace RootFinding

/-- The variables that a term multiplies. -/
inductive Monomial (ι : Type) where
  | one
  | single (first : ι)
  | product (first second : ι)
  deriving Repr, DecidableEq

/-- A coefficient times at most two variables. -/
structure Term (K ι : Type) where
  coefficient : K
  monomial : Monomial ι
  deriving Repr, DecidableEq

/-- A sum of terms, in the order in which they are added. -/
abbrev Expression (K ι : Type) : Type :=
  List (Term K ι)

abbrev ExpressionSystem (K : Type) (m n : Nat) : Type :=
  Vector (Expression K (Fin n)) m

namespace Monomial

variable {ι κ : Type}

/-- The variables in the order in which they multiply. -/
def toList : Monomial ι → List ι
  | .one => []
  | .single first => [first]
  | .product first second => [first, second]

/-- The monomial of the first two variables of a list. -/
def ofList : List ι → Monomial ι
  | [] => .one
  | [first] => .single first
  | first :: second :: _ => .product first second

def rename? {ε : Type} (name : ι → Except ε κ) : Monomial ι → Except ε (Monomial κ)
  | .one => .ok .one
  | .single first => do return .single (← name first)
  | .product first second => do
      let first ← name first
      let second ← name second
      return .product first second

theorem toList_ofList (indices : List ι) :
    (ofList indices).toList = indices.take 2 := by
  match indices with
  | [] => rfl
  | [_] => rfl
  | _ :: _ :: _ => rfl

end Monomial

namespace Term

variable {K ι κ : Type}

/-- The coefficient times the values of the variables, from left to right. -/
def value [Arithmetic K] (term : Term K ι) (point : ι → K) : K :=
  match term.monomial with
  | .one => term.coefficient
  | .single first => term.coefficient * point first
  | .product first second => term.coefficient * point first * point second

/-- Rename the variables of a term. -/
def rename? {ε : Type} (name : ι → Except ε κ) (term : Term K ι) : Except ε (Term K κ) := do
  return { coefficient := term.coefficient, monomial := ← term.monomial.rename? name }

end Term

namespace Expression

variable {K ι κ : Type}

/-- The terms added up from zero, from left to right. -/
def value [Arithmetic K] (expression : Expression K ι) (point : ι → K) : K :=
  expression.foldl (fun total term => total + term.value point) 0.0

/-- The value at a point that has an entry for every variable. -/
def valueAt [Arithmetic K] {n : Nat} (expression : Expression K (Fin n)) (x : Vector K n) : K :=
  expression.value x.get

/-- Rename the variables, in the order in which the terms hold them. -/
def rename? {ε : Type}
    (name : ι → Except ε κ)
    (expression : Expression K ι) :
    Except ε (Expression K κ) :=
  expression.mapM fun term => term.rename? name

/-- The same expression over `n` variables, or the first variable that is not among them. -/
def restrict? {bound : Nat}
    (n : Nat)
    (expression : Expression K (Fin bound)) :
    Except (Fin bound) (Expression K (Fin n)) :=
  expression.rename? fun i => if inside : i.val < n then .ok ⟨i.val, inside⟩ else .error i

end Expression

/-- The value of every expression of a system. -/
def residuals {K : Type} [Arithmetic K] {m n : Nat}
    (system : ExpressionSystem K m n)
    (x : Vector K n) :
    Vector K m :=
  system.map fun expression => expression.valueAt x

@[simp]
theorem getElem_residuals {K : Type} [Arithmetic K] {m n : Nat}
    (system : ExpressionSystem K m n)
    (x : Vector K n)
    (i : Nat)
    (inside : i < m) :
    (residuals system x)[i] = system[i].valueAt x := by
  simp [residuals]

end RootFinding
