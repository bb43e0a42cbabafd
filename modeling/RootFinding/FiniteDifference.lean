import RootFinding.Expression.Basic

/-!
# Finite differences

The Jacobian of a system, estimated column by column from one step forward along each coordinate.
The step grows with the coordinate and is near the cube root of the relative precision of doubles.
-/

namespace RootFinding

namespace FiniteDifference

variable {K : Type} [Arithmetic K] {m n : Nat}

/-- The cube root of `2 ^ -52`, as a double. -/
def relativeStep : K := 6.0554544523933395e-06

def leastStep : K := 1e-8

/-- The step forward along a coordinate. -/
def stepSize (coordinate : K) : K :=
  let scale := Arithmetic.larger (Arithmetic.magnitude coordinate) 1.0
  Arithmetic.larger (relativeStep * scale) leastStep

/-- The point with coordinate `j` stepped forward. -/
def forward (x : Vector K n) (j : Fin n) : Vector K n :=
  x.set j.val (x.get j + stepSize (x.get j)) j.isLt

/-- The Jacobian at `x` from the residuals `fx` there and one evaluation for each column. -/
def jacobian
    (system : ExpressionSystem K m n)
    (x : Vector K n)
    (fx : Vector K m) :
    DenseMatrix K m n :=
  let shifted : DenseMatrix K n m := Vector.ofFn fun j => residuals system (forward x j)
  let steps := x.map stepSize
  Vector.ofFn fun i => Vector.ofFn fun j => (shifted.entry j i - fx.get i) / steps.get j

/-- How many single expressions an estimate of an `n` by `n` Jacobian evaluates. -/
def evaluations (n : Nat) : Nat :=
  n * n

end FiniteDifference

end RootFinding
