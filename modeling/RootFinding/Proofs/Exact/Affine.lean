import Mathlib.Tactic.LinearCombination
import Mathlib.Tactic.Positivity
import Mathlib.Tactic.Ring
import RootFinding.FiniteDifference
import RootFinding.Proofs.Exact.Field

/-!
# Affine systems

Where no term multiplies two variables, the value of an expression is a constant and a sum of
coefficients times variables. The coefficients of a system make up its matrix, and without rounding
this matrix alone tells how residuals change from one point to another. So forward differences,
whatever their step, give the matrix itself.
-/

namespace RootFinding

open scoped Exact

/-- The term keeps at most one variable. -/
def Term.IsAffine {K ι : Type} (term : Term K ι) : Prop :=
  term.monomial.toList.length ≤ 1

section Terms

variable {K : Type} [Field K] [LinearOrder K] {n : Nat}

namespace Expression

/-- The sum of the coefficients of a variable. -/
def coefficient (expression : Expression K (Fin n)) (j : Fin n) : K :=
  (expression.map fun term => if term.monomial = .single j then term.coefficient else 0).sum

/-- The sum of the terms without a variable. -/
def constant (expression : Expression K (Fin n)) : K :=
  (expression.map fun term => if term.monomial = .one then term.coefficient else 0).sum

end Expression

/-- An affine term is its constant part and a multiple of the coordinate that it names. -/
theorem Term.value_of_isAffine
    {term : Term K (Fin n)}
    (affine : term.IsAffine)
    (point : Fin n → K) :
    term.value point =
      (if term.monomial = .one then term.coefficient else 0) +
        ∑ j, (if term.monomial = .single j then term.coefficient else 0) * point j := by
  obtain ⟨coefficient, monomial⟩ := term
  cases monomial with
  | one => simp [Term.value]
  | single first => simp [Term.value]
  | product first second => simp [IsAffine, Monomial.toList] at affine

variable [IsStrictOrderedRing K]

/-- Terms that are added one after the other make up their sum. -/
theorem Expression.value_eq_sum {ι : Type} (expression : Expression K ι) (point : ι → K) :
    expression.value point = (expression.map fun term => term.value point).sum := by
  rw [value, Exact.ofScientific_zero, List.sum_eq_foldl, List.foldl_map]

/-- An affine expression is its constant and its coefficients applied to the point. -/
theorem Expression.valueAt_of_isAffine
    {expression : Expression K (Fin n)}
    (affine : ∀ term ∈ expression, term.IsAffine)
    (x : Vector K n) :
    expression.valueAt x =
      expression.constant + ∑ j, expression.coefficient j * x.get j := by
  rw [valueAt, value_eq_sum]
  induction expression with
  | nil => simp [constant, coefficient]
  | cons term rest inductionHypothesis =>
      obtain ⟨first, later⟩ := List.forall_mem_cons.mp affine
      have terms := Term.value_of_isAffine first x.get
      have sums := inductionHypothesis later
      simp only [constant, coefficient, List.map_cons, List.sum_cons, add_mul,
        Finset.sum_add_distrib] at sums ⊢
      linear_combination terms + sums

end Terms

section Systems

variable {K : Type} [Field K] [LinearOrder K] {m n : Nat}

namespace ExpressionSystem

/-- Every term of every expression keeps at most one variable. -/
def IsAffine (system : ExpressionSystem K m n) : Prop :=
  ∀ expression ∈ system, ∀ term ∈ expression, term.IsAffine

/-- The matrix of the coefficients of a system. -/
def coefficients (system : ExpressionSystem K m n) : DenseMatrix K m n :=
  Vector.ofFn fun i => Vector.ofFn fun j => (system.get i).coefficient j

variable {system : ExpressionSystem K m n}

@[simp]
theorem entry_coefficients (system : ExpressionSystem K m n) (i : Fin m) (j : Fin n) :
    (coefficients system).entry i j = (system.get i).coefficient j := by
  rw [DenseMatrix.entry, coefficients, Exact.get_ofFn, Exact.get_ofFn]

variable [IsStrictOrderedRing K]

/--
The residuals of an affine system are the constants and the coefficients applied to the point.
-/
theorem get_residuals (affine : IsAffine system) (x : Vector K n) (i : Fin m) :
    (residuals system x).get i =
      (system.get i).constant + ∑ j, (coefficients system).entry i j * x.get j := by
  have member : system.get i ∈ system := Vector.getElem_mem i.isLt
  simp only [entry_coefficients]
  rw [← Expression.valueAt_of_isAffine (affine _ member) x]
  exact getElem_residuals system x i.val i.isLt

/-- Residuals change by the image of the displacement. -/
theorem difference_residuals (affine : IsAffine system) (y x : Vector K n) :
    difference (residuals system y) (residuals system x) =
      (coefficients system).apply (difference y x) := by
  apply Exact.ext_get
  intro i
  simp only [Exact.get_difference, Exact.get_apply, get_residuals affine, mul_sub,
    Finset.sum_sub_distrib]
  ring

/-- A step changes the residuals by its length times the image of its direction. -/
theorem get_residuals_moved
    (affine : IsAffine system)
    (x dx : Vector K n)
    (alpha : K)
    (i : Fin m) :
    (residuals system (moved x alpha dx)).get i =
      (residuals system x).get i + alpha * ((coefficients system).apply dx).get i := by
  have terms (j : Fin n) :
      (coefficients system).entry i j * (x.get j + alpha * dx.get j) =
        (coefficients system).entry i j * x.get j +
          alpha * ((coefficients system).entry i j * dx.get j) := by
    ring
  simp only [get_residuals affine, Exact.get_moved, Exact.get_apply, terms,
    Finset.sum_add_distrib, ← Finset.mul_sum]
  ring

end ExpressionSystem

end Systems

namespace FiniteDifference

variable {K : Type} [Field K] [LinearOrder K] {m n : Nat}

/-- Stepping forward moves one coordinate. -/
theorem get_difference_forward (x : Vector K n) (j k : Fin n) :
    (difference (forward x j) x).get k = if j = k then stepSize (x.get j) else 0 := by
  have moved :
      (forward x j).get k = if j.val = k.val then x.get j + stepSize (x.get j) else x.get k :=
    Vector.getElem_set j.isLt k.isLt
  rw [Exact.get_difference, moved]
  simp only [← Fin.ext_iff]
  split
  · rename_i same
    subst same
    ring
  · exact sub_self _

/-- A column holds the change of the residuals over the step of its coordinate. -/
theorem entry_jacobian
    (system : ExpressionSystem K m n)
    (x : Vector K n)
    (fx : Vector K m)
    (i : Fin m)
    (j : Fin n) :
    (jacobian system x fx).entry i j =
      (difference (residuals system (forward x j)) fx).get i / stepSize (x.get j) := by
  have step : (x.map stepSize).get j = stepSize (x.get j) := Vector.getElem_map stepSize j.isLt
  simp only [jacobian, DenseMatrix.entry, Exact.get_ofFn, step, Exact.get_difference]

variable [IsStrictOrderedRing K]

/-- No coordinate is left where it is. -/
theorem stepSize_pos (coordinate : K) : 0 < stepSize coordinate := by
  have least : (0 : K) < leastStep := by
    rw [leastStep]
    norm_num
  rw [stepSize, Exact.larger_eq_max]
  exact lt_max_of_lt_right least

/-- Forward differences of an affine system are its coefficients. -/
theorem jacobian_of_isAffine
    {system : ExpressionSystem K m n}
    (affine : ExpressionSystem.IsAffine system)
    (x : Vector K n) :
    jacobian system x (residuals system x) = ExpressionSystem.coefficients system := by
  apply Exact.ext_get
  intro i
  apply Exact.ext_get
  intro j
  have column :
      ((ExpressionSystem.coefficients system).apply (difference (forward x j) x)).get i =
        (ExpressionSystem.coefficients system).entry i j * stepSize (x.get j) := by
    simp only [Exact.get_apply, get_difference_forward, mul_ite, mul_zero, Finset.sum_ite_eq,
      Finset.mem_univ, if_true]
  calc (jacobian system x (residuals system x)).entry i j
      = (difference (residuals system (forward x j)) (residuals system x)).get i /
          stepSize (x.get j) := entry_jacobian system x _ i j
    _ = (ExpressionSystem.coefficients system).entry i j * stepSize (x.get j) /
          stepSize (x.get j) := by
        rw [ExpressionSystem.difference_residuals affine, column]
    _ = (ExpressionSystem.coefficients system).entry i j :=
        mul_div_cancel_right₀ _ (stepSize_pos _).ne'

end FiniteDifference

end RootFinding
