import Mathlib.Algebra.BigOperators.Fin
import Mathlib.Algebra.Order.BigOperators.Ring.Finset
import Mathlib.Algebra.Order.Field.Basic
import Mathlib.Tactic.NormNum
import RootFinding.Linear.Vector

/-!
# Arithmetic without rounding

An ordered field carries the arithmetic of the solver exactly: every comparison has an answer, every
number is finite, and sums do not depend on their order. So vectors and matrices are read here as
functions of their indices, and products as sums over an index.
-/

namespace RootFinding

namespace Exact

/-- The operations and the order of a field. -/
scoped instance (priority := low) ofOrderedField
    {K : Type}
    [Field K]
    [LinearOrder K] :
    Arithmetic K where
  magnitude value := |value|
  less first second := decide (first < second)
  atMost first second := decide (first ≤ second)
  isFinite _ := true

section Vectors

variable {α : Type} {n : Nat}

/-- A vector is known by its entries. -/
theorem ext_get {u v : Vector α n} (same : ∀ i, u.get i = v.get i) : u = v :=
  Vector.ext fun i inside => same ⟨i, inside⟩

@[simp]
theorem get_ofFn (f : Fin n → α) (i : Fin n) : (Vector.ofFn f).get i = f i :=
  Vector.getElem_ofFn i.isLt

end Vectors

variable {K : Type} [Field K] [LinearOrder K]
variable {m n : Nat}

section Tests

variable {first second : K}

/-- In an ordered field, the comparison of the program is the order. -/
@[simp]
theorem less_iff : Arithmetic.less first second = true ↔ first < second :=
  decide_eq_true_iff

@[simp]
theorem less_eq_false_iff : Arithmetic.less first second = false ↔ second ≤ first :=
  decide_eq_false_iff_not.trans not_lt

@[simp]
theorem isUnordered_eq (value : K) : Arithmetic.isUnordered value = false := by
  have reflexive : Arithmetic.atMost value value = true := decide_eq_true le_rfl
  rw [Arithmetic.isUnordered, reflexive, Bool.not_true]

@[simp]
theorem magnitude_eq (value : K) : Arithmetic.magnitude value = |value| :=
  rfl

theorem larger_eq_max (first second : K) :
    Arithmetic.larger first second = max first second := by
  unfold Arithmetic.larger
  split
  · rename_i below
    exact (max_eq_right (less_iff.mp below).le).symm
  · rename_i above
    exact (max_eq_left (not_lt.mp (less_iff.not.mp above))).symm

@[simp]
theorem allFinite_eq (v : Vector K n) : allFinite v = true :=
  (allFinite_iff v).mpr fun _ _ => rfl

@[simp]
theorem entriesFinite_eq (A : DenseMatrix K m n) : A.entriesFinite = true :=
  Vector.all_eq_true_iff_forall_mem.mpr fun row _ => allFinite_eq row

end Tests

section Entries

@[simp]
theorem get_difference (u v : Vector K n) (i : Fin n) :
    (difference u v).get i = u.get i - v.get i :=
  getElem_difference u v i.val i.isLt

@[simp]
theorem get_opposite (v : Vector K n) (i : Fin n) : (opposite v).get i = -v.get i :=
  getElem_opposite v i.val i.isLt

/-- A move adds a multiple of the direction to every coordinate. -/
@[simp]
theorem get_moved (x dx : Vector K n) (alpha : K) (i : Fin n) :
    (moved x alpha dx).get i = x.get i + alpha * dx.get i :=
  getElem_moved x dx alpha i.val i.isLt

/-- A sum that is built up from zero over all indices. -/
theorem foldl_add_eq_sum (f : Fin n → K) :
    Fin.foldl n (fun total i => total + f i) 0 = ∑ i, f i := by
  induction n with
  | zero => simp
  | succ n inductionHypothesis =>
      rw [Fin.foldl_succ_last, inductionHypothesis, Fin.sum_univ_castSucc]

end Entries

variable [IsStrictOrderedRing K]

@[simp]
theorem ofScientific_zero : (0.0 : K) = 0 := by
  norm_num

@[simp]
theorem ofScientific_one : (1.0 : K) = 1 := by
  norm_num

@[simp]
theorem get_zeros (i : Fin n) : (zeros n : Vector K n).get i = 0 :=
  (getElem_zeros i.val i.isLt).trans ofScientific_zero

/-- The product of vectors is a sum, in whatever order it is taken. -/
theorem dot_eq_sum (u v : Vector K n) : dot u v = ∑ i, u.get i * v.get i := by
  rw [dot, ofScientific_zero]
  exact foldl_add_eq_sum fun i => u.get i * v.get i

/-- Applying a matrix sums a row's entries against the vector. -/
@[simp]
theorem get_apply (A : DenseMatrix K m n) (v : Vector K n) (i : Fin m) :
    (A.apply v).get i = ∑ j, A.entry i j * v.get j :=
  (A.getElem_apply v i.val i.isLt).trans (dot_eq_sum _ _)

theorem dot_self_eq_sum (v : Vector K n) : dot v v = ∑ i, v.get i ^ 2 := by
  simp only [dot_eq_sum, sq]

theorem dot_self_nonneg (v : Vector K n) : 0 ≤ dot v v := by
  rw [dot_self_eq_sum]
  exact Finset.sum_nonneg fun i _ => sq_nonneg _

end Exact

end RootFinding
