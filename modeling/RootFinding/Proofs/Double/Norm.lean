import RootFinding.Expression.Basic
import RootFinding.Proofs.Double.Undefined

/-!
# Undefined residuals

Sums and norms are undefined where one of their parts is. The norm of finite entries is a magnitude,
so an undefined norm shows that not every entry is finite. At a point where every coordinate is
undefined an expression is undefined too, or it has no variables and the same value everywhere.
-/

namespace RootFinding

namespace Double

section Sums

variable {ι : Type} {parts : ι → Float}

/-- Nothing that is added afterwards defines a sum again. -/
theorem IsUndefined.foldl
    {total : Float}
    (undefined : IsUndefined total)
    (items : List ι) :
    IsUndefined (items.foldl (fun total item => total + parts item) total) := by
  induction items generalizing total with
  | nil => exact undefined
  | cons item items inductionHypothesis => exact inductionHypothesis (undefined.add_left _)

/-- A sum with an undefined part is undefined. -/
theorem isUndefined_foldl_of_mem
    {items : List ι}
    {item : ι}
    (member : item ∈ items)
    (undefined : IsUndefined (parts item))
    (total : Float) :
    IsUndefined (items.foldl (fun total item => total + parts item) total) := by
  induction items generalizing total with
  | nil => cases member
  | cons first items inductionHypothesis =>
      rcases List.mem_cons.mp member with rfl | later
      · exact (undefined.add_right total).foldl items
      · exact inductionHypothesis later _

/-- A sum of magnitudes is a magnitude. -/
theorem isMagnitude_foldl
    {items : List ι}
    (magnitudes : ∀ item ∈ items, IsMagnitude (value (parts item)))
    {total : Float}
    (isMagnitude : IsMagnitude (value total)) :
    IsMagnitude (value (items.foldl (fun total item => total + parts item) total)) := by
  induction items generalizing total with
  | nil => exact isMagnitude
  | cons first items inductionHypothesis =>
      obtain ⟨here, later⟩ := List.forall_mem_cons.mp magnitudes
      exact inductionHypothesis later (isMagnitude.add here)

end Sums

section Norms

variable {n : Nat} {v : Vector Float n}

theorem dot_eq_foldl (u v : Vector Float n) :
    dot u v =
      (List.finRange n).foldl (fun total i => total + u.get i * v.get i) 0.0 := by
  rw [dot, Fin.foldl_eq_finRange_foldl]

/-- A vector with an undefined entry has an undefined norm. -/
theorem isUndefined_norm
    {i : Fin n}
    (undefined : IsUndefined (v.get i)) :
    IsUndefined (euclideanNorm v) := by
  rw [euclideanNorm, dot_eq_foldl]
  exact (isUndefined_foldl_of_mem (List.mem_finRange i) (undefined.mul_left _) _).sqrt

/-- The norm of a finite vector may overflow, but it is not undefined. -/
theorem isMagnitude_norm (finite : allFinite v = true) : IsMagnitude (value (euclideanNorm v)) := by
  rw [allFinite_iff] at finite
  have zero : IsMagnitude (value 0.0) := by
    rw [value_zero]
    exact .zero .positive
  rw [euclideanNorm, dot_eq_foldl]
  refine (isMagnitude_foldl (fun i _ => ?_) zero).sqrt
  exact .mul_self (finite _ (Vector.getElem_mem i.isLt))

/-- The norm is defined as long as all entries are finite. -/
theorem not_allFinite_of_isUndefined_norm
    (undefined : IsUndefined (euclideanNorm v)) :
    allFinite v = false := by
  rw [Bool.eq_false_iff]
  intro finite
  exact (isMagnitude_norm finite).not_isUndefined undefined

theorem allFinite_opposite (v : Vector Float n) : allFinite (opposite v) = allFinite v := by
  rw [Bool.eq_iff_iff, allFinite_iff, allFinite_iff, opposite, Vector.forall_mem_map]
  simp only [isFinite_neg]

end Norms

section Residuals

variable {n : Nat}

/-- No term of the expression has a variable. -/
def IsConstant {ι : Type} (expression : Expression Float ι) : Prop :=
  ∀ term ∈ expression, term.monomial = .one

/-- A constant equation has one value at all points. -/
theorem IsConstant.valueAt_eq
    {expression : Expression Float (Fin n)}
    (constant : IsConstant expression)
    (x y : Vector Float n) :
    expression.valueAt x = expression.valueAt y := by
  rw [Expression.valueAt, Expression.valueAt, Expression.value, Expression.value]
  refine List.foldl_ext _ _ _ fun total term member => ?_
  rw [Term.value, Term.value, constant term member]

/-- Where every coordinate is undefined, so is every term that has a variable. -/
theorem isUndefined_term
    {point : Fin n → Float}
    (undefined : ∀ i, IsUndefined (point i))
    {term : Term Float (Fin n)}
    (notConstant : term.monomial ≠ .one) :
    IsUndefined (term.value point) := by
  rw [Term.value]
  split
  · rename_i shape
    exact absurd shape notConstant
  · exact (undefined _).mul_right _
  · exact (undefined _).mul_right _

/-- Where every coordinate is undefined, so is every equation that has a variable. -/
theorem isUndefined_valueAt
    {x : Vector Float n}
    (undefined : ∀ i, IsUndefined (x.get i))
    {expression : Expression Float (Fin n)}
    (notConstant : ¬IsConstant expression) :
    IsUndefined (expression.valueAt x) := by
  simp only [IsConstant, not_forall] at notConstant
  obtain ⟨term, member, hasVariable⟩ := notConstant
  have part : IsUndefined (term.value x.get) := isUndefined_term undefined hasVariable
  rw [Expression.valueAt, Expression.value]
  exact isUndefined_foldl_of_mem member part _

/-- Where a system has an undefined norm somewhere, it has one at every wholly undefined point. -/
theorem isUndefined_norm_residuals
    {system : ExpressionSystem Float n n}
    {x y : Vector Float n}
    (undefinedThere : IsUndefined (euclideanNorm (residuals system x)))
    (undefined : ∀ i, IsUndefined (y.get i)) :
    IsUndefined (euclideanNorm (residuals system y)) := by
  by_cases constant : ∀ i : Fin n, IsConstant (system.get i)
  · have same : residuals system y = residuals system x := by
      ext i inside
      rw [getElem_residuals, getElem_residuals]
      exact (constant ⟨i, inside⟩).valueAt_eq y x
    rwa [same]
  · obtain ⟨i, notConstant⟩ := not_forall.mp constant
    have entry : (residuals system y).get i = (system.get i).valueAt y :=
      getElem_residuals system y i.val i.isLt
    refine isUndefined_norm (i := i) ?_
    rw [entry]
    exact isUndefined_valueAt undefined notConstant

end Residuals

end Double

end RootFinding
