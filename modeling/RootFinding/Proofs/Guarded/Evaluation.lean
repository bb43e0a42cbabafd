import RootFinding.Iteration.Loose
import RootFinding.Proofs.Guarded.Divisors

/-!
# Guarded evaluation

Terms are evaluated here as they were read, over all variable numbers, at a point of any length, so
an expression may ask for an entry that the point does not have. Where every expression keeps to the
variables of the system nothing is missing, and residuals, estimates of the Jacobian and line
searches are those of the system.
-/

namespace RootFinding

namespace Guarded

variable {K : Type} {bound m n : Nat}

section Arithmetic

variable [Arithmetic K]

/-- The value of a term at a point, which is read for every variable of the term. -/
def termValue (x : Array K) (term : Term K (Fin bound)) : Checked K K :=
  match term.monomial with
  | .one => .ok term.coefficient
  | .single first => do
      let value ← entry x first.val
      return term.coefficient * value
  | .product first second => do
      let value ← entry x first.val
      let next ← entry x second.val
      return term.coefficient * value * next

def expressionValue (x : Array K) (expression : Expression K (Fin bound)) : Checked K K :=
  expression.foldlM
    (fun total term => do
      let value ← termValue x term
      return total + value)
    0.0

def residuals (terms : List (Expression K (Fin bound))) (x : Array K) : Checked K (Array K) := do
  let values ← terms.mapM (expressionValue x)
  return values.toArray

/-- Walk `alpha` times a step. -/
def walked (x : Array K) (alpha : K) (dx : Array K) : Checked K (Array K) :=
  entrywise (fun a d => a + alpha * d) x dx

/-- A list of entries as a vector of a given size. -/
def fitting {α : Type} (size : Nat) (entries : Array α) : Checked K (Vector α size) :=
  match sized? size entries with
  | some fitted => .ok fitted
  | none => .error (.differentSizes entries.size size)

/-- One column of the Jacobian, from a step forward along one coordinate. -/
def column
    (terms : List (Expression K (Fin bound)))
    (x fx : Array K)
    (index : Nat) :
    Checked K (Array K) := do
  let coordinate ← entry x index
  let step := FiniteDifference.stepSize coordinate
  let values ← residuals terms (x.setIfInBounds index (coordinate + step))
  let change ← entrywise (fun a b => a - b) values fx
  dividing step fun divide => change.map divide

/-- The Jacobian by rows; every column has to fit in. -/
def jacobian (terms : List (Expression K (Fin bound))) (x fx : Array K) :
    Checked K (Array (Array K)) := do
  let columns ← (Array.range x.size).mapM (column terms x fx)
  let fitted ← columns.mapM (fitting x.size)
  return Array.ofFn fun i : Fin x.size => fitted.map fun entries => entries.get i

/-- The terms keep to the variables of a system and are the terms of that system. -/
def AreTermsOf
    (terms : List (Expression K (Fin bound)))
    (system : ExpressionSystem K m n) :
    Prop :=
  List.Forall₂ (fun expression fitted => expression.restrict? n = .ok fitted) terms system.toList

end Arithmetic

section Scalar

variable [Scalar K]

def norm (v : Array K) : K :=
  euclideanNorm v.toVector

def dampedStep (fx : Array K) : Checked K (Array K) :=
  dividing (1.0 + norm fx) fun divide =>
    let size := divide 0.01
    fx.map fun value => -size * value

/-- The first length of a list that lowers the norm enough, else the last. -/
def backtrack
    (terms : List (Expression K (Fin bound)))
    (x dx : Array K)
    (before : K) :
    List K → Checked K (LineSearch.Choice K)
  | [] => .error .noLength
  | alpha :: smaller => do
      let point ← walked x alpha dx
      let values ← residuals terms point
      if LineSearch.isSufficient before alpha (norm values) then
        return { alpha, trials := 1 }
      else
        match smaller with
        | [] => return { alpha, trials := 1 }
        | next :: rest => do
            let later ← backtrack terms x dx before (next :: rest)
            return { later with trials := later.trials + 1 }

@[simp]
theorem norm_toArray (v : Vector K n) :
    norm v.toArray = euclideanNorm v := by
  obtain ⟨v, rfl⟩ := v
  rfl

end Scalar

section Fitting

variable [Arithmetic K]

/-- A term whose variables are among the first `n` finds all of them. -/
theorem termValue_toArray
    {term : Term K (Fin bound)}
    {fitted : Term K (Fin n)}
    (renamed :
      term.rename? (fun i => if inside : i.val < n then .ok ⟨i.val, inside⟩ else .error i) =
        (.ok fitted : Except (Fin bound) (Term K (Fin n))))
    (x : Vector K n) :
    termValue x.toArray term = .ok (fitted.value x.get) := by
  obtain ⟨coefficient, monomial⟩ := term
  cases monomial with
  | one =>
      cases renamed
      rfl
  | single first =>
      by_cases inside : first.val < n
      · simp only [Term.rename?, Monomial.rename?, inside, ↓reduceDIte] at renamed
        cases renamed
        simp only [termValue, entry_toArray x ⟨first.val, inside⟩, ok_bind]
        rfl
      · simp only [Term.rename?, Monomial.rename?, inside, ↓reduceDIte] at renamed
        cases renamed
  | product first second =>
      by_cases firstInside : first.val < n
      · by_cases secondInside : second.val < n
        · simp only [Term.rename?, Monomial.rename?, firstInside, secondInside, ↓reduceDIte]
            at renamed
          cases renamed
          simp only [termValue, entry_toArray x ⟨first.val, firstInside⟩,
            entry_toArray x ⟨second.val, secondInside⟩, ok_bind]
          rfl
        · simp only [Term.rename?, Monomial.rename?, firstInside, secondInside, ↓reduceDIte]
            at renamed
          cases renamed
      · simp only [Term.rename?, Monomial.rename?, firstInside, ↓reduceDIte] at renamed
        cases renamed

/-- The terms that fit a system are summed up without a bad index. -/
private theorem foldlM_termValue
    {expression : Expression K (Fin bound)}
    {fitted : Expression K (Fin n)}
    (restricted : expression.restrict? n = .ok fitted)
    (x : Vector K n)
    (total : K) :
    expression.foldlM
        (fun total term => do
          let value ← termValue x.toArray term
          return total + value)
        total =
      (.ok (fitted.foldl (fun total term => total + term.value x.get) total) : Checked K K) := by
  replace restricted := Outcome.mapM_eq_ok_iff.mp restricted
  induction restricted generalizing total with
  | nil =>
      rfl
  | cons first _ inductionHypothesis =>
      rw [List.foldlM_cons, termValue_toArray first x, ok_bind, List.foldl_cons]
      exact inductionHypothesis _

/-- An expression that keeps to the first `n` variables has a value at a point of size `n`. -/
theorem expressionValue_toArray
    {expression : Expression K (Fin bound)}
    {fitted : Expression K (Fin n)}
    (restricted : expression.restrict? n = .ok fitted)
    (x : Vector K n) :
    expressionValue x.toArray expression = .ok (fitted.valueAt x) :=
  foldlM_termValue restricted x 0.0

variable {terms : List (Expression K (Fin bound))}

/-- The guarded residuals are the residuals. -/
theorem residuals_toArray
    {system : ExpressionSystem K m n}
    (areTerms : AreTermsOf terms system)
    (x : Vector K n) :
    residuals terms x.toArray = .ok (RootFinding.residuals system x).toArray := by
  have values :
      terms.mapM (expressionValue x.toArray) =
        .ok (system.toList.map fun expression => expression.valueAt x) := by
    rw [Outcome.mapM_eq_ok_iff, List.forall₂_map_right_iff]
    exact areTerms.imp fun expression fitted restricted => expressionValue_toArray restricted x
  rw [residuals, values, ok_bind, RootFinding.residuals, Vector.toArray_map, ← Vector.toList_map]
  rfl

theorem walked_toArray
    (x : Vector K n)
    (alpha : K)
    (dx : Vector K n) :
    walked x.toArray alpha dx.toArray = .ok (moved x alpha dx).toArray :=
  entrywise_toArray _ x dx

omit [Arithmetic K] in
theorem fitting_toArray
    {α : Type}
    (entries : Vector α n) :
    (fitting n entries.toArray : Checked K (Vector α n)) = .ok entries := by
  simp [fitting, sized?]

end Fitting

section Safe

variable [Scalar K] [SafeDivisors K]
variable {terms : List (Expression K (Fin bound))}

/-- A guarded column of difference quotients is the column, since no step is a zero. -/
theorem column_toArray
    {system : ExpressionSystem K m n}
    (areTerms : AreTermsOf terms system)
    (x : Vector K n)
    (fx : Vector K m)
    (index : Fin n) :
    column terms x.toArray fx.toArray index.val =
      .ok ((difference (RootFinding.residuals system (FiniteDifference.forward x index)) fx).map
        fun change => change / FiniteDifference.stepSize (x.get index)).toArray := by
  have stepped :
      x.toArray.setIfInBounds index.val
          (x.get index + FiniteDifference.stepSize (x.get index)) =
        (FiniteDifference.forward x index).toArray := by
    simp [FiniteDifference.forward, Array.setIfInBounds]
  rw [column, entry_toArray, ok_bind]
  dsimp only
  rw [stepped, residuals_toArray areTerms, ok_bind, entrywise_toArray, ok_bind,
    dividing_eq_ok (SafeDivisors.isZero_stepSize _)]
  simp [difference]

def columns (system : ExpressionSystem K m n) (x : Vector K n) (fx : Vector K m) :
    DenseMatrix K n m :=
  Vector.ofFn fun j =>
    (difference (RootFinding.residuals system (FiniteDifference.forward x j)) fx).map
      fun change => change / FiniteDifference.stepSize (x.get j)

omit [SafeDivisors K] in
/-- Turning the columns around gives the table of the difference quotients. -/
theorem table_jacobian
    (system : ExpressionSystem K m n)
    (x : Vector K n)
    (fx : Vector K m) :
    (Array.ofFn fun i : Fin m => (columns system x fx).toArray.map fun entries => entries.get i) =
      table (FiniteDifference.jacobian system x fx) := by
  apply Array.ext
  · simp [table]
  · intro i inLeft inRight
    apply Array.ext
    · simp [table]
    · intro j inColumns inRow
      simp [table, columns, FiniteDifference.jacobian, DenseMatrix.entry, get_eq_getElem]

/-- The guarded difference quotients are the difference quotients. -/
theorem jacobian_toArray
    {system : ExpressionSystem K n n}
    (areTerms : AreTermsOf terms system)
    (x fx : Vector K n) :
    jacobian terms x.toArray fx.toArray =
      .ok (table (FiniteDifference.jacobian system x fx)) := by
  -- The matrix is put together from its columns, so these have to fit before it has rows.
  obtain ⟨x, rfl⟩ := x
  have measured :
      (Array.range x.size).mapM (column terms x fx.toArray) =
        .ok ((columns system ⟨x, rfl⟩ fx).map Vector.toArray).toArray := by
    have indices : Array.range x.size = (Vector.range x.size).toArray := rfl
    rw [indices]
    apply mapM_toArray_eq_ok
    intro j inside
    simpa [columns] using column_toArray areTerms ⟨x, rfl⟩ fx ⟨j, inside⟩
  have fitted :
      ((columns system ⟨x, rfl⟩ fx).map Vector.toArray).toArray.mapM (fitting x.size) =
        (.ok (columns system ⟨x, rfl⟩ fx).toArray : Checked K (Array (Vector K x.size))) := by
    apply mapM_toArray_eq_ok
    intro j inside
    simpa using fitting_toArray (columns system ⟨x, rfl⟩ fx)[j]
  rw [jacobian, measured, ok_bind, fitted, ok_bind, table_jacobian]
  rfl

/-- The guarded damped step is the damped step, since its divisor is not a zero. -/
theorem dampedStep_toArray (fx : Vector K n) :
    dampedStep fx.toArray = .ok (RootFinding.dampedStep fx).toArray := by
  have nonzero : isZero (1.0 + euclideanNorm fx) = false :=
    SafeDivisors.isZero_one_add_sqrt _
  rw [dampedStep, norm_toArray, dividing_eq_ok nonzero]
  simp [RootFinding.dampedStep]

omit [SafeDivisors K] in
/-- A line search over at least one length is that of the system. -/
theorem backtrack_toArray
    {system : ExpressionSystem K m n}
    (areTerms : AreTermsOf terms system)
    (x dx : Vector K n)
    (before alpha : K)
    (smaller : List K) :
    backtrack terms x.toArray dx.toArray before (alpha :: smaller) =
      .ok (LineSearch.backtrack system x dx before alpha smaller) := by
  induction smaller generalizing alpha with
  | nil =>
      rw [backtrack, walked_toArray, ok_bind, residuals_toArray areTerms, ok_bind]
      split <;> rfl
  | cons next rest inductionHypothesis =>
      rw [backtrack, walked_toArray, ok_bind, residuals_toArray areTerms, ok_bind, norm_toArray,
        inductionHypothesis, ok_bind]
      simp only [LineSearch.backtrack, LineSearch.choose, LineSearch.normAfter]
      by_cases sufficient :
          LineSearch.isSufficient before alpha
            (euclideanNorm (RootFinding.residuals system (moved x alpha dx))) = true
      · simp only [sufficient, ↓reduceIte]
        rfl
      · simp only [sufficient, ↓reduceIte, Bool.false_eq_true]
        rfl

end Safe

end Guarded

end RootFinding
