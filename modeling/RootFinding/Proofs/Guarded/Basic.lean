import RootFinding.Linear.Elimination
import RootFinding.Proofs.Outcome

/-!
# Guarded operations

The same computations on lists of any lengths, where every operation that could fail says so: a read
outside of a list, two lists that do not match, a linear system without a square shape, a pivot that
is given up, a division by zero. A computation that divides is handed the division only after its
divisor was tested, so there is no other way to divide here.
-/

namespace RootFinding

namespace Guarded

/-- Why a guarded computation has no value. -/
inductive Fault (K : Type) where
  | missingEntry (index : Nat)
  | differentSizes (left right : Nat)
  | shape (error : ShapeError)
  | singular (cause : Singular K)
  | zeroDivisor
  | noLength
  deriving Repr, DecidableEq

/-- A value or the fault that stood in its way. -/
abbrev Checked (K α : Type) : Type :=
  Except (Fault K) α

section Lists

variable {K α β γ : Type}

def entry (entries : Array α) (index : Nat) : Checked K α :=
  match entries[index]? with
  | some value => .ok value
  | none => .error (.missingEntry index)

/-- Go on if two sizes are the same. -/
def matching (left right : Nat) : Checked K Unit :=
  if left = right then .ok () else .error (.differentSizes left right)

/-- Combine the entries of two lists of one size. -/
def pairwise
    (combine : α → β → Checked K γ)
    (left : Array α)
    (right : Array β) :
    Checked K (Array γ) := do
  matching left.size right.size
  (left.zip right).mapM fun pair => combine pair.1 pair.2

/-- Combine them by an operation that cannot fail. -/
def entrywise (combine : α → β → γ) (left : Array α) (right : Array β) : Checked K (Array γ) :=
  pairwise (fun a b => .ok (combine a b)) left right

/-- The rows of a matrix as lists. -/
def table {m n : Nat} (A : DenseMatrix α m n) : Array (Array α) :=
  A.toArray.map Vector.toArray

end Lists

section Arithmetic

variable {K α : Type} [Arithmetic K]

/-- A zero of either sign. -/
def isZero (value : K) : Bool :=
  Arithmetic.atMost value 0.0 && Arithmetic.atMost 0.0 value

/-- Compute with a division by `divisor`, which must not be zero. -/
def dividing (divisor : K) (compute : (divide : K → K) → α) : Checked K α :=
  if isZero divisor then .error .zeroDivisor else .ok (compute fun value => value / divisor)

/-- The sum of the products of matching entries. -/
def inner (left right : Array K) : Checked K K :=
  if same : right.size = left.size then .ok (dot left.toVector ⟨right, same⟩)
  else .error (.differentSizes left.size right.size)

end Arithmetic

section Laws

variable {K α β γ : Type}

@[simp]
theorem ok_bind
    (value : α)
    (next : α → Checked K β) :
    ((.ok value : Checked K α) >>= next) = next value :=
  rfl

theorem get_eq_getElem
    {n : Nat}
    (entries : Vector α n)
    (index : Fin n) :
    entries.get index = entries[index.val] :=
  rfl

theorem entry_toArray
    {n : Nat}
    (entries : Vector α n)
    (index : Fin n) :
    (entry entries.toArray index.val : Checked K α) = .ok (entries.get index) := by
  simp [entry]
  rfl

theorem matching_self (size : Nat) :
    (matching size size : Checked K Unit) = .ok () := by
  simp [matching]

/-- A pass over the entries succeeds where each entry does. -/
theorem mapM_toArray_eq_ok
    {n : Nat}
    {compute : α → Checked K β}
    {items : Vector α n}
    {results : Vector β n}
    (succeeds : ∀ i (inside : i < n), compute items[i] = .ok results[i]) :
    items.toArray.mapM compute = .ok results.toArray := by
  have listed : items.toArray.toList.mapM compute = .ok results.toArray.toList := by
    rw [Outcome.mapM_eq_ok_iff, List.forall₂_iff_get]
    refine ⟨by simp, fun i inItems inResults => ?_⟩
    simpa using succeeds i (by simpa using inItems)
  rw [Array.mapM_eq_mapM_toList, listed]
  rfl

/-- Lists that came from vectors of one size match. -/
theorem pairwise_toArray
    {n : Nat}
    {combine : α → β → Checked K γ}
    {left : Vector α n}
    {right : Vector β n}
    {results : Vector γ n}
    (succeeds : ∀ i (inside : i < n), combine left[i] right[i] = .ok results[i]) :
    pairwise combine left.toArray right.toArray = .ok results.toArray := by
  have zipped :
      (left.toArray.zip right.toArray).mapM (fun pair => combine pair.1 pair.2) =
        .ok results.toArray := by
    have pairs : left.toArray.zip right.toArray = (left.zip right).toArray := rfl
    rw [pairs]
    apply mapM_toArray_eq_ok
    intro i inside
    simpa using succeeds i inside
  rw [pairwise, left.size_toArray, right.size_toArray, matching_self, ok_bind, zipped]

/-- Vectors of one size are combined without a complaint. -/
theorem entrywise_toArray
    {n : Nat}
    (combine : α → β → γ)
    (left : Vector α n)
    (right : Vector β n) :
    (entrywise combine left.toArray right.toArray : Checked K (Array γ)) =
      .ok (Vector.zipWith combine left right).toArray := by
  apply pairwise_toArray
  intro i inside
  simp

/-- A table is the rows of a matrix with their sizes forgotten. -/
theorem table_eq_toArray_map
    {m n : Nat}
    (A : DenseMatrix α m n) :
    table A = (A.map Vector.toArray).toArray := by
  simp [table]

theorem size_table
    {m n : Nat}
    (A : DenseMatrix α m n) :
    (table A).size = m := by
  simp [table]

/-- A product of all entries of two vectors is a table. -/
theorem table_map_map
    {m n : Nat}
    (u : Vector α m)
    (v : Vector β n)
    (combine : α → β → γ) :
    (u.toArray.map fun a => v.toArray.map fun b => combine a b) =
      table (u.map fun a => v.map fun b => combine a b) := by
  simp [table]

/-- Tables of matrices of one shape match. -/
theorem entrywise_table
    {m n : Nat}
    (combine : α → β → γ)
    (left : DenseMatrix α m n)
    (right : DenseMatrix β m n) :
    (pairwise (entrywise combine) (table left) (table right) : Checked K (Array (Array γ))) =
      .ok (table (Vector.zipWith (Vector.zipWith combine) left right)) := by
  simp only [table_eq_toArray_map]
  apply pairwise_toArray
  intro i inside
  simpa using entrywise_toArray combine left[i] right[i]

end Laws

section ArithmeticLaws

variable {K α : Type} [Arithmetic K]

/-- Division by anything but a zero is allowed. -/
theorem dividing_eq_ok
    {divisor : K}
    (nonzero : isZero divisor = false)
    (compute : (divide : K → K) → α) :
    dividing divisor compute = .ok (compute fun value => value / divisor) := by
  simp [dividing, nonzero]

theorem inner_toArray
    {n : Nat}
    (left right : Vector K n) :
    inner left.toArray right.toArray = .ok (dot left right) := by
  obtain ⟨left, rfl⟩ := left
  obtain ⟨right, same⟩ := right
  simp [inner, same]

theorem entrywise_difference
    {n : Nat}
    (u v : Vector K n) :
    entrywise (fun a b => a - b) u.toArray v.toArray =
      (.ok (difference u v).toArray : Checked K (Array K)) :=
  entrywise_toArray _ u v

theorem map_neg_toArray
    {n : Nat}
    (v : Vector K n) :
    (v.toArray.map fun value => -value) = (opposite v).toArray := by
  simp [opposite]

/-- A table is applied as the matrix is. -/
theorem mapM_inner_table
    {m n : Nat}
    (A : DenseMatrix K m n)
    (v : Vector K n) :
    (table A).mapM (fun row => inner row v.toArray) = .ok (A.apply v).toArray := by
  rw [table_eq_toArray_map]
  apply mapM_toArray_eq_ok
  intro i inside
  simpa using inner_toArray A[i] v

/-- A table is finite where the matrix is. -/
theorem all_isFinite_table
    {m n : Nat}
    (A : DenseMatrix K m n) :
    ((table A).all fun row => row.all Arithmetic.isFinite) = A.entriesFinite := by
  rw [table_eq_toArray_map, Vector.all_toArray, Vector.all_map]
  rfl

end ArithmeticLaws

end Guarded

end RootFinding
