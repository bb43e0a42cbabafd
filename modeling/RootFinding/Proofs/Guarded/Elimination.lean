import RootFinding.Proofs.Guarded.Divisors
import RootFinding.Proofs.Linear.Pivots

/-!
# Guarded elimination

A table and a list of entries are checked for a square shape, and then eliminated with a tested
division for every pivot. A table that came from a square matrix has the shape, and its pivots are
no zeros: a stage divides by a pivot that it has compared with the tolerance, and back substitution
divides by the same pivots. What is left is the one failure that the methods expect.
-/

namespace RootFinding

namespace Guarded

variable {K : Type} {n : Nat}

section Definitions

variable [Arithmetic K]

def stage (rows : DenseMatrix K n (n + 1)) (i : Fin n) : Checked K (DenseMatrix K n (n + 1)) :=
  let best := Elimination.pivotRow rows i
  let ordered : DenseMatrix K n (n + 1) := rows.swap i.val best.val i.isLt best.isLt
  let pivot := ordered.entry i i.castSucc
  if Arithmetic.less (Arithmetic.magnitude pivot) Elimination.pivotTolerance then
    .error (.singular (.smallPivot pivot i.val))
  else
    dividing pivot fun divide =>
      Vector.ofFn fun k =>
        if i < k then
          let factor := divide (ordered.entry k i.castSucc)
          Vector.ofFn fun j =>
            if j.val < i.val then ordered.entry k j
            else ordered.entry k j - factor * ordered.entry i j
        else ordered.get k

def afterStages (rows : DenseMatrix K n (n + 1)) :
    (count : Nat) → Checked K (DenseMatrix K n (n + 1))
  | 0 => .ok rows
  | i + 1 => do
      let reached ← afterStages rows i
      if inside : i < n then stage reached ⟨i, inside⟩ else .ok reached

/-- The value of unknown `i` once all later unknowns are known. -/
def unknown (rows : DenseMatrix K n (n + 1)) (x : Vector K n) (i : Fin n) : Checked K K :=
  let known := Fin.foldl n
    (fun total k => if i < k then total + rows.entry i k.castSucc * x.get k else total) 0.0
  dividing (rows.entry i i.castSucc) fun divide => divide (rows.entry i (Fin.last n) - known)

/-- Fill the first `count` unknowns of `x`, the last of them first. -/
def backSubstitute (rows : DenseMatrix K n (n + 1)) :
    (count : Nat) → Vector K n → Checked K (Vector K n)
  | 0, x => .ok x
  | i + 1, x =>
      if inside : i < n then do
        let value ← unknown rows x ⟨i, inside⟩
        backSubstitute rows i (x.set i value)
      else backSubstitute rows i x

/-- Solve a square system. -/
def solveSquare (A : DenseMatrix K n n) (b : Vector K n) : Checked K (Vector K n) :=
  if A.entriesFinite && allFinite b then do
    let rows ← afterStages (Elimination.augmented A b) n
    let x ← backSubstitute rows n (zeros n)
    if allFinite x then .ok x else .error (.singular .nonFiniteSolution)
  else .error (.singular .nonFiniteInput)

/-- Solve the system of a table and a list of entries. -/
def solve (rows : Array (Array K)) (right : Array K) : Checked K (Array K) := do
  let columns := (rows[0]?.map Array.size).getD 0
  let system ← (LinearSystem.ofRows? columns rows right).mapError .shape
  let x ← solveSquare system.coefficients system.right
  return x.toArray

end Definitions

section Safe

variable [Scalar K] [SafeDivisors K]

/-- A stage with guards fails for a singular matrix or not at all. -/
theorem stage_eq
    (rows : DenseMatrix K n (n + 1))
    (i : Fin n) :
    stage rows i = (Elimination.stage rows i).mapError .singular := by
  rw [Elimination.stage_eq]
  split
  · rename_i small
    exact if_pos small
  · -- A pivot that was not given up is large enough to divide by.
    rename_i tested
    have nonzero := SafeDivisors.isZero_pivot (Bool.eq_false_iff.mpr tested)
    exact (if_neg tested).trans (dividing_eq_ok nonzero _)

/-- Elimination with guards fails for a singular matrix or not at all. -/
theorem afterStages_eq
    (rows : DenseMatrix K n (n + 1))
    (count : Nat) :
    afterStages rows count = (Elimination.afterStages rows count).mapError .singular := by
  induction count with
  | zero =>
      rfl
  | succ i inductionHypothesis =>
      rw [afterStages, Elimination.afterStages, inductionHypothesis]
      cases Elimination.afterStages rows i with
      | error cause =>
          rfl
      | ok reached =>
          change
            (if inside : i < n then stage reached ⟨i, inside⟩ else .ok reached) =
              (if inside : i < n then Elimination.stage reached ⟨i, inside⟩
                else .ok reached).mapError .singular
          split
          · exact stage_eq reached _
          · rfl

/-- Back substitution divides by tested pivots only. -/
theorem backSubstitute_eq_ok
    {rows : DenseMatrix K n (n + 1)}
    (pivots : Elimination.HasPivots rows n)
    (count : Nat)
    (x : Vector K n) :
    backSubstitute rows count x = .ok (Elimination.backSubstitute rows count x) := by
  induction count generalizing x with
  | zero =>
      rfl
  | succ i inductionHypothesis =>
      rw [backSubstitute, Elimination.backSubstitute]
      split
      · rename_i inside
        have nonzero := SafeDivisors.isZero_pivot (pivots ⟨i, inside⟩ inside)
        rw [unknown, dividing_eq_ok nonzero, ok_bind]
        exact inductionHypothesis _
      · exact inductionHypothesis x

/-- A solve with guards fails for a singular matrix or not at all. -/
theorem solveSquare_eq
    (A : DenseMatrix K n n)
    (b : Vector K n) :
    solveSquare A b = (solveLinear A b).mapError .singular := by
  rw [solveSquare, solveLinear]
  split
  · rw [afterStages_eq]
    cases staged : Elimination.afterStages (Elimination.augmented A b) n with
    | error cause =>
        rfl
    | ok rows =>
        have pivots := Elimination.hasPivots_afterStages staged
        change
          (backSubstitute rows n (zeros n) >>= fun x =>
              if allFinite x then .ok x else .error (.singular .nonFiniteSolution)) =
            (if allFinite (Elimination.backSubstitute rows n (zeros n)) then
                Except.ok (Elimination.backSubstitute rows n (zeros n))
              else Except.error .nonFiniteSolution).mapError .singular
        rw [backSubstitute_eq_ok pivots, ok_bind]
        split <;> rfl
  · rfl

omit [Scalar K] [SafeDivisors K] in
theorem sized?_toArray
    {α : Type}
    (entries : Vector α n) :
    sized? n entries.toArray = some entries := by
  simp [sized?]

omit [Scalar K] [SafeDivisors K] in
/-- Rows and right side of one size make a linear system. -/
theorem ofRows?_of_size
    (columns : Nat)
    {rows : Array (Array K)}
    {right : Array K}
    {coefficients : DenseMatrix K n n}
    {entries : Vector K n}
    (size : rows.size = n)
    (fits : (rows.mapM (sized? n)).bind (sized? n) = some coefficients)
    (rightFits : sized? n right = some entries) :
    LinearSystem.ofRows? columns rows right =
      .ok { size := n, coefficients, right := entries } := by
  subst size
  simp [LinearSystem.ofRows?, fits, rightFits]

omit [Scalar K] [SafeDivisors K] in
/-- The table of a square matrix has the shape of a linear system. -/
theorem ofRows?_table
    (columns : Nat)
    (A : DenseMatrix K n n)
    (b : Vector K n) :
    LinearSystem.ofRows? columns (table A) b.toArray =
      .ok { size := n, coefficients := A, right := b } := by
  have size : (table A).size = n := by
    simp [table]
  have rows : (table A).mapM (sized? n) = some A.toArray := by
    have eachRow : (sized? n ∘ Vector.toArray : Vector K n → Option (Vector K n)) = pure ∘ id :=
      funext sized?_toArray
    rw [table, Array.mapM_map, eachRow]
    exact Array.mapM_pure.trans (by simp)
  apply ofRows?_of_size columns size
  · rw [rows, Option.bind_some, sized?_toArray]
  · exact sized?_toArray b

/-- A square system is solved, or given up as singular. -/
theorem solve_table
    (A : DenseMatrix K n n)
    (b : Vector K n) :
    solve (table A) b.toArray =
      ((solveLinear A b).map Vector.toArray).mapError .singular := by
  rw [solve, ofRows?_table, Except.mapError, ok_bind, solveSquare_eq]
  cases solveLinear A b <;> rfl

end Safe

end Guarded

end RootFinding
