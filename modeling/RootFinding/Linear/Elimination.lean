import RootFinding.Linear.Vector

/-!
# Gaussian elimination

A square system is solved on its augmented rows: in stage `i` the row with the largest entry of
column `i`, among row `i` and the rows below it, is brought up, and multiples of it clear the column
underneath. Back substitution then fills the unknowns from the last to the first. A pivot below
the tolerance, or data that is not finite on either end, stops the solve with its cause.
-/

namespace RootFinding

/-- Why a linear system was given up. -/
inductive Singular (K : Type) where
  | nonFiniteInput
  | smallPivot (pivot : K) (column : Nat)
  | nonFiniteSolution
  deriving Repr, DecidableEq

namespace Elimination

variable {K : Type} [Arithmetic K] {n : Nat}

/-- Pivots of smaller magnitude count as zero. -/
def pivotTolerance : K := 1e-15

/-- The coefficients with the right-hand side as a last column. -/
def augmented (A : DenseMatrix K n n) (b : Vector K n) : DenseMatrix K n (n + 1) :=
  Vector.zipWith (fun row value => row.push value) A b

/--
The row of largest magnitude in column `i` from row `i` down.  The first maximum wins, and an
unordered entry wins over all that follow it.
-/
def pivotRow (rows : DenseMatrix K n (n + 1)) (i : Fin n) : Fin n :=
  let size := fun k : Fin n => Arithmetic.magnitude (rows.entry k i.castSucc)
  Fin.foldl n
    (fun best k =>
      if k ≤ i || Arithmetic.isUnordered (size best) then best
      else if Arithmetic.isUnordered (size k) || Arithmetic.less (size best) (size k) then k
      else best)
    i

/-- Subtract multiples of row `i` from the rows below it, from column `i` on. -/
def clearBelow (rows : DenseMatrix K n (n + 1)) (i : Fin n) : DenseMatrix K n (n + 1) :=
  let pivot := rows.entry i i.castSucc
  Vector.ofFn fun k =>
    if i < k then
      let factor := rows.entry k i.castSucc / pivot
      Vector.ofFn fun j =>
        if j.val < i.val then rows.entry k j else rows.entry k j - factor * rows.entry i j
    else rows.get k

/-- One stage: bring the pivot row up, test the pivot, clear its column underneath. -/
def stage (rows : DenseMatrix K n (n + 1)) (i : Fin n) :
    Except (Singular K) (DenseMatrix K n (n + 1)) :=
  let best := pivotRow rows i
  let ordered : DenseMatrix K n (n + 1) := rows.swap i.val best.val i.isLt best.isLt
  let pivot := ordered.entry i i.castSucc
  if Arithmetic.less (Arithmetic.magnitude pivot) pivotTolerance then
    .error (.smallPivot pivot i.val)
  else .ok (clearBelow ordered i)

/-- The rows after the first `count` stages. -/
def afterStages (rows : DenseMatrix K n (n + 1)) :
    (count : Nat) → Except (Singular K) (DenseMatrix K n (n + 1))
  | 0 => .ok rows
  | i + 1 => do
      let reached ← afterStages rows i
      if inside : i < n then stage reached ⟨i, inside⟩ else .ok reached

/-- The value of unknown `i` once all later unknowns are known. -/
def unknown (rows : DenseMatrix K n (n + 1)) (x : Vector K n) (i : Fin n) : K :=
  let known := Fin.foldl n
    (fun total k => if i < k then total + rows.entry i k.castSucc * x.get k else total) 0.0
  (rows.entry i (Fin.last n) - known) / rows.entry i i.castSucc

/-- Fill the first `count` unknowns of `x`, the last of them first. -/
def backSubstitute (rows : DenseMatrix K n (n + 1)) :
    (count : Nat) → Vector K n → Vector K n
  | 0, x => x
  | i + 1, x =>
      if inside : i < n then
        backSubstitute rows i (x.set i (unknown rows x ⟨i, inside⟩))
      else backSubstitute rows i x

end Elimination

open Elimination in
/-- Solve `A x = b`. -/
def solveLinear {K : Type} [Arithmetic K] {n : Nat}
    (A : DenseMatrix K n n)
    (b : Vector K n) :
    Except (Singular K) (Vector K n) :=
  if A.entriesFinite && allFinite b then do
    let rows ← afterStages (augmented A b) n
    let x := backSubstitute rows n (zeros n)
    if allFinite x then .ok x else .error .nonFiniteSolution
  else .error .nonFiniteInput

/-- The sizes of a coefficient table and a right-hand side that do not make a square system. -/
structure ShapeError where
  rows : Nat
  columns : Nat
  entries : Nat
  deriving Repr, DecidableEq

def ShapeError.message (error : ShapeError) : String :=
  "Expected an n×n matrix and length-n vector, got " ++
    s!"({error.rows}, {error.columns}) and ({error.entries},)."

/-- A square linear system of some size. -/
structure LinearSystem (K : Type) where
  size : Nat
  coefficients : DenseMatrix K size size
  right : Vector K size

/-- The system of a table whose rows all have `columns` entries, if it is square. -/
def LinearSystem.ofRows?
    {K : Type}
    (columns : Nat)
    (rows : Array (Array K))
    (right : Array K) :
    Except ShapeError (LinearSystem K) :=
  match (rows.mapM (sized? rows.size)).bind (sized? rows.size), sized? rows.size right with
  | some coefficients, some right => .ok { size := rows.size, coefficients, right }
  | _, _ => .error { rows := rows.size, columns, entries := right.size }

end RootFinding
