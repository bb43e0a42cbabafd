import Mathlib.LinearAlgebra.Matrix.NonsingularInverse
import Mathlib.Tactic.Linarith
import Mathlib.Tactic.Ring
import RootFinding.Proofs.Exact.Field
import RootFinding.Proofs.Linear.Pivots

/-!
# Elimination without rounding

Over an ordered field a stage of the elimination exchanges rows and subtracts multiples of one row
from others, so it keeps the solutions of the system, and it leaves a column of zeros under its
pivot. Once all stages are done, back substitution solves the rows from the last to the first. Which
pivots are met depends on the coefficients alone: a matrix that is eliminated with one right-hand
side is eliminated with every other, and so it is invertible.
-/

namespace RootFinding

open scoped Exact

namespace Elimination

section Augmented

variable {K : Type} {n : Nat}
variable (A : DenseMatrix K n n) (b : Vector K n)

@[simp]
theorem entry_augmented_castSucc (k j : Fin n) :
    (augmented A b).entry k j.castSucc = A.entry k j := by
  change (augmented A b)[k.val][j.val] = A[k.val][j.val]
  simp [augmented, Vector.getElem_push_lt]

@[simp]
theorem entry_augmented_last (k : Fin n) :
    (augmented A b).entry k (Fin.last n) = b.get k := by
  change (augmented A b)[k.val][n] = b[k.val]
  simp [augmented]

end Augmented

section Rows

variable {K : Type} [Arithmetic K] {n : Nat}

/-- Bringing the pivot row up exchanges it with the row in its place. -/
theorem entry_ordered
    (rows : DenseMatrix K n (n + 1))
    (i k : Fin n)
    (j : Fin (n + 1)) :
    (ordered rows i).entry k j = rows.entry (Equiv.swap i (pivotRow rows i) k) j := by
  have row : (ordered rows i).get k = rows.get (Equiv.swap i (pivotRow rows i) k) := by
    change (rows.swap i.val (pivotRow rows i).val i.isLt (pivotRow rows i).isLt)[k.val] = _
    rw [Vector.getElem_swap, Equiv.swap_apply_def]
    simp only [Fin.ext_iff]
    split
    · rfl
    · split <;> rfl
  rw [DenseMatrix.entry, row]
  rfl

/-- The rows that are exchanged for the pivot are that of the stage and one below. -/
theorem le_swap_pivotRow
    (rows : DenseMatrix K n (n + 1))
    {i k : Fin n}
    (notAbove : i ≤ k) :
    i ≤ Equiv.swap i (pivotRow rows i) k := by
  rw [Equiv.swap_apply_def]
  split
  · exact le_pivotRow rows i
  · split
    · exact le_rfl
    · exact notAbove

/-- So what is below an earlier row stays below it. -/
theorem lt_swap_pivotRow
    (rows : DenseMatrix K n (n + 1))
    {i j k : Fin n}
    (before : j < i)
    (below : j < k) :
    j < Equiv.swap i (pivotRow rows i) k := by
  rcases le_or_gt i k with notAbove | above
  · exact before.trans_le (le_swap_pivotRow rows notAbove)
  · have notBest : k ≠ pivotRow rows i := (above.trans_le (le_pivotRow rows i)).ne
    rwa [Equiv.swap_apply_of_ne_of_ne above.ne notBest]

/-- The row that is brought up wins over every row below it. -/
theorem ordered_wins
    [ComparesInLine K]
    (rows : DenseMatrix K n (n + 1))
    {i k : Fin n}
    (notAbove : i ≤ k) :
    Wins (fun k => Arithmetic.magnitude ((ordered rows i).entry k i.castSucc)) i k := by
  simp only [Wins, entry_ordered, Equiv.swap_apply_left]
  exact pivotRow_wins rows (le_swap_pivotRow rows notAbove)

/-- Clearing subtracts from a row below its multiple of the pivot row and leaves the others. -/
theorem entry_clearBelow
    (rows : DenseMatrix K n (n + 1))
    (i k : Fin n)
    (j : Fin (n + 1)) :
    (clearBelow rows i).entry k j =
      if i < k then
        if j.val < i.val then rows.entry k j
        else rows.entry k j - rows.entry k i.castSucc / rows.entry i i.castSucc * rows.entry i j
      else rows.entry k j := by
  simp only [DenseMatrix.entry, clearBelow, Exact.get_ofFn]
  split
  · rw [Exact.get_ofFn]
  · rfl

/-- An unknown is found from the later ones. -/
theorem unknown_congr
    (rows : DenseMatrix K n (n + 1))
    {x y : Vector K n}
    {i : Fin n}
    (later : ∀ k, i < k → x.get k = y.get k) :
    unknown rows x i = unknown rows y i := by
  have terms :
      (fun (total : K) (k : Fin n) =>
          if i < k then total + rows.entry i k.castSucc * x.get k else total) =
        fun total k =>
          if i < k then total + rows.entry i k.castSucc * y.get k else total := by
    funext total k
    split
    · rename_i below
      rw [later k below]
    · rfl
  rw [unknown, unknown, terms]

/-- Back substitution keeps what was known and finds each unknown from the later ones. -/
theorem get_backSubstitute
    (rows : DenseMatrix K n (n + 1))
    (count : Nat)
    (x : Vector K n) :
    (∀ j : Fin n, count ≤ j.val → (backSubstitute rows count x).get j = x.get j) ∧
      ∀ i : Fin n, i.val < count →
        (backSubstitute rows count x).get i = unknown rows (backSubstitute rows count x) i := by
  induction count generalizing x with
  | zero =>
      exact ⟨fun _ _ => rfl, fun i inside => absurd inside (Nat.not_lt_zero _)⟩
  | succ i inductionHypothesis =>
      rw [backSubstitute]
      split
      · rename_i inside
        generalize found : x.set i (unknown rows x ⟨i, inside⟩) = y
        have here : y.get ⟨i, inside⟩ = unknown rows x ⟨i, inside⟩ := by
          subst y
          exact Vector.getElem_set_self inside
        have elsewhere : ∀ j : Fin n, i < j.val → y.get j = x.get j := by
          intro j below
          subst y
          exact Vector.getElem_set_ne inside j.isLt (Nat.ne_of_lt below)
        obtain ⟨kept, solved⟩ := inductionHypothesis y
        constructor
        · intro j known
          rw [kept j (Nat.le_of_succ_le known), elsewhere j known]
        · intro k before
          rcases Nat.lt_or_eq_of_le (Nat.le_of_lt_succ before) with earlier | same
          · exact solved k earlier
          · obtain rfl : k = ⟨i, inside⟩ := Fin.ext same
            rw [kept ⟨i, inside⟩ le_rfl, here]
            apply unknown_congr
            intro j below
            rw [kept j (Nat.le_of_lt below), elsewhere j below]
      · -- Past the last row there is no unknown.
        rename_i outside
        obtain ⟨kept, solved⟩ := inductionHypothesis x
        constructor
        · intro j known
          exact kept j (Nat.le_of_succ_le known)
        · intro k before
          exact solved k (k.isLt.trans_le (Nat.le_of_not_lt outside))

end Rows

section Pivots

variable {K : Type} [Arithmetic K] {n : Nat}
variable {rows others next : DenseMatrix K n (n + 1)}

/-- Two tables of rows that differ in their right-hand sides at most. -/
def SameCoefficients (rows others : DenseMatrix K n (n + 1)) : Prop :=
  ∀ k j : Fin n, rows.entry k j.castSucc = others.entry k j.castSucc

/-- Rows with the same coefficients choose the same pivot. -/
theorem SameCoefficients.ordered
    (same : SameCoefficients rows others)
    (i : Fin n) :
    SameCoefficients (ordered rows i) (ordered others i) := by
  have pivots : pivotRow rows i = pivotRow others i := by
    simp only [pivotRow, same _ i]
  intro k j
  rw [entry_ordered, entry_ordered, pivots]
  exact same _ j

/-- Clearing a column treats the coefficients without regard to the right side. -/
theorem SameCoefficients.clearBelow
    (same : SameCoefficients rows others)
    (i : Fin n) :
    SameCoefficients (clearBelow rows i) (clearBelow others i) := by
  intro k j
  rw [entry_clearBelow, entry_clearBelow, same k j, same k i, same i i, same i j]

/-- A stage looks at the coefficients alone to accept its pivot. -/
theorem SameCoefficients.exists_stage
    (same : SameCoefficients rows others)
    {i : Fin n}
    (staged : stage rows i = .ok next) :
    ∃ following, stage others i = .ok following ∧ SameCoefficients next following := by
  have exchanged := same.ordered i
  rw [stage_eq] at staged
  split at staged
  · cases staged
  · rename_i tested
    cases staged
    rw [stage_eq, ← exchanged i i, if_neg tested]
    exact ⟨_, rfl, exchanged.clearBelow i⟩

/-- Whether elimination gets through depends on the coefficients only. -/
theorem SameCoefficients.exists_afterStages
    (same : SameCoefficients rows others)
    {count : Nat}
    (staged : afterStages rows count = .ok next) :
    ∃ following, afterStages others count = .ok following ∧ SameCoefficients next following := by
  induction count generalizing next with
  | zero =>
      cases staged
      exact ⟨others, rfl, same⟩
  | succ i inductionHypothesis =>
      rw [afterStages] at staged
      obtain ⟨reached, earlier, last⟩ := Outcome.bind_eq_ok_iff.mp staged
      obtain ⟨other, otherEarlier, reachedSame⟩ := inductionHypothesis earlier
      simp only [afterStages, Outcome.bind_eq_ok_iff, otherEarlier]
      split at last
      · rename_i inside
        obtain ⟨following, otherLast, nextSame⟩ := reachedSame.exists_stage last
        refine ⟨following, ⟨other, rfl, ?_⟩, nextSame⟩
        rw [dif_pos inside, otherLast]
      · rename_i outside
        cases last
        refine ⟨other, ⟨other, rfl, ?_⟩, reachedSame⟩
        rw [dif_neg outside]

/-- No stage of the elimination gives up on the pivots of the matrix. -/
def HasLargePivots (A : DenseMatrix K n n) : Prop :=
  ∃ b rows, afterStages (augmented A b) n = .ok rows

/-- The right-hand side has no influence on the pivots. -/
theorem HasLargePivots.exists_afterStages
    {A : DenseMatrix K n n}
    (pivots : HasLargePivots A)
    (b : Vector K n) :
    ∃ rows, afterStages (augmented A b) n = .ok rows := by
  obtain ⟨other, rows, staged⟩ := pivots
  have same : SameCoefficients (augmented A other) (augmented A b) := by
    intro k j
    rw [entry_augmented_castSucc, entry_augmented_castSucc]
  obtain ⟨following, reached, _⟩ := same.exists_afterStages staged
  exact ⟨following, reached⟩

end Pivots

section Solutions

variable {K : Type} [Field K] [LinearOrder K] {n : Nat}

/-- By how much the equation of a row is missed at a point. -/
def excess (rows : DenseMatrix K n (n + 1)) (x : Vector K n) (k : Fin n) : K :=
  ∑ j : Fin n, rows.entry k j.castSucc * x.get j - rows.entry k (Fin.last n)

/-- The point solves the equation of every row. -/
def Solves (rows : DenseMatrix K n (n + 1)) (x : Vector K n) : Prop :=
  ∀ k, excess rows x k = 0

/-- The first `count` columns are zero below the diagonal. -/
def IsReduced (rows : DenseMatrix K n (n + 1)) (count : Nat) : Prop :=
  ∀ k j : Fin n, j.val < count → j < k → rows.entry k j.castSucc = 0

variable {rows next : DenseMatrix K n (n + 1)}
variable {i : Fin n}
variable {x : Vector K n}

/-- Swapping rows swaps what they miss. -/
theorem excess_ordered (rows : DenseMatrix K n (n + 1)) (x : Vector K n) (i k : Fin n) :
    excess (ordered rows i) x k = excess rows x (Equiv.swap i (pivotRow rows i) k) := by
  simp only [excess, entry_ordered]

/-- Swapping rows keeps the solutions. -/
theorem solves_ordered_iff : Solves (ordered rows i) x ↔ Solves rows x := by
  simp only [Solves, excess_ordered]
  exact (Equiv.swap i (pivotRow rows i)).forall_congr_right (q := fun k => excess rows x k = 0)

/-- Neither of the exchanged rows is above the pivot, so the columns before it stay reduced. -/
theorem isReduced_ordered (reduced : IsReduced rows i.val) : IsReduced (ordered rows i) i.val := by
  intro k j before below
  rw [entry_ordered]
  exact reduced _ j before (lt_swap_pivotRow rows before below)

/-- How much of the pivot row is subtracted from a row. -/
def multiplier (rows : DenseMatrix K n (n + 1)) (i k : Fin n) : K :=
  if i < k then rows.entry k i.castSucc / rows.entry i i.castSucc else 0

/-- The pivot row is zero before its pivot, so all of it is subtracted. -/
theorem entry_clearBelow_of_isReduced
    (reduced : IsReduced rows i.val)
    (k : Fin n)
    (j : Fin (n + 1)) :
    (clearBelow rows i).entry k j = rows.entry k j - multiplier rows i k * rows.entry i j := by
  rw [entry_clearBelow, multiplier]
  split
  · split
    · rename_i before
      have zero : rows.entry i j = 0 := reduced i ⟨j.val, before.trans i.isLt⟩ before before
      rw [zero, mul_zero, sub_zero]
    · rfl
  · rw [zero_mul, sub_zero]

/-- Clearing subtracts a multiple of what the pivot row misses. -/
theorem excess_clearBelow
    (reduced : IsReduced rows i.val)
    (x : Vector K n)
    (k : Fin n) :
    excess (clearBelow rows i) x k = excess rows x k - multiplier rows i k * excess rows x i := by
  have sums :
      ∑ j : Fin n, (clearBelow rows i).entry k j.castSucc * x.get j =
        ∑ j : Fin n, rows.entry k j.castSucc * x.get j -
          multiplier rows i k * ∑ j : Fin n, rows.entry i j.castSucc * x.get j := by
    rw [Finset.mul_sum, ← Finset.sum_sub_distrib]
    apply Finset.sum_congr rfl
    intro j _
    rw [entry_clearBelow_of_isReduced reduced]
    ring
  rw [excess, sums, entry_clearBelow_of_isReduced reduced]
  unfold excess
  ring

/-- Subtracting multiples of a row that is kept changes no solution. -/
theorem solves_clearBelow_iff (reduced : IsReduced rows i.val) :
    Solves (clearBelow rows i) x ↔ Solves rows x := by
  have kept : multiplier rows i i = 0 := if_neg (lt_irrefl i)
  constructor
  · intro solves k
    have pivot := solves i
    rw [excess_clearBelow reduced, kept, zero_mul, sub_zero] at pivot
    have row := solves k
    rwa [excess_clearBelow reduced, pivot, mul_zero, sub_zero] at row
  · intro solves k
    rw [excess_clearBelow reduced, solves k, solves i, mul_zero, sub_zero]

/-- Clearing below a pivot other than zero reduces one more column. -/
theorem isReduced_clearBelow
    (reduced : IsReduced rows i.val)
    (nonzero : rows.entry i i.castSucc ≠ 0) :
    IsReduced (clearBelow rows i) (i.val + 1) := by
  intro k j before below
  rw [entry_clearBelow_of_isReduced reduced]
  rcases Nat.lt_or_eq_of_le (Nat.le_of_lt_succ before) with earlier | same
  · rw [reduced k j earlier below, reduced i j earlier earlier, mul_zero, sub_zero]
  · obtain rfl : j = i := Fin.ext same
    rw [multiplier, if_pos below, div_mul_cancel₀ _ nonzero, sub_self]

variable [IsStrictOrderedRing K]

/-- A pivot that passed its test is not zero. -/
theorem ne_zero_of_tested
    {pivot : K}
    (tested : Arithmetic.less (Arithmetic.magnitude pivot) pivotTolerance = false) :
    pivot ≠ 0 := by
  rintro rfl
  rw [Exact.less_eq_false_iff, Exact.magnitude_eq, abs_zero, pivotTolerance] at tested
  norm_num at tested

/-- A stage reduces one more column and keeps the solutions. -/
theorem isReduced_stage
    (reduced : IsReduced rows i.val)
    (staged : stage rows i = .ok next) :
    IsReduced next (i.val + 1) ∧ ∀ x, Solves next x ↔ Solves rows x := by
  have exchanged := isReduced_ordered reduced
  rw [stage_eq] at staged
  split at staged
  · cases staged
  · rename_i tested
    cases staged
    have nonzero := ne_zero_of_tested (Bool.eq_false_iff.mpr tested)
    exact ⟨isReduced_clearBelow exchanged nonzero,
      fun x => (solves_clearBelow_iff exchanged).trans solves_ordered_iff⟩

/-- The stages of an elimination reduce as many columns and keep the solutions. -/
theorem isReduced_afterStages
    {count : Nat}
    (staged : afterStages rows count = .ok next) :
    IsReduced next count ∧ ∀ x, Solves next x ↔ Solves rows x := by
  induction count generalizing next with
  | zero =>
      cases staged
      exact ⟨fun _ _ before => absurd before (Nat.not_lt_zero _), fun _ => Iff.rfl⟩
  | succ i inductionHypothesis =>
      rw [afterStages] at staged
      obtain ⟨reached, earlier, last⟩ := Outcome.bind_eq_ok_iff.mp staged
      obtain ⟨reduced, kept⟩ := inductionHypothesis earlier
      split at last
      · rename_i inside
        obtain ⟨nextReduced, nextKept⟩ := isReduced_stage (i := ⟨i, inside⟩) reduced last
        exact ⟨nextReduced, fun x => (nextKept x).trans (kept x)⟩
      · rename_i outside
        cases last
        refine ⟨fun k j _ below => reduced k j ?_ below, kept⟩
        exact j.isLt.trans_le (Nat.le_of_not_lt outside)

/-- An unknown takes what the later ones leave of the right-hand side. -/
theorem unknown_eq
    (rows : DenseMatrix K n (n + 1))
    (x : Vector K n)
    (i : Fin n) :
    unknown rows x i =
      (rows.entry i (Fin.last n) - ∑ k, if i < k then rows.entry i k.castSucc * x.get k else 0) /
        rows.entry i i.castSucc := by
  rw [unknown, Exact.ofScientific_zero, ← Exact.foldl_add_eq_sum]
  simp only [add_ite, add_zero]

/-- A reduced row is solved by the unknown that is found for it. -/
theorem excess_eq_zero_of_unknown
    (reduced : IsReduced rows n)
    (nonzero : rows.entry i i.castSucc ≠ 0)
    (found : x.get i = unknown rows x i) :
    excess rows x i = 0 := by
  have split (j : Fin n) :
      rows.entry i j.castSucc * x.get j =
        (if i = j then rows.entry i i.castSucc * x.get i else 0) +
          if i < j then rows.entry i j.castSucc * x.get j else 0 := by
    rcases lt_trichotomy i j with after | rfl | before
    · rw [if_neg after.ne, if_pos after, zero_add]
    · rw [if_pos rfl, if_neg (lt_irrefl i), add_zero]
    · rw [if_neg before.ne', if_neg before.not_gt, reduced i j j.isLt before, zero_mul, add_zero]
  have sum :
      ∑ j : Fin n, rows.entry i j.castSucc * x.get j =
        rows.entry i i.castSucc * x.get i +
          ∑ j, if i < j then rows.entry i j.castSucc * x.get j else 0 := by
    rw [Finset.sum_congr rfl fun j _ => split j, Finset.sum_add_distrib, Finset.sum_ite_eq,
      if_pos (Finset.mem_univ i)]
  rw [excess, sum, found, unknown_eq, mul_div_cancel₀ _ nonzero]
  ring

/-- Back substitution solves reduced rows with tested pivots. -/
theorem solves_backSubstitute
    (reduced : IsReduced rows n)
    (pivots : HasPivots rows n)
    (x : Vector K n) :
    Solves rows (backSubstitute rows n x) := by
  intro i
  have nonzero := ne_zero_of_tested (pivots i i.isLt)
  exact excess_eq_zero_of_unknown reduced nonzero
    ((get_backSubstitute rows n x).2 i i.isLt)

/-- The augmented rows are solved by the solutions of the linear system. -/
theorem solves_augmented_iff
    {A : DenseMatrix K n n}
    {b : Vector K n} :
    Solves (augmented A b) x ↔ A.apply x = b := by
  simp only [Solves, excess, entry_augmented_castSucc, entry_augmented_last, sub_eq_zero,
    ← Exact.get_apply]
  constructor
  · exact Exact.ext_get
  · rintro rfl k
    rfl

end Solutions

end Elimination

section LinearSystems

variable {K : Type} [Field K] [LinearOrder K]
variable {n : Nat}
variable {A : DenseMatrix K n n}

open Elimination

/-- A linear system that is solved at all has pivots above the tolerance. -/
theorem hasLargePivots_of_solveLinear
    {b x : Vector K n}
    (solved : solveLinear A b = .ok x) :
    HasLargePivots A := by
  rw [solveLinear, Exact.entriesFinite_eq, Exact.allFinite_eq, Bool.and_self, if_pos rfl] at solved
  obtain ⟨rows, staged, _⟩ := Outcome.bind_eq_ok_iff.mp solved
  exact ⟨b, rows, staged⟩

/-- A linear solve gives up on nothing but a small pivot. -/
theorem exists_smallPivot_of_solveLinear
    {b : Vector K n}
    {cause : Singular K}
    (gaveUp : solveLinear A b = .error cause) :
    ∃ pivot column, cause = .smallPivot pivot column := by
  rw [solveLinear, Exact.entriesFinite_eq, Exact.allFinite_eq, Bool.and_self, if_pos rfl] at gaveUp
  rcases Outcome.bind_eq_error_iff.mp gaveUp with stages | ⟨rows, _, filled⟩
  · exact exists_smallPivot_of_afterStages stages
  · dsimp only at filled
    rw [Exact.allFinite_eq, if_pos rfl] at filled
    cases filled

variable [IsStrictOrderedRing K]

/-- What a linear solve returns solves the system. -/
theorem apply_of_solveLinear
    {b x : Vector K n}
    (solved : solveLinear A b = .ok x) :
    A.apply x = b := by
  rw [solveLinear, Exact.entriesFinite_eq, Exact.allFinite_eq, Bool.and_self, if_pos rfl] at solved
  obtain ⟨rows, staged, filled⟩ := Outcome.bind_eq_ok_iff.mp solved
  dsimp only at filled
  rw [Exact.allFinite_eq, if_pos rfl] at filled
  cases filled
  obtain ⟨reduced, kept⟩ := isReduced_afterStages staged
  apply solves_augmented_iff.mp
  apply (kept _).mp
  exact solves_backSubstitute reduced (hasPivots_afterStages staged) _

/-- A matrix with large pivots is solved with every right-hand side. -/
theorem Elimination.HasLargePivots.exists_solution
    (pivots : HasLargePivots A)
    (b : Vector K n) :
    ∃ x, solveLinear A b = .ok x ∧ A.apply x = b := by
  obtain ⟨rows, staged⟩ := pivots.exists_afterStages b
  have solved : solveLinear A b = .ok (backSubstitute rows n (zeros n)) := by
    rw [solveLinear, Exact.entriesFinite_eq, Exact.allFinite_eq, Bool.and_self, if_pos rfl]
    apply Outcome.bind_eq_ok_iff.mpr
    exact ⟨rows, staged, if_pos (Exact.allFinite_eq _)⟩
  exact ⟨_, solved, apply_of_solveLinear solved⟩

/-- The entries of a matrix as a function of row and column. -/
def DenseMatrix.entries (A : DenseMatrix K n n) : Matrix (Fin n) (Fin n) K :=
  .of A.entry

/-- Applying a matrix is the library's product of a matrix and a vector. -/
theorem DenseMatrix.mulVec_entries (A : DenseMatrix K n n) (x : Vector K n) :
    A.entries.mulVec x.get = (A.apply x).get := by
  funext i
  rw [Exact.get_apply]
  rfl

/-- A matrix with large pivots is invertible. -/
theorem Elimination.HasLargePivots.isUnit_entries (pivots : HasLargePivots A) :
    IsUnit A.entries := by
  apply Matrix.mulVec_surjective_iff_isUnit.mp
  intro b
  obtain ⟨x, _, solves⟩ := pivots.exists_solution (Vector.ofFn b)
  refine ⟨x.get, ?_⟩
  rw [A.mulVec_entries, solves]
  funext i
  exact Exact.get_ofFn b i

/-- A system whose matrix has large pivots has no two solutions. -/
theorem Elimination.HasLargePivots.apply_injective
    (pivots : HasLargePivots A)
    {x y : Vector K n}
    (same : A.apply x = A.apply y) :
    x = y := by
  have injective := Matrix.mulVec_injective_iff_isUnit.mpr pivots.isUnit_entries
  have images : A.entries.mulVec x.get = A.entries.mulVec y.get := by
    rw [A.mulVec_entries, A.mulVec_entries, same]
  exact Exact.ext_get (congrFun (injective images))

/--
Elimination is correct: what it returns solves the system, whose matrix is then invertible, and it
does return where no pivot is small. So on a matrix that is not invertible it gives up.
-/
theorem solveLinear_isCorrect (A : DenseMatrix K n n) (b : Vector K n) :
    (∀ x, solveLinear A b = .ok x → IsUnit A.entries ∧ A.apply x = b) ∧
      (HasLargePivots A → ∃ x, solveLinear A b = .ok x) ∧
      (¬IsUnit A.entries → ∃ pivot column, solveLinear A b = .error (.smallPivot pivot column)) := by
  refine ⟨fun x solved => ?_, fun pivots => ?_, fun singular => ?_⟩
  · exact ⟨(hasLargePivots_of_solveLinear solved).isUnit_entries, apply_of_solveLinear solved⟩
  · obtain ⟨x, solved, _⟩ := pivots.exists_solution b
    exact ⟨x, solved⟩
  · cases outcome : solveLinear A b with
    | ok x => exact absurd (hasLargePivots_of_solveLinear outcome).isUnit_entries singular
    | error cause =>
        obtain ⟨pivot, column, rfl⟩ := exists_smallPivot_of_solveLinear outcome
        exact ⟨pivot, column, rfl⟩

/-- Two rows that have to change places are solved, and two that depend on each other are not. -/
theorem exchangedRows_solved_dependentRows_refused :
    (solveLinear (#v[#v[0, 1], #v[2, 1]] : DenseMatrix ℚ 2 2) #v[3, 1] = .ok #v[-1, 3] ∧
        IsUnit (DenseMatrix.entries (#v[#v[0, 1], #v[2, 1]] : DenseMatrix ℚ 2 2)) ∧
        DenseMatrix.apply (#v[#v[0, 1], #v[2, 1]] : DenseMatrix ℚ 2 2) #v[-1, 3] = #v[3, 1]) ∧
      ¬IsUnit (DenseMatrix.entries (#v[#v[1, 2], #v[2, 4]] : DenseMatrix ℚ 2 2)) ∧
      ∃ pivot column,
        solveLinear (#v[#v[1, 2], #v[2, 4]] : DenseMatrix ℚ 2 2) #v[1, 1] =
          .error (.smallPivot pivot column) := by
  have solved :
      solveLinear (#v[#v[0, 1], #v[2, 1]] : DenseMatrix ℚ 2 2) #v[3, 1] = .ok #v[-1, 3] := by
    decide +kernel
  have singular :
      ¬IsUnit (DenseMatrix.entries (#v[#v[1, 2], #v[2, 4]] : DenseMatrix ℚ 2 2)) := by
    rw [Matrix.isUnit_iff_isUnit_det, Matrix.det_fin_two, isUnit_iff_ne_zero]
    decide +kernel
  exact ⟨⟨solved, (solveLinear_isCorrect _ _).1 _ solved⟩, singular,
    (solveLinear_isCorrect _ _).2.2 singular⟩

end LinearSystems

end RootFinding
