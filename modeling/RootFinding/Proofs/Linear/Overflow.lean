import RootFinding.Proofs.Double.Within
import RootFinding.Proofs.Exact.Elimination

/-!
# Overflow in an elimination

A linear solve tests its input and its solution for finiteness, but not the rows in between. An entry
that overflows is never finite again, and its column keeps one that is not. Back substitution
shows it in the solution, unless it is an infinite pivot: a number divided by that is zero, which
passes the test. Below a finite pivot nothing overflows, because the pivot is the largest entry.
-/

namespace RootFinding

namespace Double

instance comparesInLine : ComparesInLine Float where
  less_asymm {a b} less := by
    rw [Bool.eq_false_iff]
    exact fun greater => (exact_lt_of_less less).asymm (exact_lt_of_less greater)
  less_or_less {a b c} ordered less := by
    have defined : value b ≠ .notANumber :=
      fun undefined => isUnordered_eq_false_iff.mp ordered ⟨undefined⟩
    have lastDefined : value c ≠ .notANumber := by
      intro undefined
      rw [IsUndefined.not_greater a ⟨undefined⟩] at less
      cases less
    rw [less_iff_exact_lt defined, less_iff_exact_lt lastDefined]
    exact (lt_or_ge (exact a) (exact b)).imp id fun notAbove =>
      notAbove.trans_lt (exact_lt_of_less less)

end Double

namespace Elimination

open Double

variable {n : Nat}

section Columns

variable {rows reached last : DenseMatrix Float n (n + 1)} {i : Fin n} {j : Fin (n + 1)}

/-- All entries of a column are finite. -/
def ColumnFinite (rows : DenseMatrix Float n (n + 1)) (j : Fin (n + 1)) : Prop :=
  ∀ k, Arithmetic.isFinite (rows.entry k j) = true

/-- Swapping rows makes no column finite that was not. -/
theorem columnFinite_of_ordered (after : ColumnFinite (ordered rows i) j) :
    ColumnFinite rows j := by
  intro k
  have exchanged := after (Equiv.swap i (pivotRow rows i) k)
  rwa [entry_ordered, Equiv.swap_apply_self] at exchanged

/-- Clearing makes no column finite that was not. -/
theorem columnFinite_of_clearBelow (after : ColumnFinite (clearBelow rows i) j) :
    ColumnFinite rows j := by
  intro k
  have cleared := after k
  rw [entry_clearBelow] at cleared
  split at cleared
  · split at cleared
    · exact cleared
    · exact (isFinite_of_sub cleared).1
  · exact cleared

/-- A stage makes no column finite. -/
theorem columnFinite_of_stage
    (staged : stage rows i = .ok reached)
    (after : ColumnFinite reached j) :
    ColumnFinite rows j := by
  rw [stage_eq] at staged
  split at staged
  · cases staged
  · cases staged
    exact columnFinite_of_ordered (columnFinite_of_clearBelow after)

/-- Nor does any number of them. -/
theorem columnFinite_of_afterStages
    {count total : Nat}
    (earlier : count ≤ total)
    (staged : afterStages rows count = .ok reached)
    (finished : afterStages rows total = .ok last)
    (after : ColumnFinite last j) :
    ColumnFinite reached j := by
  induction total, earlier using Nat.le_induction generalizing last with
  | base =>
      cases staged.symm.trans finished
      exact after
  | succ total _ inductionHypothesis =>
      rw [afterStages] at finished
      obtain ⟨before, beforeStaged, stepped⟩ := Outcome.bind_eq_ok_iff.mp finished
      refine inductionHypothesis beforeStaged ?_
      split at stepped
      · exact columnFinite_of_stage stepped after
      · cases stepped
        exact after

end Columns

section Below

variable {rows next reached : DenseMatrix Float n (n + 1)} {i : Fin n}

/-- In the first `count` columns the entries below a finite pivot are finite. -/
def FiniteBelow (rows : DenseMatrix Float n (n + 1)) (count : Nat) : Prop :=
  ∀ k j : Fin n, j.val < count → j < k →
    Arithmetic.isFinite (rows.entry j j.castSucc) = true →
      Arithmetic.isFinite (rows.entry k j.castSucc) = true

/-- Swapping rows keeps the part below finite. -/
theorem finiteBelow_ordered (before : FiniteBelow rows i.val) :
    FiniteBelow (ordered rows i) i.val := by
  intro k j earlier below pivot
  rw [DenseMatrix.entry, get_ordered_of_lt rows earlier] at pivot
  rw [entry_ordered]
  exact before _ j earlier (lt_swap_pivotRow rows earlier below) pivot

/-- A tested pivot is not a zero. -/
theorem not_isZero_of_tested
    {pivot : Float}
    (tested : Arithmetic.less (Arithmetic.magnitude pivot) pivotTolerance = false) :
    ¬IsZero pivot := by
  rintro ⟨sign, zero⟩
  have small : Arithmetic.less (Arithmetic.magnitude pivot) pivotTolerance = true :=
    less_of_zero (value_magnitude_of_zero zero) (by decide +kernel)
  rw [tested] at small
  cases small

/-- A finite pivot is the largest entry of what is left of its column, and leaves it finite. -/
theorem finiteBelow_clearBelow
    (before : FiniteBelow rows i.val)
    (tested :
      Arithmetic.less (Arithmetic.magnitude (rows.entry i i.castSucc)) pivotTolerance = false)
    (wins : ∀ k, i < k → Wins (fun k => Arithmetic.magnitude (rows.entry k i.castSucc)) i k) :
    FiniteBelow (clearBelow rows i) (i.val + 1) := by
  intro k j inside below pivot
  have notBelow : ¬i < j := Nat.not_lt.mpr (Nat.le_of_lt_succ inside)
  rw [entry_clearBelow, if_neg notBelow] at pivot
  rw [entry_clearBelow]
  rcases Nat.lt_or_eq_of_le (Nat.le_of_lt_succ inside) with earlier | same
  · have kept : j.castSucc.val < i.val := earlier
    simp only [kept, ↓reduceIte, ite_self]
    exact before k j earlier below pivot
  · obtain rfl : j = i := Fin.ext same
    have here : ¬j.castSucc.val < j.val := Nat.lt_irrefl _
    rw [if_pos below, if_neg here]
    rcases wins k below with unordered | ⟨ordered, notLess⟩
    · rw [isUnordered_magnitude_of_isFinite pivot] at unordered
      cases unordered
    · have finite := isFinite_of_not_less_magnitude pivot ordered notLess
      exact isFinite_sub_div_mul finite pivot (not_isZero_of_tested tested) notLess

/-- A stage adds its own column to those in which a finite pivot vouches for the rest. -/
theorem finiteBelow_stage
    (before : FiniteBelow rows i.val)
    (staged : stage rows i = .ok next) :
    FiniteBelow next (i.val + 1) := by
  rw [stage_eq] at staged
  split at staged
  · cases staged
  · rename_i tested
    cases staged
    exact finiteBelow_clearBelow (finiteBelow_ordered before) (Bool.eq_false_iff.mpr tested)
      fun k below => ordered_wins rows below.le

/-- So it is after any number of stages. -/
theorem finiteBelow_afterStages
    {count : Nat}
    (staged : afterStages rows count = .ok reached) :
    FiniteBelow reached count := by
  induction count generalizing reached with
  | zero =>
      intro k j inside
      exact absurd inside (Nat.not_lt_zero _)
  | succ i inductionHypothesis =>
      rw [afterStages] at staged
      obtain ⟨before, earlier, staged⟩ := Outcome.bind_eq_ok_iff.mp staged
      split at staged
      · rename_i inside
        exact finiteBelow_stage (i := ⟨i, inside⟩) (inductionHypothesis earlier) staged
      · -- Past the last row there is no pivot.
        rename_i outside
        cases staged
        intro k j _
        exact inductionHypothesis earlier k j (j.isLt.trans_le (Nat.le_of_not_lt outside))

end Below

section Substitution

variable {rows : DenseMatrix Float n (n + 1)} {x : Vector Float n} {i : Fin n}

/-- A finite sum has finite terms. -/
theorem isFinite_of_foldl
    {term : Fin n → Float}
    {chosen : Fin n → Prop}
    [DecidablePred chosen]
    {items : List (Fin n)}
    {start : Float}
    (finite :
      Arithmetic.isFinite
        (items.foldl (fun total k => if chosen k then total + term k else total) start) = true) :
    Arithmetic.isFinite start = true ∧
      ∀ k ∈ items, chosen k → Arithmetic.isFinite (term k) = true := by
  induction items generalizing start with
  | nil => exact ⟨finite, fun k member => by cases member⟩
  | cons item items inductionHypothesis =>
      obtain ⟨first, later⟩ := inductionHypothesis finite
      dsimp only at first
      split at first
      · obtain ⟨started, here⟩ := isFinite_of_add first
        refine ⟨started, fun k member isChosen => ?_⟩
        rcases List.mem_cons.mp member with rfl | among
        · exact here
        · exact later k among isChosen
      · rename_i passed
        refine ⟨first, fun k member isChosen => ?_⟩
        rcases List.mem_cons.mp member with rfl | among
        · exact absurd isChosen passed
        · exact later k among isChosen

/-- Right of the pivot, the row of a finite unknown is finite. -/
theorem row_of_isFinite_unknown
    (finite : Arithmetic.isFinite (unknown rows x i) = true)
    {j : Fin (n + 1)}
    (behind : i.val < j.val) :
    Arithmetic.isFinite (rows.entry i j) = true := by
  rw [unknown] at finite
  obtain ⟨right, known⟩ := isFinite_of_sub (isFinite_of_div finite)
  rw [Fin.foldl_eq_finRange_foldl] at known
  cases j using Fin.lastCases with
  | last => exact right
  | cast k =>
      exact isFinite_left_of_mul ((isFinite_of_foldl known).2 k (List.mem_finRange k) behind)

end Substitution

end Elimination

open Elimination Double

/-- The unknowns of a solved system are finite, and each of them is found from the later ones. -/
theorem exists_rows_of_solveLinear
    {K : Type}
    [Arithmetic K]
    {n : Nat}
    {A : DenseMatrix K n n}
    {b x : Vector K n}
    (solved : solveLinear A b = .ok x) :
    ∃ rows, afterStages (augmented A b) n = .ok rows ∧
      ∀ i, x.get i = unknown rows x i ∧ Arithmetic.isFinite (x.get i) = true := by
  rw [solveLinear] at solved
  split at solved
  · obtain ⟨rows, staged, filled⟩ := Outcome.bind_eq_ok_iff.mp solved
    dsimp only at filled
    split at filled
    · rename_i finite
      cases filled
      refine ⟨rows, staged, fun i => ⟨(get_backSubstitute rows n _).2 i i.isLt, ?_⟩⟩
      exact (allFinite_iff _).mp finite _ (Vector.getElem_mem i.isLt)
    · cases filled
  · cases solved

/--
A linear solve that returns has hidden no overflow but that of pivots: whatever entry was not finite
at some stage, its column ends with an infinite pivot, and the unknown of that column is a zero. In
particular the right-hand sides never overflowed, and all rows ended finite right of the pivots.
-/
theorem solveLinear_hidesInfinitePivots
    {n : Nat}
    {A : DenseMatrix Float n n}
    {b x : Vector Float n}
    (solved : solveLinear A b = .ok x) :
    ∃ rows, afterStages (augmented A b) n = .ok rows ∧
      (∀ (i : Fin n) (j : Fin (n + 1)), i.val < j.val →
        Arithmetic.isFinite (rows.entry i j) = true) ∧
      ∀ count ≤ n, ∀ reached, afterStages (augmented A b) count = .ok reached →
        ∀ k j, Arithmetic.isFinite (reached.entry k j) = false →
          ∃ i : Fin n, j = i.castSucc ∧
            IsInfinite (rows.entry i i.castSucc) ∧ IsZero (x.get i) := by
  obtain ⟨rows, staged, unknowns⟩ := exists_rows_of_solveLinear solved
  have finite (i : Fin n) : Arithmetic.isFinite (unknown rows x i) = true := by
    rw [← (unknowns i).1]
    exact (unknowns i).2
  refine ⟨rows, staged, fun i j behind => row_of_isFinite_unknown (finite i) behind, ?_⟩
  intro count inside reached reachedStaged k j overflowed
  -- The column keeps an entry that is not finite, which is the pivot or below it.
  have notColumn : ¬ColumnFinite rows j := by
    intro column
    have stillFinite := columnFinite_of_afterStages inside reachedStaged staged column k
    rw [overflowed] at stillFinite
    cases stillFinite
  obtain ⟨row, notFinite⟩ := not_forall.mp notColumn
  cases j using Fin.lastCases with
  | last => exact absurd (row_of_isFinite_unknown (finite row) row.isLt) notFinite
  | cast i =>
      have pivot : Arithmetic.isFinite (rows.entry i i.castSucc) = false := by
        rw [Bool.eq_false_iff]
        intro pivotFinite
        rcases lt_trichotomy row i with behind | rfl | below
        · exact notFinite (row_of_isFinite_unknown (finite row) behind)
        · exact notFinite pivotFinite
        · exact notFinite (finiteBelow_afterStages staged row i i.isLt below pivotFinite)
      have hidden := isZero_div_of_isFinite (finite i) pivot
      refine ⟨i, rfl, hidden.1, ?_⟩
      rw [(unknowns i).1]
      exact hidden.2

/-- A small system whose second pivot is the sum of two large coefficients. -/
def steep : DenseMatrix Float 2 2 :=
  #v[#v[1.0, 1.7e308], #v[-1.0, 1.7e308]]

/-- The second pivot of the steep matrix overflows. -/
theorem exists_overflow_steep :
    ∃ reached, afterStages (augmented steep #v[1.0, 1.0]) 1 = .ok reached ∧
      Arithmetic.isFinite (reached.entry 1 1) = false := by
  have overflows :
      ((afterStages (augmented steep #v[1.0, 1.0]) 1).toOption.any fun reached =>
        !Arithmetic.isFinite (reached.entry 1 1)) = true := by
    decide +kernel
  cases staged : afterStages (augmented steep #v[1.0, 1.0]) 1 with
  | error cause =>
      rw [staged] at overflows
      cases overflows
  | ok reached =>
      rw [staged] at overflows
      exact ⟨reached, rfl, (Bool.not_eq_true' _).mp overflows⟩

/-- The steep system is solved all the same. -/
theorem exists_solution_steep : ∃ x, solveLinear steep #v[1.0, 1.0] = .ok x :=
  Outcome.exists_of_isOk (by decide +kernel)

/-- Its second unknown is a zero for no other reason than the overflow of the pivot. -/
theorem steep_hidesInfinitePivot :
    ∃ x rows, solveLinear steep #v[1.0, 1.0] = .ok x ∧
      afterStages (augmented steep #v[1.0, 1.0]) 2 = .ok rows ∧
        IsInfinite (rows.entry 1 1) ∧ IsZero (x.get 1) := by
  obtain ⟨x, solved⟩ := exists_solution_steep
  obtain ⟨reached, staged, overflowed⟩ := exists_overflow_steep
  obtain ⟨rows, finished, _, hidden⟩ := solveLinear_hidesInfinitePivots solved
  obtain ⟨i, same, infinite, zero⟩ := hidden 1 (by decide) reached staged 1 1 overflowed
  obtain rfl : 1 = i := Fin.castSucc_injective 2 same
  exact ⟨x, rows, solved, finished, infinite, zero⟩

/-- So a solve can return although an entry has overflowed on the way. -/
theorem steep_returnsAfterOverflow :
    ¬∀ (n : Nat) (A : DenseMatrix Float n n) (b x : Vector Float n),
        solveLinear A b = .ok x →
          ∀ count rows, afterStages (augmented A b) count = .ok rows →
            ∀ k j, Arithmetic.isFinite (rows.entry k j) = true := by
  intro finite
  obtain ⟨x, solved⟩ := exists_solution_steep
  obtain ⟨reached, staged, overflowed⟩ := exists_overflow_steep
  have notOverflowed := finite 2 steep #v[1.0, 1.0] x solved 1 reached staged 1 1
  rw [overflowed] at notOverflowed
  cases notOverflowed

end RootFinding
