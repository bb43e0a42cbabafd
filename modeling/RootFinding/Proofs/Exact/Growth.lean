import Mathlib.Data.Fintype.Lattice
import RootFinding.Proofs.Exact.Elimination

/-!
# Growth of the entries

Without rounding the pivot of a stage is the largest entry that its column has left, so no multiplier
of the stage is larger than one, and no coefficient becomes larger than twice the largest one before
the stage. So the largest coefficient grows at most by a power of two with one factor for each stage.
-/

namespace RootFinding

open scoped Exact

namespace Exact

/-- The order of a field has no unordered values. -/
scoped instance comparesInLine
    {K : Type}
    [Field K]
    [LinearOrder K] :
    ComparesInLine K where
  less_asymm less := less_eq_false_iff.mpr (less_iff.mp less).le
  less_or_less {a b c} _ less := by
    rcases lt_or_ge a b with below | above
    · exact .inl (less_iff.mpr below)
    · exact .inr (less_iff.mpr (above.trans_lt (less_iff.mp less)))

end Exact

namespace Elimination

section Pivots

variable {K : Type} [Field K] [LinearOrder K] {n : Nat}
variable (rows : DenseMatrix K n (n + 1)) {i k : Fin n}

/-- No entry below the pivot is larger. -/
theorem abs_entry_ordered_le_pivot (notAbove : i ≤ k) :
    |(ordered rows i).entry k i.castSucc| ≤ |(ordered rows i).entry i i.castSucc| := by
  rcases ordered_wins rows notAbove with unordered | ⟨_, notLess⟩
  · rw [Exact.isUnordered_eq] at unordered
    cases unordered
  · exact Exact.less_eq_false_iff.mp notLess

variable [IsStrictOrderedRing K]

/-- No row is subtracted from another more than once. -/
theorem abs_multiplier_le_one (i k : Fin n) : |multiplier (ordered rows i) i k| ≤ 1 := by
  rw [multiplier]
  split
  · rename_i below
    rw [abs_div]
    exact div_le_one_of_le₀ (abs_entry_ordered_le_pivot rows below.le) (abs_nonneg _)
  · rw [abs_zero]
    exact zero_le_one

end Pivots

section Growth

variable {K : Type} [Field K] [LinearOrder K] {n : Nat}
variable {rows next : DenseMatrix K n (n + 1)} {i : Fin n} {bound : K}

/-- No coefficient is larger than a bound; the right-hand sides may be. -/
def CoefficientsWithin (rows : DenseMatrix K n (n + 1)) (bound : K) : Prop :=
  ∀ k j : Fin n, |rows.entry k j.castSucc| ≤ bound

/-- Swapping rows keeps the coefficients within their bound. -/
theorem coefficientsWithin_ordered
    (within : CoefficientsWithin rows bound)
    (i : Fin n) :
    CoefficientsWithin (ordered rows i) bound := by
  intro k j
  rw [entry_ordered]
  exact within _ j

variable [IsStrictOrderedRing K]

/-- A multiple of the pivot row at most doubles the bound. -/
theorem coefficientsWithin_clearBelow
    (within : CoefficientsWithin rows bound)
    (small : ∀ k, |multiplier rows i k| ≤ 1) :
    CoefficientsWithin (clearBelow rows i) (2 * bound) := by
  intro k j
  have here := within k j
  have nonneg : 0 ≤ bound := (abs_nonneg _).trans here
  rw [entry_clearBelow]
  split
  · split
    · linarith
    · rename_i below _
      have factor := small k
      rw [multiplier, if_pos below] at factor
      calc
        |rows.entry k j.castSucc -
              rows.entry k i.castSucc / rows.entry i i.castSucc * rows.entry i j.castSucc| ≤
            |rows.entry k j.castSucc| +
              |rows.entry k i.castSucc / rows.entry i i.castSucc * rows.entry i j.castSucc| :=
          abs_sub _ _
        _ ≤ bound + 1 * bound := by
          rw [abs_mul]
          exact add_le_add here (mul_le_mul factor (within i j) (abs_nonneg _) zero_le_one)
        _ = 2 * bound := by ring
  · linarith

/-- One stage at most doubles the bound on the coefficients. -/
theorem coefficientsWithin_stage
    (within : CoefficientsWithin rows bound)
    (staged : stage rows i = .ok next) :
    CoefficientsWithin next (2 * bound) := by
  rw [stage_eq] at staged
  split at staged
  · cases staged
  · cases staged
    exact coefficientsWithin_clearBelow (coefficientsWithin_ordered within i)
      (abs_multiplier_le_one rows i)

/-- Each stage at most doubles the bound. -/
theorem coefficientsWithin_afterStages
    (within : CoefficientsWithin rows bound)
    {count : Nat}
    (staged : afterStages rows count = .ok next) :
    CoefficientsWithin next (2 ^ count * bound) := by
  induction count generalizing next with
  | zero =>
      cases staged
      simpa using within
  | succ i inductionHypothesis =>
      rw [afterStages] at staged
      obtain ⟨reached, earlier, last⟩ := Outcome.bind_eq_ok_iff.mp staged
      have reachedWithin := inductionHypothesis earlier
      rw [pow_succ', mul_assoc]
      split at last
      · exact coefficientsWithin_stage reachedWithin last
      · -- Past the last row nothing is subtracted any more.
        cases last
        intro k j
        have here := reachedWithin k j
        linarith [(abs_nonneg _).trans here]

omit [IsStrictOrderedRing K] in
/-- The largest entry of a matrix bounds the coefficients. -/
theorem exists_coefficientsWithin
    (A : DenseMatrix K n n)
    (b : Vector K n)
    (i : Fin n) :
    ∃ row column, CoefficientsWithin (augmented A b) |A.entry row column| := by
  have : Nonempty (Fin n × Fin n) := ⟨(i, i)⟩
  obtain ⟨place, largest⟩ := Finite.exists_max fun place : Fin n × Fin n => |A.entry place.1 place.2|
  refine ⟨place.1, place.2, fun k j => ?_⟩
  rw [entry_augmented_castSucc]
  exact largest (k, j)

/--
Partial pivoting keeps an elimination in bounds: in every stage that is done no multiplier is larger
than one, the coefficients have grown at most by a factor of two for each stage so far, the columns
up to that of the stage are zero below the diagonal, and the rows have the solutions of the system.
-/
theorem stage_keepsBounds
    {A : DenseMatrix K n n}
    {b : Vector K n}
    {i : Fin n}
    {before after : DenseMatrix K n (n + 1)}
    (reached : afterStages (augmented A b) i.val = .ok before)
    (staged : stage before i = .ok after) :
    (∀ k, |multiplier (ordered before i) i k| ≤ 1) ∧
      (∃ row column, ∀ k j : Fin n,
        |after.entry k j.castSucc| ≤ 2 ^ (i.val + 1) * |A.entry row column|) ∧
      (∀ k j : Fin n, j ≤ i → j < k → after.entry k j.castSucc = 0) ∧
      ∀ x, Solves after x ↔ A.apply x = b := by
  have done : afterStages (augmented A b) (i.val + 1) = .ok after := by
    rw [afterStages, reached, Outcome.ok_bind, dif_pos i.isLt]
    exact staged
  obtain ⟨reduced, kept⟩ := isReduced_afterStages done
  obtain ⟨row, column, within⟩ := exists_coefficientsWithin A b i
  refine ⟨abs_multiplier_le_one before i, ⟨row, column, ?_⟩, ?_, ?_⟩
  · exact coefficientsWithin_afterStages within done
  · intro k j notLater below
    exact reduced k j (Nat.lt_succ_of_le notLater) below
  · intro x
    exact (kept x).trans solves_augmented_iff

/-- A matrix whose elimination doubles its largest entry in each stage but the last. -/
def doubling : DenseMatrix ℚ 3 3 :=
  #v[#v[1, 0, 1], #v[-1, 1, 1], #v[-1, -1, 1]]

def doubledOnce : DenseMatrix ℚ 3 4 :=
  #v[#v[1, 0, 1, 1], #v[0, 1, 2, 2], #v[0, -1, 2, 2]]

def doubledTwice : DenseMatrix ℚ 3 4 :=
  #v[#v[1, 0, 1, 1], #v[0, 1, 2, 2], #v[0, 0, 4, 4]]

/-- Two stages make a four of ones, so the bound is reached. -/
theorem doubling_keepsBounds :
    afterStages (augmented doubling #v[1, 1, 1]) 1 = .ok doubledOnce ∧
      stage doubledOnce 1 = .ok doubledTwice ∧
      (∀ k, |multiplier (ordered doubledOnce 1) 1 k| ≤ 1) ∧
      (∃ row column, ∀ k j : Fin 3,
        |doubledTwice.entry k j.castSucc| ≤ 2 ^ 2 * |doubling.entry row column|) ∧
      (∀ k j : Fin 3, j ≤ 1 → j < k → doubledTwice.entry k j.castSucc = 0) ∧
      ∀ x, Solves doubledTwice x ↔ doubling.apply x = #v[1, 1, 1] := by
  have reached : afterStages (augmented doubling #v[1, 1, 1]) 1 = .ok doubledOnce := by
    decide +kernel
  have staged : stage doubledOnce 1 = .ok doubledTwice := by
    decide +kernel
  exact ⟨reached, staged, stage_keepsBounds reached staged⟩

end Growth

end Elimination

end RootFinding
