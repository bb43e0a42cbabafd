import RootFinding.Linear.Elimination
import RootFinding.Proofs.Outcome

/-!
# Pivots of an elimination

The scan for the pivot row of a stage keeps the largest entry that it has seen, or the first one that
is unordered. The pivot row is never above the row of the stage, so a stage leaves the rows above it
alone. A pivot that passed its test therefore stays on the diagonal until the end, and the rows
that back substitution works on have tested pivots throughout.
-/

namespace RootFinding

/-- Comparisons that put all values but the unordered ones in a line. -/
class ComparesInLine (K : Type) [Arithmetic K] : Prop where
  less_asymm {a b : K} : Arithmetic.less a b = true → Arithmetic.less b a = false
  less_or_less {a b c : K} :
    Arithmetic.isUnordered b = false → Arithmetic.less a c = true →
      Arithmetic.less a b = true ∨ Arithmetic.less b c = true

namespace Elimination

section Scan

variable {K : Type} [Arithmetic K] {n : Nat} {size : Fin n → K} {best other last : Fin n}

/-- A row wins over another if it is unordered, or the other is neither unordered nor larger. -/
def Wins (size : Fin n → K) (best other : Fin n) : Prop :=
  Arithmetic.isUnordered (size best) = true ∨
    Arithmetic.isUnordered (size other) = false ∧ Arithmetic.less (size best) (size other) = false

/-- The best row after one more is looked at. -/
def better (size : Fin n → K) (i best k : Fin n) : Fin n :=
  if k ≤ i || Arithmetic.isUnordered (size best) then best
  else if Arithmetic.isUnordered (size k) || Arithmetic.less (size best) (size k) then k
  else best

variable [ComparesInLine K]

theorem Wins.refl (size : Fin n → K) (best : Fin n) : Wins size best best := by
  by_cases unordered : Arithmetic.isUnordered (size best) = true
  · exact .inl unordered
  · refine .inr ⟨Bool.eq_false_iff.mpr unordered, Bool.eq_false_iff.mpr fun less => ?_⟩
    have asymmetric := ComparesInLine.less_asymm less
    rw [less] at asymmetric
    cases asymmetric

/-- The search for a pivot may go on from its last winner. -/
theorem Wins.trans
    (wins : Wins size best other)
    (later : Wins size other last) :
    Wins size best last := by
  rcases wins with unordered | ⟨ordered, notLess⟩
  · exact .inl unordered
  · rcases later with unordered | ⟨lastOrdered, lastNotLess⟩
    · rw [ordered] at unordered
      cases unordered
    · refine .inr ⟨lastOrdered, Bool.eq_false_iff.mpr fun less => ?_⟩
      rcases ComparesInLine.less_or_less ordered less with less | less
      · rw [notLess] at less
        cases less
      · rw [lastNotLess] at less
        cases less

/-- The better row wins over the best one so far, and over the one that was looked at. -/
theorem better_wins (size : Fin n → K) (i best k : Fin n) :
    Wins size (better size i best k) best ∧ (i < k → Wins size (better size i best k) k) := by
  unfold better
  split
  · rename_i kept
    refine ⟨.refl size best, fun below => ?_⟩
    rw [Bool.or_eq_true, decide_eq_true_eq] at kept
    exact .inl (kept.resolve_left (Fin.not_le.mpr below))
  · rename_i looked
    simp only [Bool.or_eq_true, not_or, Bool.not_eq_true] at looked
    split
    · rename_i changed
      refine ⟨?_, fun _ => .refl size k⟩
      rcases Bool.or_eq_true_iff.mp changed with unordered | less
      · exact .inl unordered
      · exact .inr ⟨looked.2, ComparesInLine.less_asymm less⟩
    · rename_i kept
      rw [Bool.or_eq_true, not_or, Bool.not_eq_true, Bool.not_eq_true] at kept
      exact ⟨.refl size best, fun _ => .inr kept⟩

/-- No row that was looked at is lost sight of. -/
theorem foldl_better_wins
    (size : Fin n → K)
    (i first : Fin n)
    (looked : List (Fin n)) :
    Wins size (looked.foldl (better size i) first) first ∧
      ∀ k ∈ looked, i < k → Wins size (looked.foldl (better size i) first) k := by
  induction looked generalizing first with
  | nil => exact ⟨.refl size first, fun k member => by cases member⟩
  | cons next looked inductionHypothesis =>
      obtain ⟨overBest, overNext⟩ := better_wins size i first next
      obtain ⟨overBetter, overLater⟩ := inductionHypothesis (better size i first next)
      refine ⟨overBetter.trans overBest, fun k member below => ?_⟩
      rcases List.mem_cons.mp member with rfl | later
      · exact overBetter.trans (overNext below)
      · exact overLater k later below

/-- The pivot row wins over its own row and every row below. -/
theorem pivotRow_wins
    (rows : DenseMatrix K n (n + 1))
    {i k : Fin n}
    (notAbove : i ≤ k) :
    Wins (fun k => Arithmetic.magnitude (rows.entry k i.castSucc)) (pivotRow rows i) k := by
  have scan :
      pivotRow rows i =
        (List.finRange n).foldl
          (better (fun k => Arithmetic.magnitude (rows.entry k i.castSucc)) i) i := by
    rw [pivotRow, Fin.foldl_eq_finRange_foldl]
    rfl
  rw [scan]
  obtain ⟨overOwn, overBelow⟩ :=
    foldl_better_wins (fun k => Arithmetic.magnitude (rows.entry k i.castSucc)) i i
      (List.finRange n)
  rcases Fin.lt_or_eq_of_le notAbove with below | rfl
  · exact overBelow k (List.mem_finRange k) below
  · exact overOwn

end Scan

variable {K : Type} [Arithmetic K] {n : Nat}

/-- The pivot row is not above the row that it is brought to. -/
theorem le_pivotRow
    (rows : DenseMatrix K n (n + 1))
    (i : Fin n) :
    i ≤ pivotRow rows i := by
  unfold pivotRow
  rw [Fin.foldl_eq_finRange_foldl]
  apply List.foldlRecOn
  · exact Nat.le_refl _
  · intro best notAbove k _
    dsimp only
    split
    · exact notAbove
    · rename_i below
      split
      · simp only [Bool.or_eq_true, decide_eq_true_eq, not_or] at below
        exact Nat.le_of_lt (Fin.not_le.mp below.1)
      · exact notAbove

/-- The rows with the pivot row brought up. -/
def ordered (rows : DenseMatrix K n (n + 1)) (i : Fin n) : DenseMatrix K n (n + 1) :=
  rows.swap i.val (pivotRow rows i).val i.isLt (pivotRow rows i).isLt

/-- A stage either gives up on its pivot or clears the column under it. -/
theorem stage_eq
    (rows : DenseMatrix K n (n + 1))
    (i : Fin n) :
    stage rows i =
      if Arithmetic.less (Arithmetic.magnitude ((ordered rows i).entry i i.castSucc))
          pivotTolerance then
        .error (.smallPivot ((ordered rows i).entry i i.castSucc) i.val)
      else .ok (clearBelow (ordered rows i) i) :=
  rfl

/-- The pivot row comes from further down, so earlier rows stay where they are. -/
theorem get_ordered_of_lt
    (rows : DenseMatrix K n (n + 1))
    {i j : Fin n}
    (above : j < i) :
    (ordered rows i).get j = rows.get j := by
  have notBest : j.val ≠ (pivotRow rows i).val := by
    have reached := le_pivotRow rows i
    omega
  have notRow : j.val ≠ i.val := by
    omega
  change (ordered rows i)[j.val] = rows[j.val]
  unfold ordered
  exact Vector.getElem_swap_of_ne notRow notBest

/-- Clearing a column leaves the pivot row and all rows above it alone. -/
theorem get_clearBelow_of_le
    (rows : DenseMatrix K n (n + 1))
    {i j : Fin n}
    (notBelow : j ≤ i) :
    (clearBelow rows i).get j = rows.get j := by
  have kept : ¬i < j := by
    omega
  change (clearBelow rows i)[j.val] = rows.get j
  simp [clearBelow, kept]

/-- The first `count` diagonal entries have passed the test for pivots. -/
def HasPivots (rows : DenseMatrix K n (n + 1)) (count : Nat) : Prop :=
  ∀ i : Fin n, i.val < count →
    Arithmetic.less (Arithmetic.magnitude (rows.entry i i.castSucc)) pivotTolerance = false

/-- A stage adds its own pivot to the tested ones. -/
theorem hasPivots_stage
    {rows next : DenseMatrix K n (n + 1)}
    {i : Fin n}
    (before : HasPivots rows i.val)
    (staged : stage rows i = .ok next) :
    HasPivots next (i.val + 1) := by
  rw [stage_eq] at staged
  split at staged
  · cases staged
  · rename_i tested
    cases staged
    intro j inside
    have notBelow : j ≤ i := Nat.le_of_lt_succ inside
    rw [DenseMatrix.entry, get_clearBelow_of_le _ notBelow]
    rcases Nat.lt_or_eq_of_le notBelow with above | same
    · rw [get_ordered_of_lt rows above]
      exact before j above
    · have same : j = i := Fin.ext same
      subst j
      exact Bool.eq_false_iff.mpr tested

/-- The stages of an elimination leave tested pivots on the diagonal. -/
theorem hasPivots_afterStages
    {rows reached : DenseMatrix K n (n + 1)}
    {count : Nat}
    (staged : afterStages rows count = .ok reached) :
    HasPivots reached count := by
  induction count generalizing reached with
  | zero =>
      intro i inside
      exact absurd inside (Nat.not_lt_zero _)
  | succ i inductionHypothesis =>
      rw [afterStages] at staged
      obtain ⟨before, earlier, staged⟩ := Outcome.bind_eq_ok_iff.mp staged
      split at staged
      · rename_i inside
        exact hasPivots_stage (i := ⟨i, inside⟩) (inductionHypothesis earlier) staged
      · -- Past the last row there is nothing left to test.
        cases staged
        intro j _
        exact inductionHypothesis earlier j (by omega)

/-- The stages of an elimination give up on nothing but a small pivot. -/
theorem exists_smallPivot_of_afterStages
    {rows : DenseMatrix K n (n + 1)}
    {count : Nat}
    {cause : Singular K}
    (gaveUp : afterStages rows count = .error cause) :
    ∃ pivot column, cause = .smallPivot pivot column := by
  induction count with
  | zero =>
      cases gaveUp
  | succ i inductionHypothesis =>
      rw [afterStages] at gaveUp
      rcases Outcome.bind_eq_error_iff.mp gaveUp with earlier | ⟨reached, _, staged⟩
      · exact inductionHypothesis earlier
      · split at staged
        · rw [stage_eq] at staged
          split at staged
          · cases staged
            exact ⟨_, _, rfl⟩
          · cases staged
        · cases staged

end Elimination

/-- A linear solve gives up on its input only where some of it is not finite. -/
theorem not_finite_of_nonFiniteInput
    {K : Type}
    [Arithmetic K]
    {n : Nat}
    {A : DenseMatrix K n n}
    {b : Vector K n}
    (gaveUp : solveLinear A b = .error .nonFiniteInput) :
    A.entriesFinite = false ∨ allFinite b = false := by
  rw [← Bool.and_eq_false_iff, Bool.eq_false_iff]
  intro finite
  rw [solveLinear, if_pos finite] at gaveUp
  rcases Outcome.bind_eq_error_iff.mp gaveUp with stages | ⟨rows, _, filled⟩
  · obtain ⟨pivot, column, shape⟩ := Elimination.exists_smallPivot_of_afterStages stages
    cases shape
  · dsimp only at filled
    split at filled <;> cases filled

end RootFinding
