import RootFinding.Proofs.Exact.Deviation

/-!
# The correction of least change

Many matrices take a displacement to the change of the residuals over it. Without rounding the
secant update goes on with the one among them that is nearest to the matrix before. It changes every
row along the displacement alone, so images of vectors that are orthogonal to the displacement stay
as they are. And the way from the old matrix to any other of these matrices is a right-angled
triangle: its squares are those of the correction and those of the rest of the way.
-/

namespace RootFinding

open scoped Exact
open DenseMatrix (deviation squares)

variable {K : Type} [Field K] [LinearOrder K]

namespace DenseMatrix

variable {m n : Nat}

/-- Two matrices deviate from each other equally. -/
theorem squares_deviation_comm (A B : DenseMatrix K m n) :
    squares (deviation A B) = squares (deviation B A) := by
  simp only [squares, entry_deviation]
  refine Finset.sum_congr rfl fun i _ => Finset.sum_congr rfl fun j _ => ?_
  ring

theorem squares_nonneg [IsStrictOrderedRing K] (A : DenseMatrix K m n) : 0 ≤ squares A :=
  Finset.sum_nonneg fun _ _ => Finset.sum_nonneg fun _ _ => sq_nonneg _

end DenseMatrix

namespace SecantUpdate

variable [IsStrictOrderedRing K]
variable {n : Nat}
variable {s y v : Vector K n}
variable (B : DenseMatrix K n n)

/-- The correction moves the image of a vector by its part along the step. -/
theorem get_apply_correction (s y v : Vector K n) (square : K) (i : Fin n) :
    ((correction B s y square).apply v).get i =
      (B.apply v).get i + (y.get i - (B.apply s).get i) * dot v s / square := by
  have terms (j : Fin n) :
      (correction B s y square).entry i j * v.get j =
        B.entry i j * v.get j +
          (y.get i - (B.apply s).get i) / square * (v.get j * s.get j) := by
    rw [entry_correction]
    ring
  rw [Exact.get_apply, Finset.sum_congr rfl fun j _ => terms j, Finset.sum_add_distrib,
    ← Finset.mul_sum, ← Exact.dot_eq_sum, ← Exact.get_apply]
  ring

/-- The corrected matrix takes the step to the change of the residuals. -/
theorem apply_correction_step (nonzero : dot s s ≠ 0) :
    (correction B s y (dot s s)).apply s = y := by
  apply Exact.ext_get
  intro i
  rw [get_apply_correction, mul_div_cancel_right₀ _ nonzero, add_sub_cancel]

/-- A correction does nothing to what is orthogonal to the step. -/
theorem apply_correction_of_orthogonal (orthogonal : dot v s = 0) (square : K) :
    (correction B s y square).apply v = B.apply v := by
  apply Exact.ext_get
  intro i
  rw [get_apply_correction, orthogonal, mul_zero, zero_div, add_zero]

/-- The correction is worth the square of what it makes good, relative to the length of the step. -/
theorem squares_change_correction (nonzero : dot s s ≠ 0) :
    squares (deviation (correction B s y (dot s s)) B) =
      dot (difference y (B.apply s)) (difference y (B.apply s)) / dot s s := by
  have row (i : Fin n) :
      ∑ j, (deviation (correction B s y (dot s s)) B).entry i j ^ 2 =
        (y.get i - (B.apply s).get i) ^ 2 / dot s s := by
    calc ∑ j, (deviation (correction B s y (dot s s)) B).entry i j ^ 2
        = ∑ j, ((y.get i - (B.apply s).get i) / dot s s) ^ 2 * s.get j ^ 2 := by
          refine Finset.sum_congr rfl fun j _ => ?_
          rw [DenseMatrix.entry_deviation, entry_correction]
          ring
      _ = ((y.get i - (B.apply s).get i) / dot s s) ^ 2 * dot s s := by
          rw [← Finset.mul_sum, ← Exact.dot_self_eq_sum]
      _ = (y.get i - (B.apply s).get i) ^ 2 / dot s s := by
          field_simp
  rw [squares, Finset.sum_congr rfl fun i _ => row i, ← Finset.sum_div,
    Exact.dot_self_eq_sum (difference y (B.apply s))]
  simp only [Exact.get_difference]

/-- The squares of the way to a matrix that meets the step: the correction, and the rest. -/
theorem squares_deviation_eq_add
    (nonzero : dot s s ≠ 0)
    {M : DenseMatrix K n n}
    (meets : M.apply s = y) :
    squares (deviation M B) =
      squares (deviation (correction B s y (dot s s)) B) +
        squares (deviation (correction B s y (dot s s)) M) := by
  have rest := squares_deviation_correction M B nonzero
  have missed :
      dot ((deviation B M).apply s) ((deviation B M).apply s) =
        dot (difference y (B.apply s)) (difference y (B.apply s)) := by
    have image (i : Fin n) : ((deviation B M).apply s).get i = (B.apply s).get i - y.get i := by
      rw [← meets]
      simp only [Exact.get_apply, DenseMatrix.entry_deviation, sub_mul, Finset.sum_sub_distrib]
    simp only [Exact.dot_self_eq_sum, image, Exact.get_difference, sub_sq_comm]
  rw [meets, missed] at rest
  rw [squares_change_correction B nonzero, rest, DenseMatrix.squares_deviation_comm M B]
  ring

/--
An update is skipped exactly if the square of the displacement is below its least value, and then
leaves the matrix alone. Otherwise it goes on with a matrix that takes the displacement to the change
of the residuals and every vector orthogonal to the displacement to the same image as before, and no
matrix that meets the displacement differs less from the one before.
-/
theorem between_isLeastChange
    (matrix : DenseMatrix K n n)
    (x previous fx fxPrevious : Vector K n) :
    let s := difference x previous
    let y := difference fx fxPrevious
    let update := between matrix x previous fx fxPrevious
    let next := update.apply matrix
    (update.isApplied = false ↔ dot s s < 1e-16) ∧
      (update.isApplied = false → next = matrix) ∧
      (update.isApplied = true →
        next.apply s = y ∧
          (∀ v, dot v s = 0 → next.apply v = matrix.apply v) ∧
          ∀ M : DenseMatrix K n n,
            M.apply s = y → squares (deviation next matrix) ≤ squares (deviation M matrix)) := by
  intro s y update next
  have applied_iff : update.isApplied = true ↔ leastSquare ≤ dot s s := isApplied_ofStep_iff
  refine ⟨?_, fun unused => apply_of_not_isApplied unused matrix, fun applied => ?_⟩
  · rw [← Bool.not_eq_true, applied_iff, not_le]
    rfl
  · have long := applied_iff.mp applied
    have nonzero : dot s s ≠ 0 := (leastSquare_pos.trans_le long).ne'
    have next_eq : next = correction matrix s y (dot s s) := by
      change (ofStep matrix s y).apply matrix = _
      rw [ofStep_eq, if_neg (not_lt.mpr long)]
      rfl
    rw [next_eq]
    refine ⟨apply_correction_step matrix nonzero, fun v orthogonal => ?_, fun M meets => ?_⟩
    · exact apply_correction_of_orthogonal matrix orthogonal _
    · rw [squares_deviation_eq_add matrix nonzero meets]
      exact le_add_of_nonneg_right (DenseMatrix.squares_nonneg _)

/--
Over the step (1, 2) the identity is corrected towards the change (3, 1), which no matrix meets at
less; over a step of a billionth it is left alone.
-/
theorem unitStep_changes_least :
    let B : DenseMatrix ℚ 2 2 := .identity 2
    let next : DenseMatrix ℚ 2 2 := #v[#v[7 / 5, 4 / 5], #v[-1 / 5, 3 / 5]]
    (between B #v[1, 2] #v[0, 0] #v[3, 1] #v[0, 0] = .corrected next ∧
        next.apply #v[1, 2] = #v[3, 1] ∧
        next.apply #v[2, -1] = B.apply #v[2, -1] ∧
        squares (deviation next B) = 1 ∧
        ∀ M : DenseMatrix ℚ 2 2, M.apply #v[1, 2] = #v[3, 1] → 1 ≤ squares (deviation M B)) ∧
      (between B #v[1e-9, 0] #v[0, 0] #v[3, 1] #v[0, 0]).apply B = B := by
  intro B next
  have corrected : between B #v[1, 2] #v[0, 0] #v[3, 1] #v[0, 0] = .corrected next := by
    decide +kernel
  have step : (difference #v[1, 2] #v[0, 0] : Vector ℚ 2) = #v[1, 2] := by decide +kernel
  have change : (difference #v[3, 1] #v[0, 0] : Vector ℚ 2) = #v[3, 1] := by decide +kernel
  have worth : squares (deviation next B) = 1 := by decide +kernel
  have least := between_isLeastChange B #v[1, 2] #v[0, 0] #v[3, 1] #v[0, 0]
  rw [corrected, step, change] at least
  obtain ⟨meets, kept, nearest⟩ := least.2.2 rfl
  have short := between_isLeastChange B #v[1e-9, 0] #v[0, 0] #v[3, 1] #v[0, 0]
  refine ⟨⟨corrected, meets, kept #v[2, -1] (by decide +kernel), worth, fun M meetsToo => ?_⟩, ?_⟩
  · rw [← worth]
    exact nearest M meetsToo
  · exact short.2.1 (short.1.mpr (by decide +kernel))

end SecantUpdate

end RootFinding
