import Mathlib.Tactic.FieldSimp
import RootFinding.Proofs.Exact.Affine
import RootFinding.Proofs.Exact.Norm
import RootFinding.Proofs.Iteration.Learning

/-!
# Bounded deterioration

On an affine system the residuals change over a displacement by its image under the matrix of the
system. So a correction of the approximate Jacobian takes from every row of its deviation the part
along the displacement, and the sum of the squares of the deviation drops by what these parts were
worth. Nothing else changes the matrix in a run, except that it is set back to the identity where a
linear solve gives up.
-/

namespace RootFinding

open scoped Exact

namespace DenseMatrix

variable {K : Type} [Field K] [LinearOrder K] {m n : Nat}

/-- By how much the entries of a matrix differ from those of another. -/
def deviation (B A : DenseMatrix K m n) : DenseMatrix K m n :=
  Vector.ofFn fun i => Vector.ofFn fun j => B.entry i j - A.entry i j

/-- The sum of the squares of the entries. -/
def squares (A : DenseMatrix K m n) : K :=
  ∑ i, ∑ j, A.entry i j ^ 2

@[simp]
theorem entry_deviation (B A : DenseMatrix K m n) (i : Fin m) (j : Fin n) :
    (deviation B A).entry i j = B.entry i j - A.entry i j := by
  rw [entry, deviation, Exact.get_ofFn, Exact.get_ofFn]

/--
From one matrix to the next the squares of the deviation from `A` drop by the square of what the
deviation makes of `s`, relative to the length of `s`.
-/
def DropsAlong (s : Vector ℝ n) (A before after : DenseMatrix ℝ m n) : Prop :=
  squares (deviation after A) =
    squares (deviation before A) -
      euclideanNorm ((deviation before A).apply s) ^ 2 / euclideanNorm s ^ 2

/-- A drop along a direction lowers the deviation, or keeps it. -/
theorem DropsAlong.squares_le
    {s : Vector ℝ n}
    {A before after : DenseMatrix ℝ m n}
    (drops : DropsAlong s A before after) :
    squares (deviation after A) ≤ squares (deviation before A) := by
  rw [DropsAlong] at drops
  rw [drops]
  exact sub_le_self _ (div_nonneg (sq_nonneg _) (sq_nonneg _))

end DenseMatrix

open DenseMatrix (deviation squares DropsAlong)

/-- A row without its part along `s` has its squares reduced by what the part was worth. -/
theorem sum_sq_sub_part
    {K : Type}
    [Field K]
    {n : Nat}
    (row s : Fin n → K)
    (nonzero : ∑ j, s j ^ 2 ≠ 0) :
    ∑ j, (row j - (∑ k, row k * s k) * s j / ∑ k, s k ^ 2) ^ 2 =
      ∑ j, row j ^ 2 - (∑ j, row j * s j) ^ 2 / ∑ j, s j ^ 2 := by
  generalize square : ∑ j, s j ^ 2 = q at nonzero ⊢
  generalize image : ∑ j, row j * s j = t
  have terms (j : Fin n) :
      (row j - t * s j / q) ^ 2 =
        row j ^ 2 - 2 * t / q * (row j * s j) + (t / q) ^ 2 * s j ^ 2 := by
    ring
  calc ∑ j, (row j - t * s j / q) ^ 2
      = ∑ j, row j ^ 2 - 2 * t / q * t + (t / q) ^ 2 * q := by
        simp only [terms, Finset.sum_add_distrib, Finset.sum_sub_distrib, ← Finset.mul_sum, image,
          square]
    _ = ∑ j, row j ^ 2 - t ^ 2 / q := by
        field_simp
        ring

namespace SecantUpdate

variable {n : Nat}

section Field

variable {K : Type} [Field K] [LinearOrder K]

/-- Without rounding nothing is ever reset. -/
theorem ofStep_eq (matrix : DenseMatrix K n n) (s y : Vector K n) :
    ofStep matrix s y =
      if dot s s < leastSquare then .skipped
      else .corrected (correction matrix s y (dot s s)) := by
  simp only [ofStep, Exact.less_iff, Exact.entriesFinite_eq, if_true]

/-- An update is applied just when the step is long enough. -/
theorem isApplied_ofStep_iff
    {matrix : DenseMatrix K n n}
    {s y : Vector K n} :
    (ofStep matrix s y).isApplied = true ↔ leastSquare ≤ dot s s := by
  rw [ofStep_eq, ← not_lt]
  split
  · simp [isApplied, *]
  · simp [isApplied, *]

/-- An update is applied just when its two points are far enough apart. -/
theorem isApplied_betweenPoints_iff
    {system : ExpressionSystem K n n}
    {matrix : DenseMatrix K n n}
    {x previous : Vector K n} :
    (betweenPoints system matrix x previous).isApplied = true ↔
      leastSquare ≤ dot (difference x previous) (difference x previous) :=
  isApplied_ofStep_iff

/-- A correction adds the missed residual times the step, over the square of the step. -/
@[simp]
theorem entry_correction
    (matrix : DenseMatrix K n n)
    (s y : Vector K n)
    (square : K)
    (i j : Fin n) :
    (correction matrix s y square).entry i j =
      matrix.entry i j + (y.get i - (matrix.apply s).get i) * s.get j / square := by
  rw [DenseMatrix.entry, correction, Exact.get_ofFn, Exact.get_ofFn, Exact.get_difference]

variable [IsStrictOrderedRing K]

theorem leastSquare_pos : (0 : K) < leastSquare := by
  rw [leastSquare]
  norm_num

/-- Where the residuals change by the image under `A`, the deviation from `A` is corrected. -/
theorem entry_deviation_correction
    (A B : DenseMatrix K n n)
    (s : Vector K n)
    (square : K)
    (i j : Fin n) :
    (deviation (correction B s (A.apply s) square) A).entry i j =
      (deviation B A).entry i j - ((deviation B A).apply s).get i * s.get j / square := by
  have image : ((deviation B A).apply s).get i = (B.apply s).get i - (A.apply s).get i := by
    simp only [Exact.get_apply, DenseMatrix.entry_deviation, sub_mul, Finset.sum_sub_distrib]
  rw [DenseMatrix.entry_deviation, DenseMatrix.entry_deviation, entry_correction, image]
  ring

/-- The correction takes away exactly what the deviation did along the step. -/
theorem squares_deviation_correction
    (A B : DenseMatrix K n n)
    {s : Vector K n}
    (nonzero : dot s s ≠ 0) :
    squares (deviation (correction B s (A.apply s) (dot s s)) A) =
      squares (deviation B A) -
        dot ((deviation B A).apply s) ((deviation B A).apply s) / dot s s := by
  rw [Exact.dot_self_eq_sum] at nonzero
  simp only [squares, entry_deviation_correction, Exact.dot_self_eq_sum, Exact.get_apply,
    sum_sq_sub_part _ s.get nonzero, Finset.sum_sub_distrib, Finset.sum_div]

/-- Between two points of an affine system, the residuals change by the image of the step. -/
theorem betweenPoints_eq_ofStep
    {system : ExpressionSystem K n n}
    (affine : ExpressionSystem.IsAffine system)
    (B : DenseMatrix K n n)
    (x previous : Vector K n) :
    betweenPoints system B x previous =
      ofStep B (difference x previous)
        ((ExpressionSystem.coefficients system).apply (difference x previous)) := by
  rw [betweenPoints, between, ExpressionSystem.difference_residuals affine]

end Field

variable {system : ExpressionSystem ℝ n n}

/-- An update that is applied drops the squares of the deviation. -/
theorem dropsAlong_betweenPoints
    (affine : ExpressionSystem.IsAffine system)
    {B : DenseMatrix ℝ n n}
    {x previous : Vector ℝ n}
    (applied : (betweenPoints system B x previous).isApplied = true) :
    DropsAlong (difference x previous) (ExpressionSystem.coefficients system) B
      ((betweenPoints system B x previous).apply B) := by
  have long := isApplied_betweenPoints_iff.mp applied
  rw [betweenPoints_eq_ofStep affine, ofStep_eq, if_neg (not_lt.mpr long), DropsAlong,
    Exact.euclideanNorm_sq, Exact.euclideanNorm_sq]
  exact squares_deviation_correction _ B (leastSquare_pos.trans_le long).ne'

end SecantUpdate

namespace Secant

open ExpressionSystem (IsAffine coefficients)

variable {n : Nat}
variable {system : ExpressionSystem ℝ n n}
variable {epsilon : ℝ}
variable {limit : Int}
variable {iteration : Nat}
variable {state next : SecantState ℝ n}

/-- A step from a measured state corrects the matrix that it goes on with, or leaves it alone. -/
theorem dropsAlong_advanced
    (affine : IsAffine system)
    (measured : state.toIterationState.IsMeasured system)
    (epsilon : ℝ)
    (iteration : Nat) :
    let next := (advanced system epsilon iteration state).2
    let matrix := (direction iteration state).2.2
    if epsilon * 1e-2 < displacement next ∧
        (SecantUpdate.betweenPoints system matrix next.x state.x).isApplied then
      DropsAlong (difference next.x state.x) (coefficients system) matrix next.matrix
    else next.matrix = matrix := by
  intro next matrix
  have learned := matrix_advanced_betweenPoints measured epsilon iteration
  split
  · rename_i useful
    rw [learned, if_pos (Exact.less_iff.mpr useful.1)]
    exact SecantUpdate.dropsAlong_betweenPoints affine useful.2
  · rename_i useless
    rw [learned]
    split
    · rename_i far
      have unused := Bool.eq_false_iff.mpr fun applied =>
        useless ⟨Exact.less_iff.mp far, applied⟩
      exact SecantUpdate.apply_of_not_isApplied unused matrix
    · rfl

/-- A turn that reports no singular system does not make the deviation larger. -/
theorem squares_onward_le
    (affine : IsAffine system)
    (measured : state.toIterationState.IsMeasured system)
    (turned : (turn system epsilon iteration state).2 = .onward next)
    (silent : ¬ReportsSingular system epsilon iteration state) :
    squares (deviation next.matrix (coefficients system)) ≤
      squares (deviation state.matrix (coefficients system)) := by
  obtain ⟨large, shape, _⟩ := onward_of_turn turned
  have ready := isMeasured_settled measured epsilon iteration
  have carried := matrix_direction_of_not_reportsSingular large silent
  have learned := dropsAlong_advanced affine ready epsilon iteration
  rw [shape, stepped, ← carried]
  dsimp only at learned
  split at learned
  · exact learned.squares_le
  · rw [learned]

/-- Nor does a stretch of such turns. -/
theorem squares_of_stateBefore?_le
    (affine : IsAffine system)
    {x : Vector ℝ n}
    {earlier later : Nat}
    (ordered : earlier ≤ later)
    (reached :
      (scheme system epsilon limit).stateBefore? (start system x).2 earlier = some state)
    (reachedLater :
      (scheme system epsilon limit).stateBefore? (start system x).2 later = some next)
    (silent :
      ∀ iteration between,
        earlier ≤ iteration →
        iteration < later →
        (scheme system epsilon limit).stateBefore? (start system x).2 iteration = some between →
        ¬ReportsSingular system epsilon iteration between) :
    squares (deviation next.matrix (coefficients system)) ≤
      squares (deviation state.matrix (coefficients system)) := by
  -- The last turn of the stretch comes after a shorter stretch from the same state.
  induction later, ordered using Nat.le_induction generalizing next with
  | base =>
      rw [reached, Option.some.injEq] at reachedLater
      rw [reachedLater]
  | succ iteration ordered inductionHypothesis =>
      obtain ⟨between, reachedBetween, turned⟩ :=
        Scheme.exists_onward_of_stateBefore?_succ reachedLater
      have recent := Nat.lt_succ_self iteration
      have shorter := inductionHypothesis reachedBetween
        fun other state after before => silent other state after (before.trans recent)
      have last := squares_onward_le affine (isMeasured_of_stateBefore? reachedBetween) turned
        (silent iteration between ordered recent reachedBetween)
      exact last.trans shorter

/--
In a run on an affine system, the squares of the deviation of the matrix from that of the system
never get more from one turn to a later one, unless a turn between them reported a singular system
and went on with the identity. An update that is applied, be it the first one before all turns or
that of a turn, drops them by the square of what the deviation makes of the displacement, relative
to the length of the displacement; where no update is applied, the matrix stays as it is.
-/
theorem deviation_bounded
    (affine : IsAffine system)
    (x : Vector ℝ n)
    (epsilon : ℝ)
    (limit : Int) :
    let A := coefficients system
    let first := (start system x).2
    let reached := (scheme system epsilon limit).stateBefore? first
    ((SecantUpdate.betweenPoints system (.identity n) x (secondPoint x)).isApplied →
        DropsAlong (difference x (secondPoint x)) A (.identity n) first.matrix) ∧
      (∀ earlier later before after,
        earlier ≤ later →
        reached earlier = some before →
        reached later = some after →
        (∀ iteration between,
          earlier ≤ iteration →
          iteration < later →
          reached iteration = some between →
          ¬ReportsSingular system epsilon iteration between) →
        squares (deviation after.matrix A) ≤ squares (deviation before.matrix A)) ∧
      ∀ iteration state,
        reached iteration = some state →
        epsilon ≤ state.error →
        let ready := (settled system epsilon iteration state).2
        let matrix := (direction iteration ready).2.2
        let next := stepped system epsilon iteration state
        (¬ReportsSingular system epsilon iteration state → matrix = state.matrix) ∧
          (ReportsSingular system epsilon iteration state → matrix = .identity n) ∧
          if epsilon * 1e-2 < displacement next ∧
              (SecantUpdate.betweenPoints system matrix next.x ready.x).isApplied then
            DropsAlong (difference next.x ready.x) A matrix next.matrix
          else next.matrix = matrix := by
  intro A first reached
  refine ⟨SecantUpdate.dropsAlong_betweenPoints affine, ?_, ?_⟩
  · intro earlier later before after ordered reachedBefore reachedAfter silent
    exact squares_of_stateBefore?_le affine ordered reachedBefore reachedAfter silent
  · intro iteration state reachedState large ready matrix next
    have measured := isMeasured_settled (isMeasured_of_stateBefore? reachedState) epsilon iteration
    exact ⟨matrix_direction_of_not_reportsSingular (Exact.less_eq_false_iff.mpr large),
      matrix_direction_of_reportsSingular, dropsAlong_advanced affine measured epsilon iteration⟩

/-- In one variable the first update finds the slope, and no turn loses it again. -/
theorem line_deviation_bounded :
    let system : ExpressionSystem ℝ 1 1 := #v[[⟨2, .single 0⟩, ⟨-4, .one⟩]]
    let A := coefficients system
    let first := (start system #v[0]).2
    IsAffine system ∧
      squares (deviation (.identity 1) A) = 1 ∧
      squares (deviation first.matrix A) = 0 ∧
      ∀ later after,
        (scheme system 0.01 20).stateBefore? first later = some after →
        (∀ iteration between,
          iteration < later →
          (scheme system 0.01 20).stateBefore? first iteration = some between →
          ¬ReportsSingular system 0.01 iteration between) →
        squares (deviation after.matrix A) ≤ 0 := by
  intro system A first
  have affine : IsAffine system := by
    simp [IsAffine, system, Term.IsAffine, Monomial.toList]
  have slope : A.entry 0 0 = 2 := by
    simp [A, system, Expression.coefficient, Vector.get_eq_getElem]
  have unit : (DenseMatrix.identity 1 : DenseMatrix ℝ 1 1).entry 0 0 = 1 := by
    simp [DenseMatrix.entry, DenseMatrix.identity]
  have before : squares (deviation (.identity 1) A) = 1 := by
    norm_num [squares, slope, unit]
  have step : (difference #v[0] (secondPoint #v[0]) : Vector ℝ 1).get 0 = -0.001 := by
    norm_num [secondPoint, Arithmetic.ofCount, Vector.get_eq_getElem]
  have applied :
      (SecantUpdate.betweenPoints system (.identity 1) #v[0] (secondPoint #v[0])).isApplied := by
    rw [SecantUpdate.isApplied_betweenPoints_iff, Exact.dot_self_eq_sum, Fin.sum_univ_one, step,
      SecantUpdate.leastSquare]
    norm_num
  obtain ⟨learns, never, _⟩ := deviation_bounded affine #v[0] 0.01 20
  have exactSlope : squares (deviation first.matrix A) = 0 := by
    have drops : DropsAlong (difference #v[0] (secondPoint #v[0])) A (.identity 1) first.matrix :=
      learns applied
    have image :
        ((deviation (.identity 1) A).apply (difference #v[0] (secondPoint #v[0]))).get 0 =
          0.001 := by
      rw [Exact.get_apply, Fin.sum_univ_one, DenseMatrix.entry_deviation, slope, unit, step]
      norm_num
    rw [DropsAlong, before, Exact.euclideanNorm_sq, Exact.euclideanNorm_sq, Exact.dot_self_eq_sum,
      Exact.dot_self_eq_sum, Fin.sum_univ_one, Fin.sum_univ_one, image, step] at drops
    rw [drops]
    norm_num
  refine ⟨affine, before, exactSlope, ?_⟩
  intro later after reached silent
  rw [← exactSlope]
  apply never 0 later first after (Nat.zero_le later) rfl reached
  intro iteration between _ earlier reachedBetween
  exact silent iteration between earlier reachedBetween

end Secant

end RootFinding
