import Mathlib.Algebra.MvPolynomial.PDeriv
import RootFinding.Proofs.Exact.Affine
import RootFinding.Proofs.Procedure.Evaluation

/-!
# Forward differences of quadratic systems

An expression is a polynomial in which no term has more than two variables. Without rounding, a step
forward along a coordinate changes it by the step times the derivative, and by the square of the step
times the coefficients of the square of that coordinate. So an estimated Jacobian is the true one up
to the step in every column, and is the true one itself where no square occurs. The columns may be
found on one scratch point, as long as every coordinate is put back before the next one is moved.
-/

namespace RootFinding

open scoped Exact

section Terms

variable {K : Type} [Field K] [LinearOrder K] {n : Nat}

namespace Term

/-- The term as a polynomial in the variables. -/
noncomputable def polynomial (term : Term K (Fin n)) : MvPolynomial (Fin n) K :=
  match term.monomial with
  | .one => .C term.coefficient
  | .single first => .C term.coefficient * .X first
  | .product first second => .C term.coefficient * .X first * .X second

/-- The coefficient of variable `j` alone. -/
def linearPart (term : Term K (Fin n)) (j : Fin n) : K :=
  if term.monomial = .single j then term.coefficient else 0

/-- The coefficient times the other variable, where the term multiplies variable `j` with another. -/
def crossPart (term : Term K (Fin n)) (point : Fin n → K) (j : Fin n) : K :=
  match term.monomial with
  | .product first second =>
      if first = j ∧ second ≠ j then term.coefficient * point second
      else if second = j ∧ first ≠ j then term.coefficient * point first
      else 0
  | _ => 0

/-- The coefficient of the square of variable `j`. -/
def squarePart (term : Term K (Fin n)) (j : Fin n) : K :=
  if term.monomial = .product j j then term.coefficient else 0

variable (term : Term K (Fin n)) (point : Fin n → K)

/-- The polynomial of a term takes the value of the term at every point. -/
theorem eval_polynomial : MvPolynomial.eval point term.polynomial = term.value point := by
  obtain ⟨coefficient, monomial⟩ := term
  cases monomial <;> simp [polynomial, value]

/-- The derivative of a term is what it contributes as a linear, a mixed or a quadratic one. -/
theorem eval_pderiv_polynomial (j : Fin n) :
    MvPolynomial.eval point (MvPolynomial.pderiv j term.polynomial) =
      term.linearPart j + term.crossPart point j + term.squarePart j * (2 * point j) := by
  obtain ⟨coefficient, monomial⟩ := term
  cases monomial with
  | one => simp [polynomial, linearPart, crossPart, squarePart]
  | single first =>
      by_cases same : first = j
      · simp [polynomial, linearPart, crossPart, squarePart, same]
      · simp [polynomial, linearPart, crossPart, squarePart, same]
  | product first second =>
      by_cases firstSame : first = j <;> by_cases secondSame : second = j
      · simp [polynomial, linearPart, crossPart, squarePart, firstSame, secondSame]
        ring
      · simp [polynomial, linearPart, crossPart, squarePart, firstSame, secondSame, mul_comm]
      · simp [polynomial, linearPart, crossPart, squarePart, firstSame, secondSame]
      · simp [polynomial, linearPart, crossPart, squarePart, firstSame, secondSame]

/-- What a step of length `h` along variable `j` changes in a term. -/
theorem value_update (j : Fin n) (h : K) :
    term.value (Function.update point j (point j + h)) =
      term.value point +
        h * (term.linearPart j + term.crossPart point j + term.squarePart j * (2 * point j + h)) := by
  obtain ⟨coefficient, monomial⟩ := term
  cases monomial with
  | one => simp [value, linearPart, crossPart, squarePart]
  | single first =>
      by_cases same : first = j
      · subst same
        simp [value, linearPart, crossPart, squarePart]
        ring
      · simp [value, linearPart, crossPart, squarePart, same]
  | product first second =>
      by_cases firstSame : first = j <;> by_cases secondSame : second = j
      · subst firstSame secondSame
        simp [value, linearPart, crossPart, squarePart]
        ring
      · subst firstSame
        simp [value, linearPart, crossPart, squarePart, secondSame]
        ring
      · subst secondSame
        simp [value, linearPart, crossPart, squarePart, firstSame]
        ring
      · simp [value, linearPart, crossPart, squarePart, firstSame, secondSame]

end Term

namespace Expression

/-- The expression as a polynomial in the variables. -/
noncomputable def polynomial (expression : Expression K (Fin n)) : MvPolynomial (Fin n) K :=
  (expression.map Term.polynomial).sum

/-- The coefficients of the products of variable `j` with another one, each times the other. -/
def crossSlope (expression : Expression K (Fin n)) (point : Fin n → K) (j : Fin n) : K :=
  (expression.map fun term => term.crossPart point j).sum

/-- The sum of the coefficients of the square of variable `j`. -/
def squareCoefficient (expression : Expression K (Fin n)) (j : Fin n) : K :=
  (expression.map fun term => term.squarePart j).sum

variable (expression : Expression K (Fin n)) (point : Fin n → K)

/-- The derivative of an expression collects its linear, mixed and quadratic parts. -/
theorem eval_pderiv_polynomial (j : Fin n) :
    MvPolynomial.eval point (MvPolynomial.pderiv j expression.polynomial) =
      expression.coefficient j + expression.crossSlope point j +
        expression.squareCoefficient j * (2 * point j) := by
  induction expression with
  | nil => simp [polynomial, coefficient, crossSlope, squareCoefficient]
  | cons term rest inductionHypothesis =>
      have first := term.eval_pderiv_polynomial point j
      simp only [polynomial, coefficient, crossSlope, squareCoefficient, List.map_cons,
        List.sum_cons, map_add, Term.linearPart] at inductionHypothesis first ⊢
      linear_combination first + inductionHypothesis

/-- An expression without the square of a variable has no coefficient for it. -/
theorem squareCoefficient_eq_zero
    {expression : Expression K (Fin n)}
    {j : Fin n}
    (absent : ∀ term ∈ expression, term.monomial ≠ .product j j) :
    expression.squareCoefficient j = 0 := by
  apply List.sum_eq_zero
  intro part member
  obtain ⟨term, listed, rfl⟩ := List.mem_map.mp member
  exact if_neg (absent term listed)

variable [IsStrictOrderedRing K]

/-- The polynomial of an expression takes the value of the expression at every point. -/
theorem eval_polynomial :
    MvPolynomial.eval point expression.polynomial = expression.value point := by
  rw [value_eq_sum, polynomial, map_list_sum, List.map_map]
  congr 2
  funext term
  exact term.eval_polynomial point

/-- What a step of length `h` along variable `j` changes in an expression. -/
theorem value_update (j : Fin n) (h : K) :
    expression.value (Function.update point j (point j + h)) =
      expression.value point +
        h * (expression.coefficient j + expression.crossSlope point j +
          expression.squareCoefficient j * (2 * point j + h)) := by
  rw [value_eq_sum, value_eq_sum]
  induction expression with
  | nil => simp [coefficient, crossSlope, squareCoefficient]
  | cons term rest inductionHypothesis =>
      have first := term.value_update point j h
      simp only [coefficient, crossSlope, squareCoefficient, List.map_cons, List.sum_cons,
        Term.linearPart] at inductionHypothesis first ⊢
      linear_combination first + inductionHypothesis

end Expression

end Terms

namespace ExpressionSystem

variable {K : Type} [Field K] [LinearOrder K] {m n : Nat}

/-- The true Jacobian: the derivatives of the polynomials of a system. -/
noncomputable def derivatives (system : ExpressionSystem K m n) (x : Vector K n) :
    DenseMatrix K m n :=
  Vector.ofFn fun i => Vector.ofFn fun j =>
    MvPolynomial.eval x.get (MvPolynomial.pderiv j (system.get i).polynomial)

/-- No equation has a term with the square of a variable. -/
def HasNoSquares (system : ExpressionSystem K m n) : Prop :=
  ∀ expression ∈ system, ∀ term ∈ expression, ∀ j, term.monomial ≠ .product j j

/-- The derivatives of a system are those of its equations, entry by entry. -/
theorem entry_derivatives
    (system : ExpressionSystem K m n)
    (x : Vector K n)
    (i : Fin m)
    (j : Fin n) :
    (derivatives system x).entry i j =
      (system.get i).coefficient j + (system.get i).crossSlope x.get j +
        (system.get i).squareCoefficient j * (2 * x.get j) := by
  rw [DenseMatrix.entry, derivatives, Exact.get_ofFn, Exact.get_ofFn,
    Expression.eval_pderiv_polynomial]

end ExpressionSystem

theorem get_residuals_eq_value
    {K : Type}
    [Arithmetic K]
    {m n : Nat}
    (system : ExpressionSystem K m n)
    (x : Vector K n)
    (i : Fin m) :
    (residuals system x).get i = (system.get i).value x.get :=
  getElem_residuals system x i.val i.isLt

namespace FiniteDifference

section Sweep

variable {K : Type} [Arithmetic K] {m n : Nat}

/-- What an estimate holds after its first columns: a scratch point, the columns and their cost. -/
structure Sweep (K : Type) (m n count : Nat) where
  scratch : Vector K n
  columns : Vector (Vector K m) count
  evaluations : Nat

/--
The first columns of an estimate, found on one scratch point: each coordinate is stepped forward,
the system is evaluated, and the coordinate is put back.
-/
def sweep (system : ExpressionSystem K m n) (x : Vector K n) (fx : Vector K m) :
    (count : Nat) → count ≤ n → Sweep K m n count
  | 0, _ => { scratch := x, columns := #v[], evaluations := 0 }
  | j + 1, inside =>
      let before := sweep system x fx j (Nat.le_of_succ_le inside)
      let step := stepSize x[j]
      let stepped := before.scratch.set j (x[j] + step)
      let changes := difference (residuals system stepped) fx
      { scratch := stepped.set j x[j]
        columns := before.columns.push (changes.map fun change => change / step)
        evaluations := before.evaluations + m }

/-- A column of the estimated Jacobian. -/
def column (system : ExpressionSystem K m n) (x : Vector K n) (fx : Vector K m) (j : Fin n) :
    Vector K m :=
  Vector.ofFn fun i => (jacobian system x fx).entry i j

/-- A column is the difference quotient of the residuals along one coordinate. -/
theorem column_eq
    (system : ExpressionSystem K m n)
    (x : Vector K n)
    (fx : Vector K m)
    (j : Fin n) :
    column system x fx j =
      (difference (residuals system (forward x j)) fx).map
        fun change => change / stepSize (x.get j) := by
  have step : (x.map stepSize).get j = stepSize (x.get j) := Vector.getElem_map stepSize j.isLt
  apply Vector.ext
  intro i small
  simp only [column, jacobian, DenseMatrix.entry, Exact.get_ofFn, Vector.getElem_ofFn,
    Vector.getElem_map, getElem_difference, step]
  rfl

/-- Every coordinate is put back, so each column is found where that coordinate alone was moved. -/
theorem sweep_eq
    (system : ExpressionSystem K m n)
    (x : Vector K n)
    (fx : Vector K m)
    (count : Nat)
    (inside : count ≤ n) :
    sweep system x fx count inside =
      { scratch := x
        columns := Vector.ofFn fun j => column system x fx (j.castLE inside)
        evaluations := count * m } := by
  induction count with
  | zero => simp [sweep]
  | succ j inductionHypothesis =>
      have restored : (x.set j (x[j] + stepSize x[j])).set j x[j] = x := by
        rw [Vector.set_set, Vector.set_getElem_self]
      have last := column_eq system x fx ⟨j, inside⟩
      have columns :
          (Vector.ofFn fun k : Fin j => column system x fx (k.castLE (Nat.le_of_succ_le inside))).push
              (column system x fx ⟨j, inside⟩) =
            Vector.ofFn fun k : Fin (j + 1) => column system x fx (k.castLE inside) := by
        apply Vector.ext
        intro k small
        rw [Vector.getElem_push, Vector.getElem_ofFn]
        split
        · exact Vector.getElem_ofFn _
        · obtain rfl : k = j := by omega
          rfl
      rw [sweep, inductionHypothesis (Nat.le_of_succ_le inside), Nat.succ_mul, ← columns, last]
      dsimp only
      rw [restored]
      rfl

end Sweep

variable {K : Type} [Field K] [LinearOrder K] {m n : Nat}

/-- Stepping forward moves one coordinate and no other. -/
theorem get_forward (x : Vector K n) (j : Fin n) :
    (forward x j).get = Function.update x.get j (x.get j + stepSize (x.get j)) := by
  funext k
  have moved := get_difference_forward x j k
  rw [Exact.get_difference, sub_eq_iff_eq_add] at moved
  rw [moved, Function.update_apply]
  by_cases same : k = j
  · subst same
    rw [if_pos rfl, if_pos rfl, add_comm]
  · rw [if_neg (Ne.symm same), if_neg same, zero_add]

variable [IsStrictOrderedRing K]

/-- An entry is the slope of its equation, with the step added to every square. -/
theorem entry_jacobian_residuals
    (system : ExpressionSystem K m n)
    (x : Vector K n)
    (i : Fin m)
    (j : Fin n) :
    (jacobian system x (residuals system x)).entry i j =
      (system.get i).coefficient j + (system.get i).crossSlope x.get j +
        (system.get i).squareCoefficient j * (2 * x.get j + stepSize (x.get j)) := by
  rw [entry_jacobian, Exact.get_difference, get_residuals_eq_value, get_residuals_eq_value,
    get_forward, Expression.value_update, add_sub_cancel_left,
    mul_div_cancel_left₀ _ (stepSize_pos _).ne']

/--
The estimate of a Jacobian evaluates as many expressions as it has entries, whether it moves copies
of the point or one scratch point that it restores. Its entries are the coefficients of the variable
alone, those of its products with other variables times these, and those of its square times twice
the coordinate and a step more. So it differs from the derivatives of the residuals by the step times
the coefficients of the squares, and is made of these derivatives where no equation has a square.
-/
theorem jacobian_isExact_upToSquares (system : ExpressionSystem K n n) (x : Vector K n) :
    let fx := residuals system x
    let J := jacobian system x fx
    evaluations n = n ^ 2 ∧
      ((Procedure.jacobian x fx).ledger system).calls = n ^ 2 ∧
      sweep system x fx n le_rfl =
        { scratch := x, columns := Vector.ofFn (column system x fx), evaluations := n ^ 2 } ∧
      (∀ i j,
        J.entry i j =
          (system.get i).coefficient j + (system.get i).crossSlope x.get j +
            (system.get i).squareCoefficient j * (2 * x.get j + stepSize (x.get j))) ∧
      (∀ i (y : Vector K n),
        MvPolynomial.eval y.get (system.get i).polynomial = (residuals system y).get i) ∧
      (∀ i j,
        J.entry i j - (ExpressionSystem.derivatives system x).entry i j =
          stepSize (x.get j) * (system.get i).squareCoefficient j) ∧
      (ExpressionSystem.HasNoSquares system → J = ExpressionSystem.derivatives system x) := by
  intro fx J
  have entries := entry_jacobian_residuals system x
  have errors (i j : Fin n) :
      J.entry i j - (ExpressionSystem.derivatives system x).entry i j =
        stepSize (x.get j) * (system.get i).squareCoefficient j := by
    rw [entries, ExpressionSystem.entry_derivatives]
    ring
  refine ⟨(sq n).symm, ?_, ?_, entries, fun i y => ?_, errors, fun noSquares => ?_⟩
  · rw [Procedure.ledger_jacobian, sq]
  · rw [sweep_eq, sq]
    rfl
  · rw [Expression.eval_polynomial, get_residuals_eq_value]
  · apply Exact.ext_get
    intro i
    apply Exact.ext_get
    intro j
    have none : (system.get i).squareCoefficient j = 0 :=
      Expression.squareCoefficient_eq_zero fun term member =>
        noSquares _ (Vector.getElem_mem i.isLt) term member j
    have same := errors i j
    rw [none, mul_zero, sub_eq_zero] at same
    exact same

/-- The slopes of a product are found exactly, that of a square up to the step. -/
theorem product_found_square_missed :
    let product : Expression ℚ (Fin 2) := [⟨2, .product 0 1⟩, ⟨-3, .one⟩]
    let square : Expression ℚ (Fin 2) := [⟨1, .single 0⟩, ⟨1, .product 1 1⟩]
    let x : Vector ℚ 2 := #v[1, 2]
    let estimate (system : ExpressionSystem ℚ 2 2) := jacobian system x (residuals system x)
    ExpressionSystem.HasNoSquares #v[product, product] ∧
      estimate #v[product, product] = ExpressionSystem.derivatives #v[product, product] x ∧
      estimate #v[product, product] = #v[#v[4, 2], #v[4, 2]] ∧
      (estimate #v[product, square]).entry 1 1 -
          (ExpressionSystem.derivatives #v[product, square] x).entry 1 1 =
        2 * relativeStep := by
  intro product square x estimate
  have noSquares : ExpressionSystem.HasNoSquares #v[product, product] := by
    simp [ExpressionSystem.HasNoSquares, product]
  obtain ⟨_, _, _, _, _, _, exact⟩ := jacobian_isExact_upToSquares #v[product, product] x
  obtain ⟨_, _, _, _, _, errors, _⟩ := jacobian_isExact_upToSquares #v[product, square] x
  have step : stepSize (x.get 1) * square.squareCoefficient 1 = 2 * relativeStep := by
    decide +kernel
  refine ⟨noSquares, exact noSquares, by decide +kernel, ?_⟩
  rw [errors, ← step]
  rfl

end FiniteDifference

end RootFinding
