import RootFinding.Proofs.Exact.Affine
import RootFinding.Proofs.Exact.Norm
import RootFinding.Proofs.Formula.Reading
import RootFinding.Proofs.Grammar.Correctness

/-!
# The check of a solution agrees with the solver

Two readers take the same text apart: the solver's, which ignores blanks and keeps two variables of
a term, and that of the check, which reads a formula and multiplies everything out. Without rounding
they come to the same number wherever both accept an equation and no term of it has more than two
variables. So the check of a solution reports the residuals of the solver and passes on their norm.
-/

namespace RootFinding

open Grammar Outcome

open scoped Exact

/-- A variable that is a factor is among the variables. -/
theorem mem_variableIndices
    {index : Fin variableLimit}
    {factors : List Factor}
    (member : .variable index ∈ factors) :
    index ∈ variableIndices factors := by
  rw [← filterMap_index?_eq_variableIndices]
  exact List.mem_filterMap.mpr ⟨_, member, rfl⟩

section Terms

variable {K : Type} [Field K] [LinearOrder K]

/-- A term is its coefficient times its variables. -/
theorem Term.value_eq_prod
    {ι : Type}
    (term : Term K ι)
    (point : ι → K) :
    term.value point = term.coefficient * (term.monomial.toList.map point).prod := by
  obtain ⟨coefficient, monomial⟩ := term
  cases monomial <;> simp [Term.value, Monomial.toList, mul_assoc]

/-- The factors multiply out to the literals times the variables. -/
theorem Factor.productFrom_mul_prod
    (x : Fin variableLimit → K)
    (factors : List Factor)
    (product : K) :
    productFrom product factors * ((variableIndices factors).map x).prod =
      product * (factors.map (Factor.value x)).prod := by
  induction factors generalizing product with
  | nil => simp [productFrom, variableIndices]
  | cons factor rest inductionHypothesis =>
      cases factor with
      | literal negated digits decimals =>
          cases negated <;>
            simp [productFrom, variableIndices, Factor.value, inductionHypothesis, mul_assoc]
      | «variable» index =>
          have others := inductionHypothesis product
          simp only [productFrom, variableIndices, Factor.value, List.map_cons, List.prod_cons]
          linear_combination x index * others

variable [IsStrictOrderedRing K]

/-- A term of at most two variables has the value in which every factor counts. -/
theorem SignedTerm.value_toTerm
    {term : SignedTerm}
    (few : (variableIndices term.factors).length ≤ 2)
    (x : Fin variableLimit → K) :
    (term.toTerm : Term K (Fin variableLimit)).value x = term.fullValue x := by
  have denotes : Denotes term (term.toTerm : Term K (Fin variableLimit)) := denotes_iff.mpr rfl
  have product := Factor.productFrom_mul_prod x term.factors 1.0
  rw [Exact.ofScientific_one, one_mul] at product
  rw [Term.value_eq_prod, denotes.coefficient_eq, denotes.variables_eq,
    List.take_of_length_le few, Exact.ofScientific_one, mul_assoc, product, SignedTerm.fullValue]

end Terms

section Renaming

variable {K : Type} [Arithmetic K] {bound n : Nat}

/-- A term that keeps to the first `n` variables has no others, and the same value. -/
theorem Term.value_of_rename?
    {term : Term K (Fin bound)}
    {fitted : Term K (Fin n)}
    (renamed :
      term.rename? (fun i => if inside : i.val < n then .ok ⟨i.val, inside⟩ else .error i) =
        (.ok fitted : Except (Fin bound) (Term K (Fin n)))) :
    (∀ i ∈ term.monomial.toList, i.val < n) ∧
      ∀ {x : Fin bound → K} {y : Fin n → K},
        (∀ i (inside : i.val < n), x i = y ⟨i.val, inside⟩) → fitted.value y = term.value x := by
  obtain ⟨coefficient, monomial⟩ := term
  cases monomial with
  | one =>
      cases renamed
      exact ⟨by simp [Monomial.toList], fun _ => rfl⟩
  | single first =>
      by_cases inside : first.val < n
      · simp only [Term.rename?, Monomial.rename?, inside, ↓reduceDIte] at renamed
        cases renamed
        refine ⟨by simpa [Monomial.toList] using inside, fun agrees => ?_⟩
        simp only [Term.value, agrees first inside]
      · simp only [Term.rename?, Monomial.rename?, inside, ↓reduceDIte] at renamed
        cases renamed
  | product first second =>
      by_cases firstInside : first.val < n
      · by_cases secondInside : second.val < n
        · simp only [Term.rename?, Monomial.rename?, firstInside, secondInside, ↓reduceDIte]
            at renamed
          cases renamed
          refine ⟨by simp [Monomial.toList, firstInside, secondInside], fun agrees => ?_⟩
          simp only [Term.value, agrees first firstInside, agrees second secondInside]
        · simp only [Term.rename?, Monomial.rename?, firstInside, secondInside, ↓reduceDIte]
            at renamed
          cases renamed
      · simp only [Term.rename?, Monomial.rename?, firstInside, ↓reduceDIte] at renamed
        cases renamed

end Renaming

namespace Verification

/-- The check reads the equation, and no term of it multiplies more than two variables. -/
structure IsUnderstood (equation : String) : Prop where
  isReadable :
    ∀ left, Equation.leftSide equation = .ok left → (formulaOf? left).isSome = true
  few :
    ∀ left written,
      Equation.leftSide equation = .ok left →
        SignedTerm.ofText left = .ok written →
          ∀ term ∈ written, (variableIndices term.factors).length ≤ 2

section Residuals

variable {n : Nat} {equation : String} {expression : Expression ℝ (Fin n)}

/-- The written terms that are read of a text derive it once its blanks are left out. -/
theorem derivesExpression_of_ofText
    {left : String}
    {written : List SignedTerm}
    (read : SignedTerm.ofText left = .ok written) :
    DerivesExpression (Text.condensed left.toList) written := by
  unfold SignedTerm.ofText at read
  split at read
  · rename_i words cutting
    have derived := derivesExpression_of_ofTokens (isCutWord_of_mem_cut cutting) read
    rwa [Token.flatMap_characters_cut cutting] at derived
  · cases read

/-- The written terms of a text that is read are derivable, and they are what it stands for. -/
theorem exists_written_of_parse
    {K : Type}
    [Arithmetic K]
    {left : String}
    {parsed : Expression K (Fin variableLimit)}
    (read : Expression.parse left = .ok parsed) :
    ∃ written,
      SignedTerm.ofText left = .ok written ∧
        DerivesExpression (Text.condensed left.toList) written ∧
        parsed = written.map SignedTerm.toTerm := by
  rw [Expression.parse, mapError_eq_ok_iff, Expression.ofText] at read
  obtain ⟨written, readWritten, same⟩ := bind_eq_ok_iff.mp read
  cases same
  exact ⟨written, readWritten, derivesExpression_of_ofText readWritten, rfl⟩

/-- The entries of a solution, for the variables that it has. -/
noncomputable def entryOf (solution : Vector ℝ n) (index : Fin variableLimit) : ℝ :=
  if inside : index.val < n then solution.get ⟨index.val, inside⟩ else 0

/-- The name of a variable finds its entry of the solution. -/
theorem entryNamed?_of_lt
    (solution : Vector ℝ n)
    {index : Fin variableLimit}
    (inside : index.val < n) :
    entryNamed? solution.toList (nameOf index) = some (entryOf solution index) := by
  rw [entryNamed?_nameOf, entryOf, dif_pos inside, Vector.getElem?_toList,
    Vector.getElem?_eq_getElem inside]
  rfl

/--
The terms of an equation of `n` variables have no others, and they add up to the value in which
every factor counts.
-/
theorem sum_of_renamed
    {written : List SignedTerm}
    (few : ∀ term ∈ written, (variableIndices term.factors).length ≤ 2)
    (renamed :
      List.Forall₂
        (fun term fitted =>
          Term.rename?
              (fun i => if inside : i.val < n then .ok ⟨i.val, inside⟩ else .error i)
              (SignedTerm.toTerm term) =
            (.ok fitted : Except (Fin variableLimit) (Term ℝ (Fin n))))
        written expression)
    (solution : Vector ℝ n) :
    (∀ term ∈ written, ∀ index ∈ variableIndices term.factors, index.val < n) ∧
      (expression.map fun term => term.value solution.get).sum =
        (written.map (SignedTerm.fullValue (entryOf solution))).sum := by
  induction renamed with
  | nil => simp
  | @cons term fitted written expression first _ inductionHypothesis =>
      obtain ⟨fewFirst, fewLater⟩ := List.forall_mem_cons.mp few
      obtain ⟨insideLater, sumLater⟩ := inductionHypothesis fewLater
      obtain ⟨insideFirst, sameValue⟩ := Term.value_of_rename? first
      have variables_eq :=
        (denotes_iff.mpr rfl : Denotes term (term.toTerm : Term ℝ (Fin variableLimit))).variables_eq
      rw [List.take_of_length_le fewFirst] at variables_eq
      refine ⟨List.forall_mem_cons.mpr ⟨variables_eq ▸ insideFirst, insideLater⟩, ?_⟩
      have value : fitted.value solution.get = term.fullValue (entryOf solution) := by
        rw [← SignedTerm.value_toTerm fewFirst]
        exact sameValue fun i inside => dif_pos inside
      rw [List.map_cons, List.sum_cons, value, sumLater, List.map_cons, List.sum_cons]

variable [HasPower ℝ]

/-- The check comes to the value that the solver has for an equation that both read. -/
theorem residual_eq_valueAt
    (read :
      (do Expression.parseWithin n (← Equation.leftSide equation)) =
        (.ok expression : Except ParseError (Expression ℝ (Fin n))))
    (understood : IsUnderstood equation)
    (solution : Vector ℝ n) :
    residual solution.toList equation = .ok (expression.valueAt solution) := by
  obtain ⟨left, split, read⟩ := bind_eq_ok_iff.mp read
  obtain ⟨parsed, readParsed, within⟩ := bind_eq_ok_iff.mp read
  obtain ⟨written, readWritten, derived, rfl⟩ := exists_written_of_parse readParsed
  obtain ⟨formula, readFormula⟩ := Option.isSome_iff_exists.mp (understood.isReadable left split)
  have few := understood.few left written split readWritten
  have renamed := mapM_eq_ok_iff.mp (mapError_eq_ok_iff.mp within)
  rw [List.forall₂_map_left_iff] at renamed
  obtain ⟨inside, sum_eq⟩ := sum_of_renamed few renamed solution
  have known :
      ∀ term ∈ written,
        Factor.Known (entryNamed? solution.toList) (entryOf solution) term.factors :=
    fun term member index isFactor =>
      entryNamed?_of_lt solution (inside term member index (mem_variableIndices isFactor))
  rw [Text.condensed_eq_withoutBlanks_pointed, ← Text.withoutBlanks_trimmedBy] at derived
  have value := Formula.value?_of_derivesExpression derived readFormula known
  rw [← sum_eq, ← Expression.value_eq_sum] at value
  simp only [residual, split, Except.mapError, bind, Except.bind, readFormula, value]
  rfl

end Residuals

section Reports

variable {n : Nat} {epsilon : ℝ}

/-- The norm of the residuals is that of the vector of their values. -/
theorem norm_eq_euclideanNorm
    {steps : List (VerificationStep ℝ)}
    {values : Vector ℝ n}
    (residuals_eq : steps.map VerificationStep.residual = values.toList) :
    norm steps = euclideanNorm values := by
  have entries : values.toList = (List.finRange n).map values.get := by
    apply List.ext_getElem <;> simp [Vector.get]
  have folded :
      steps.foldl (fun total step => total + step.residual * step.residual) 0.0 =
        (steps.map VerificationStep.residual).foldl
          (fun total value => total + value * value) 0.0 := by
    rw [List.foldl_map]
  rw [norm, folded, residuals_eq, entries, List.foldl_map, euclideanNorm, dot,
    Fin.foldl_eq_foldl_finRange]

/-- No residual is larger than the norm. -/
theorem magnitude_le_euclideanNorm
    {values : Vector ℝ n}
    {value : ℝ}
    (member : value ∈ values.toList) :
    |value| ≤ euclideanNorm values := by
  obtain ⟨i, inside, rfl⟩ := List.mem_iff_getElem.mp member
  apply Real.abs_le_sqrt
  rw [Exact.dot_self_eq_sum]
  rw [Vector.length_toList] at inside
  exact Finset.single_le_sum (fun j _ => sq_nonneg (values.get j)) (Finset.mem_univ ⟨i, inside⟩)

variable [HasPower ℝ]

/-- The step of an equation has the value that the check came to. -/
theorem exists_step
    {solution : List ℝ}
    {equation : String}
    {value : ℝ}
    (checked : residual solution equation = .ok value)
    (index : Nat) :
    ∃ made,
      step solution epsilon index equation = .ok made ∧
        made.residual = value ∧
        (made.withinTolerance = true ↔ |value| < tolerance epsilon) := by
  refine ⟨_, by rw [step, checked]; rfl, ?_, Exact.less_iff⟩
  exact (congrArg (value + ·) Exact.ofScientific_zero).trans (add_zero value)

/-- The steps of all equations have the values that the check came to. -/
theorem exists_steps
    {solution : List ℝ}
    {equations : List String}
    {values : List ℝ}
    (checked :
      List.Forall₂ (fun equation value => residual solution equation = .ok value) equations values)
    (start : Nat) :
    ∃ steps,
      (equations.zipIdx start).mapM
          (fun (equation, index) => step solution epsilon index equation) = .ok steps ∧
        steps.map VerificationStep.residual = values ∧
        ∀ made ∈ steps, made.withinTolerance = true ↔ |made.residual| < tolerance epsilon := by
  induction checked generalizing start with
  | nil => exact ⟨[], rfl, rfl, by simp⟩
  | cons first _ inductionHypothesis =>
      obtain ⟨made, computed, rfl, within⟩ := exists_step first start
      obtain ⟨steps, computedLater, rfl, withinLater⟩ := inductionHypothesis (start + 1)
      refine ⟨made :: steps, ?_, rfl, List.forall_mem_cons.mpr ⟨within, withinLater⟩⟩
      rw [mapM_eq_ok_iff] at computedLater ⊢
      exact .cons computed computedLater

/-- The value of every equation that the check understands is that of the solver. -/
theorem residual_eq_residuals
    {equations : Vector String n}
    {system : ExpressionSystem ℝ n n}
    (built : ExpressionSystem.ofEquations equations = .ok system)
    (understood : ∀ equation ∈ equations.toList, IsUnderstood equation)
    (solution : Vector ℝ n) :
    List.Forall₂ (fun equation value => residual solution.toList equation = .ok value)
      equations.toList (residuals system solution).toList := by
  have related := mapM_eq_ok_iff.mp (toList_mapM_eq_ok built)
  have values_eq :
      (residuals system solution).toList =
        system.toList.map fun expression => expression.valueAt solution := by
    simp [residuals, Vector.toList_map]
  rw [values_eq, List.forall₂_map_right_iff]
  generalize equations.toList = texts at related understood ⊢
  generalize system.toList = expressions at related ⊢
  induction related with
  | nil => exact .nil
  | cons first _ inductionHypothesis =>
      obtain ⟨understoodFirst, understoodLater⟩ := List.forall_mem_cons.mp understood
      exact .cons (residual_eq_valueAt first understoodFirst solution)
        (inductionHypothesis understoodLater)

/--
The check of a solution of a system of which it understands every equation comes to a report: the
residuals are those of the solver, the check passes exactly if their norm is below ten times the
tolerance, and then every step is within it.
-/
theorem report_agrees
    {equations : Vector String n}
    {system : ExpressionSystem ℝ n n}
    (built : ExpressionSystem.ofEquations equations = .ok system)
    (understood : ∀ equation ∈ equations.toList, IsUnderstood equation)
    (inside : n ≤ variableLimit)
    (solution : Vector ℝ n)
    (epsilon : ℝ) :
    ∃ report,
      Verification.report equations.toList solution.toList epsilon = .ok report ∧
        report.steps.map VerificationStep.residual = (residuals system solution).toList ∧
        report.residualNorm = euclideanNorm (residuals system solution) ∧
        (report.passed = true ↔ euclideanNorm (residuals system solution) < 10 * epsilon) ∧
        (report.passed = true → ∀ step ∈ report.steps, step.withinTolerance = true) := by
  obtain ⟨steps, computed, residuals_eq, within⟩ :=
    exists_steps (residual_eq_residuals built understood solution) 0
  have norm_eq := norm_eq_euclideanNorm residuals_eq
  have tolerance_eq : tolerance epsilon = 10 * epsilon := by
    rw [tolerance, mul_comm]
    norm_num
  have passes :
      Arithmetic.less (norm steps) (tolerance epsilon) = true ↔
        euclideanNorm (residuals system solution) < 10 * epsilon := by
    rw [norm_eq, tolerance_eq]
    exact Exact.less_iff
  refine ⟨⟨steps, norm steps, Arithmetic.less (norm steps) (tolerance epsilon)⟩, ?_,
    residuals_eq, norm_eq, passes, ?_⟩
  · rw [report, unless_eq_ok_iff, Vector.length_toList, bind_eq_ok_iff]
    exact ⟨Nat.not_lt.mpr inside, steps, computed, rfl⟩
  · intro passed made member
    have listed : made.residual ∈ (residuals system solution).toList := by
      rw [← residuals_eq]
      exact List.mem_map_of_mem member
    rw [within made member, tolerance_eq]
    exact (magnitude_le_euclideanNorm listed).trans_lt (passes.mp passed)

end Reports

section Reading

variable {n : Nat} {equation left : String} {written : List SignedTerm}

/-- What the readers find in an equation tells whether it is understood. -/
theorem IsUnderstood.of_read
    (split : Equation.leftSide equation = .ok left)
    (readable : (formulaOf? left).isSome = true)
    (read : SignedTerm.ofText left = .ok written)
    (few : ∀ term ∈ written, (variableIndices term.factors).length ≤ 2) :
    IsUnderstood equation where
  isReadable other splitOther := by
    rw [split] at splitOther
    cases splitOther
    exact readable
  few other terms splitOther readOther := by
    rw [split] at splitOther
    cases splitOther
    rw [read] at readOther
    cases readOther
    exact few

/-- What is written in an equation is what the solver reads, if it keeps to the variables. -/
theorem parseWithin_of_read
    {K : Type}
    [Arithmetic K]
    {fitted : Expression K (Fin n)}
    (split : Equation.leftSide equation = .ok left)
    (read : SignedTerm.ofText left = .ok written)
    (fits : Expression.within n (written.map SignedTerm.toTerm) = .ok fitted) :
    (do Expression.parseWithin n (← Equation.leftSide equation)) = .ok fitted := by
  have parsed : Expression.parse (K := K) left = .ok (written.map SignedTerm.toTerm) := by
    rw [Expression.parse, Expression.ofText, read]
    rfl
  exact bind_eq_ok_iff.mpr ⟨left, split, bind_eq_ok_iff.mpr ⟨_, parsed, fits⟩⟩

end Reading

/-- Equations with zeros in front of variable numbers, a decimal comma and a negative literal. -/
def paddedPair : Vector String 2 :=
  #v["2,5*x01 - (-1.5)*x2*x1 = 0", "x002 + 1 = 0"]

/-- The terms of the first of them. -/
def paddedTerms : List SignedTerm :=
  [{ negative := false, factors := [.literal false 25 1, .variable ⟨0, by decide⟩] },
    { negative := true
      factors := [.literal true 15 1, .variable ⟨1, by decide⟩, .variable ⟨0, by decide⟩] }]

/-- The terms of the second one. -/
def shiftedTerms : List SignedTerm :=
  [{ negative := false, factors := [.variable ⟨1, by decide⟩] },
    { negative := false, factors := [.literal false 1 0] }]

/-- Both readers take the pair and agree on it. -/
theorem paddedPair_report_agrees :
    letI : HasPower ℝ := ⟨fun _ _ => none⟩
    ∃ system report,
      ExpressionSystem.ofEquations paddedPair = .ok system ∧
        (∀ equation ∈ paddedPair.toList, IsUnderstood equation) ∧
        2 ≤ variableLimit ∧
        Verification.report paddedPair.toList (#v[1, -1] : Vector ℝ 2).toList 0.01 = .ok report ∧
        report.steps.map VerificationStep.residual = (residuals system #v[1, -1]).toList ∧
        report.residualNorm = euclideanNorm (residuals system #v[1, -1]) ∧
        (report.passed = true ↔ euclideanNorm (residuals system #v[1, -1]) < 10 * 0.01) ∧
        (report.passed = true → ∀ step ∈ report.steps, step.withinTolerance = true) := by
  let _ : HasPower ℝ := ⟨fun _ _ => none⟩
  have split :
      Equation.leftSide "2,5*x01 - (-1.5)*x2*x1 = 0" = .ok "2,5*x01 - (-1.5)*x2*x1" := by
    decide +kernel
  have read : SignedTerm.ofText "2,5*x01 - (-1.5)*x2*x1" = .ok paddedTerms := by
    decide +kernel
  have splitShifted : Equation.leftSide "x002 + 1 = 0" = .ok "x002 + 1" := by
    decide +kernel
  have readShifted : SignedTerm.ofText "x002 + 1" = .ok shiftedTerms := by
    decide +kernel
  have readable : (formulaOf? "2,5*x01 - (-1.5)*x2*x1").isSome = true :=
    Formula.isSome_ofText? (.literal false 25 1) [.variable ⟨0, by decide⟩] paddedTerms.tail
      (by decide) (by decide +kernel)
  have readableShifted : (formulaOf? "x002 + 1").isSome = true :=
    Formula.isSome_ofText? (.variable ⟨1, by decide⟩) [] shiftedTerms.tail
      (by decide) (by decide +kernel)
  have understood : ∀ equation ∈ paddedPair.toList, IsUnderstood equation := by
    intro equation member
    simp only [paddedPair, Vector.toList_mk, List.mem_cons, List.not_mem_nil, or_false] at member
    rcases member with rfl | rfl
    · exact .of_read split readable read (by decide)
    · exact .of_read splitShifted readableShifted readShifted (by decide)
  obtain ⟨fitted, parsed⟩ :
      ∃ fitted : Expression ℝ (Fin 2),
        (do Expression.parseWithin 2 (← Equation.leftSide "2,5*x01 - (-1.5)*x2*x1 = 0")) =
          .ok fitted :=
    ⟨_, parseWithin_of_read split read rfl⟩
  obtain ⟨fittedShifted, parsedShifted⟩ :
      ∃ fitted : Expression ℝ (Fin 2),
        (do Expression.parseWithin 2 (← Equation.leftSide "x002 + 1 = 0")) = .ok fitted :=
    ⟨_, parseWithin_of_read splitShifted readShifted rfl⟩
  obtain ⟨system, built⟩ :
      ∃ system : ExpressionSystem ℝ 2 2, ExpressionSystem.ofEquations paddedPair = .ok system :=
    ⟨#v[fitted, fittedShifted],
      mapM_eq_ok_of_toList (mapM_eq_ok_iff.mpr (.cons parsed (.cons parsedShifted .nil)))⟩
  obtain ⟨report, agrees⟩ := report_agrees built understood (by decide) #v[1, -1] 0.01
  exact ⟨system, report, built, understood, by decide, agrees⟩

/-- More than ten equations are read by the solver, but no solution of them is checked. -/
theorem eleven_equations_refused :
    letI : HasPower ℝ := ⟨fun _ _ => none⟩
    ∃ system : ExpressionSystem ℝ 11 11,
      ExpressionSystem.ofEquations (Vector.replicate 11 "x1 = 0") = .ok system ∧
        (∀ equation ∈ (Vector.replicate 11 "x1 = 0").toList, IsUnderstood equation) ∧
        Verification.report (Vector.replicate 11 "x1 = 0").toList (zeros 11 : Vector ℝ 11).toList
          0.01 = .error .tooManyEntries := by
  let _ : HasPower ℝ := ⟨fun _ _ => none⟩
  have split : Equation.leftSide "x1 = 0" = .ok "x1" := by
    decide +kernel
  have read :
      SignedTerm.ofText "x1" =
        .ok [{ negative := false, factors := [.variable ⟨0, by decide⟩] }] := by
    decide +kernel
  have readable : (formulaOf? "x1").isSome = true :=
    Formula.isSome_ofText? (.variable ⟨0, by decide⟩) [] [] (by decide) (by decide +kernel)
  obtain ⟨fitted, parsed⟩ :
      ∃ fitted : Expression ℝ (Fin 11),
        (do Expression.parseWithin 11 (← Equation.leftSide "x1 = 0")) = .ok fitted :=
    ⟨_, parseWithin_of_read split read rfl⟩
  refine ⟨Vector.replicate 11 fitted, mapM_eq_ok_of_toList (mapM_eq_ok_iff.mpr ?_), ?_, ?_⟩
  · rw [Vector.toList_replicate, Vector.toList_replicate, List.forall₂_iff_get]
    refine ⟨by simp, fun i _ _ => ?_⟩
    rw [List.get_eq_getElem, List.get_eq_getElem, List.getElem_replicate, List.getElem_replicate]
    exact parsed
  · intro equation member
    rw [Vector.toList_replicate] at member
    obtain rfl := List.eq_of_mem_replicate member
    exact .of_read split readable read (by decide)
  · rw [report, if_pos (by rw [Vector.length_toList]; decide)]
    rfl

end Verification

end RootFinding
