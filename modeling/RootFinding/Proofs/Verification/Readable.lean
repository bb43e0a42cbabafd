import RootFinding.Proofs.Formula.Cutting
import RootFinding.Proofs.Verification.Agreement

/-!
# Which equations can be checked

What the solver reads of an equation is derivable once its blanks are left out. The check reads the
same text only if it is plainly written, and it finds a value wherever every variable is one of the
system. So an equation of a solved system is checked, or it is not plainly written and its left-hand
side is reported, or a variable of it lies outside the system and there may be no value.
-/

namespace RootFinding

open Grammar Outcome

namespace Text

/-- A trimmed text begins and ends with characters outside the class. -/
theorem ends_trimmedBy
    (inClass : Char → Bool)
    (text : List Char) :
    (∀ c ∈ (trimmedBy inClass text).head?, inClass c = false) ∧
      ∀ c ∈ (trimmedBy inClass text).getLast?, inClass c = false := by
  have head_dropWhile (part : List Char) :
      ∀ c ∈ (part.dropWhile inClass).head?, inClass c = false := by
    intro c isHead
    have passes := List.head?_dropWhile_not inClass part
    rw [isHead] at passes
    simpa using passes
  constructor
  · intro c isHead
    obtain ⟨behind, whole⟩ : trimmedBy inClass text <+: text.dropWhile inClass :=
      List.rdropWhile_prefix inClass _
    refine head_dropWhile text c ?_
    rw [← whole, List.head?_append, isHead]
    rfl
  · intro c isLast
    rw [trimmedBy, List.getLast?_reverse] at isLast
    exact head_dropWhile _ c isLast

/-- No gaps are left at the ends of a trimmed text. -/
theorem no_gaps_of_trimmedBy
    {text gaps own gapsBehind : List Char}
    {depth : Nat}
    (trimmed : trimmedBy isBlank text = gaps ++ (own ++ gapsBehind))
    (areGaps : AreGaps depth gaps)
    (areGapsBehind : AreGaps depth gapsBehind) :
    gaps = [] ∧ gapsBehind = [] := by
  obtain ⟨headSolid, lastSolid⟩ := ends_trimmedBy isBlank text
  rw [trimmed] at headSolid lastSolid
  constructor
  · cases gaps with
    | nil => rfl
    | cons first gaps =>
        have solid := headSolid first rfl
        rw [areGaps.isBlank List.mem_cons_self] at solid
        cases solid
  · cases isLast : gapsBehind.getLast? with
    | none => exact List.getLast?_eq_none_iff.mp isLast
    | some last =>
        have solid := lastSolid last (by
          rw [List.getLast?_append, List.getLast?_append, isLast]
          rfl)
        rw [areGapsBehind.isBlank (List.mem_of_getLast? isLast)] at solid
        cases solid

end Text

namespace Verification

/-- The left-hand side that the check reads: trimmed, and with its commas as points. -/
def IsPlain (left : String) : Prop :=
  ∃ terms, WritesExpression (Text.trimmedBy Text.isBlank (Text.pointed left.toList)) terms

section Reading

variable {left : String} {written : List SignedTerm}

/-- A plainly written left-hand side is read as the formula of the terms that the solver reads. -/
theorem formulaOf?_of_isPlain
    (derived : DerivesExpression (Text.condensed left.toList) written)
    (plain : IsPlain left) :
    formulaOf? left = some (Formula.ofTerms written) := by
  obtain ⟨terms, writes⟩ := plain
  have read : formulaOf? left = some (Formula.ofTerms terms) :=
    Formula.ofText?_of_writesExpression writes
  rw [Text.condensed_eq_withoutBlanks_pointed, ← Text.withoutBlanks_trimmedBy] at derived
  obtain ⟨same, _⟩ := Formula.exists_expression_of_ofText? derived read
  rw [read, same]

/-- Of the left sides that the grammar derives, only plain ones are read as formulas. -/
theorem isPlain_of_formulaOf?
    {formula : Formula}
    (derived : DerivesExpression (Text.condensed left.toList) written)
    (read : formulaOf? left = some formula) :
    IsPlain left := by
  rw [Text.condensed_eq_withoutBlanks_pointed, ← Text.withoutBlanks_trimmedBy] at derived
  obtain ⟨_, _, gaps, own, gapsBehind, trimmed, areGaps, areGapsBehind, writes⟩ :=
    Formula.exists_expression_of_ofText? derived read
  obtain ⟨rfl, rfl⟩ := Text.no_gaps_of_trimmedBy trimmed areGaps areGapsBehind
  rw [List.nil_append, List.append_nil] at trimmed
  exact ⟨written, trimmed ▸ writes⟩

/-- A left side that is not plain is not read as a formula. -/
theorem formulaOf?_eq_none
    (derived : DerivesExpression (Text.condensed left.toList) written)
    (notPlain : ¬IsPlain left) :
    formulaOf? left = none := by
  cases read : formulaOf? left with
  | none => rfl
  | some formula => exact absurd (isPlain_of_formulaOf? derived read) notPlain

end Reading

/-- The terms of an equation as the solver reads them. -/
structure Reads (equation left : String) (written : List SignedTerm) : Prop where
  split : Equation.leftSide equation = .ok left
  read : SignedTerm.ofText left = .ok written

theorem Reads.derived
    {equation left : String}
    {written : List SignedTerm}
    (reads : Reads equation left written) :
    DerivesExpression (Text.condensed left.toList) written :=
  derivesExpression_of_ofText reads.read

/-- The terms have no other variables than the first `n`. -/
def KeepsTo (n : Nat) (written : List SignedTerm) : Prop :=
  ∀ term ∈ written, ∀ index ∈ variableIndices term.factors, index.val < n

/-- The check can read an equation and knows all its variables. -/
structure IsCheckable (n : Nat) (equation left : String) (written : List SignedTerm) : Prop where
  reads : Reads equation left written
  plain : IsPlain left
  inside : KeepsTo n written

/-- An equation is read in one way. -/
theorem Reads.unique
    {equation left otherLeft : String}
    {written otherWritten : List SignedTerm}
    (reads : Reads equation left written)
    (others : Reads equation otherLeft otherWritten) :
    otherLeft = left ∧ otherWritten = written := by
  have sameLeft := Except.ok.inj (others.split.symm.trans reads.split)
  subst sameLeft
  exact ⟨rfl, Except.ok.inj (others.read.symm.trans reads.read)⟩

/-- An equation that is parsed is read. -/
theorem exists_reads
    {K : Type}
    [Arithmetic K]
    {n : Nat}
    {equation : String}
    {expression : Expression K (Fin n)}
    (parsed :
      (do Expression.parseWithin n (← Equation.leftSide equation)) =
        (.ok expression : Except ParseError (Expression K (Fin n)))) :
    ∃ left written, Reads equation left written := by
  obtain ⟨left, split, parsed⟩ := bind_eq_ok_iff.mp parsed
  obtain ⟨_, readParsed, _⟩ := bind_eq_ok_iff.mp parsed
  obtain ⟨written, read, _⟩ := exists_written_of_parse readParsed
  exact ⟨left, written, split, read⟩

section Residuals

variable {K : Type} [Scalar K] [HasPower K]
variable {equation left : String} {written : List SignedTerm}

/-- Where the left side is not plain, the check fails for it. -/
theorem residual_of_notPlain
    (reads : Reads equation left written)
    (notPlain : ¬IsPlain left)
    (solution : List K) :
    residual solution equation = .error (.unreadable left) := by
  simp only [residual, reads.split, formulaOf?_eq_none reads.derived notPlain, Except.mapError,
    ok_bind]
  rfl

/-- Where the left side is plain, the check evaluates its terms. -/
theorem residual_of_isPlain
    (reads : Reads equation left written)
    (plain : IsPlain left)
    (solution : List K) :
    residual solution equation =
      match (Formula.ofTerms written).value? (entryNamed? solution) with
      | some value => .ok value
      | none => .error .noValue := by
  simp only [residual, reads.split, formulaOf?_of_isPlain reads.derived plain, Except.mapError,
    ok_bind]
  cases (Formula.ofTerms written).value? (entryNamed? solution) <;> rfl

/-- A checkable equation has a residual at every solution that is long enough. -/
theorem exists_residual
    {n : Nat}
    {solution : List K}
    (checkable : IsCheckable n equation left written)
    (enough : n ≤ solution.length) :
    ∃ value, residual solution equation = .ok value := by
  have named :
      ∀ term ∈ written, Factor.Named (entryNamed? solution) term.factors := by
    intro term member index isFactor
    have inside := checkable.inside term member index (mem_variableIndices isFactor)
    rw [entryNamed?_nameOf, List.getElem?_eq_getElem (Nat.lt_of_lt_of_le inside enough)]
    rfl
  obtain ⟨value, found⟩ := Option.isSome_iff_exists.mp (Formula.isSome_value?_ofTerms named)
  refine ⟨value, ?_⟩
  rw [residual_of_isPlain checkable.reads checkable.plain, found]

end Residuals

section Reports

variable {K : Type} [Scalar K] [HasPower K]
variable {equations : List String} {solution : List K} {epsilon : K}

/-- A step reports the equation, trimmed, with its number and its residual. -/
theorem step_eq_ok
    {equation : String}
    {index : Nat}
    {made : VerificationStep K}
    (stepped : step solution epsilon index equation = .ok made) :
    (∃ value, residual solution equation = .ok value) ∧
      (made.number, made.equation) = (index + 1, Text.trimmed equation) := by
  obtain ⟨value, checked, same⟩ := bind_eq_ok_iff.mp stepped
  cases same
  exact ⟨⟨value, checked⟩, rfl⟩

/-- The numbers and the texts of the equations, as a report shows them. -/
def labels (equations : List String) : List (Nat × String) :=
  equations.zipIdx.map fun (equation, index) => (index + 1, Text.trimmed equation)

/-- A report has one step for each equation, and every one of them has a residual. -/
theorem report_eq_ok
    {made : VerificationReport K}
    (reported : report equations solution epsilon = .ok made) :
    (∀ equation ∈ equations, ∃ value, residual solution equation = .ok value) ∧
      made.steps.map (fun step => (step.number, step.equation)) = labels equations := by
  rw [report, unless_eq_ok_iff] at reported
  obtain ⟨_, reported⟩ := reported
  obtain ⟨steps, stepped, same⟩ := bind_eq_ok_iff.mp reported
  cases same
  constructor
  · intro equation member
    rw [← List.zipIdx_map_fst 0 equations, List.mem_map] at member
    obtain ⟨item, member, rfl⟩ := member
    obtain ⟨made, steppedThere⟩ := exists_ok_of_mapM stepped member
    exact (step_eq_ok steppedThere).1
  · have labelled := (mapM_eq_ok_iff.mp stepped).imp fun item made => fun steppedThere =>
      ((step_eq_ok steppedThere).2).symm
    rw [labels, eq_comm, ← List.forall₂_eq_eq_eq, List.forall₂_map_left_iff,
      List.forall₂_map_right_iff]
    exact labelled

/-- Where there is no report, some equation has no residual. -/
theorem exists_of_report_eq_error
    {cause : VerificationError}
    (few : solution.length ≤ variableLimit)
    (failed : report equations solution epsilon = .error cause) :
    ∃ equation ∈ equations, residual solution equation = .error cause := by
  rw [report, unless_eq_error_iff] at failed
  rcases failed with ⟨many, _⟩ | ⟨_, failed⟩
  · omega
  rcases bind_eq_error_iff.mp failed with unstepped | ⟨_, _, failed⟩
  · obtain ⟨item, member, unstepped⟩ := exists_error_of_mapM unstepped
    refine ⟨item.1, List.fst_mem_of_mem_zipIdx member, ?_⟩
    rcases bind_eq_error_iff.mp unstepped with unchecked | ⟨_, _, unchecked⟩
    · exact unchecked
    · cases unchecked
  · cases failed

/--
A system that the solver reads is checked, all its equations being plainly written, or one of them
is not, or one has a variable that the solution has no entry for.
-/
theorem report_cases
    (few : solution.length ≤ variableLimit)
    (read : ∀ equation ∈ equations, ∃ left written, Reads equation left written)
    (epsilon : K) :
    (∃ made,
      report equations solution epsilon = .ok made ∧
        made.steps.map (fun step => (step.number, step.equation)) = labels equations ∧
        ∀ equation ∈ equations, ∃ left written, Reads equation left written ∧ IsPlain left) ∨
      ∃ equation ∈ equations,
        ∃ left written,
          Reads equation left written ∧
            (¬IsPlain left ∧ report equations solution epsilon = .error (.unreadable left) ∨
              ¬KeepsTo solution.length written ∧
                report equations solution epsilon = .error .noValue) := by
  cases reported : report equations solution epsilon with
  | ok made =>
      obtain ⟨checked, labelled⟩ := report_eq_ok reported
      refine .inl ⟨made, rfl, labelled, fun equation member => ?_⟩
      obtain ⟨left, written, reads⟩ := read equation member
      refine ⟨left, written, reads, ?_⟩
      by_contra notPlain
      obtain ⟨value, found⟩ := checked equation member
      rw [residual_of_notPlain reads notPlain] at found
      cases found
  | error cause =>
      obtain ⟨equation, member, failed⟩ := exists_of_report_eq_error few reported
      obtain ⟨left, written, reads⟩ := read equation member
      refine .inr ⟨equation, member, left, written, reads, ?_⟩
      by_cases plain : IsPlain left
      · refine .inr ⟨fun inside => ?_, ?_⟩
        · obtain ⟨value, found⟩ := exists_residual ⟨reads, plain, inside⟩ (Nat.le_refl _)
          rw [found] at failed
          cases failed
        · rw [residual_of_isPlain reads plain] at failed
          split at failed <;> cases failed
          rfl
      · rw [residual_of_notPlain reads plain] at failed
        cases failed
        exact .inl ⟨plain, rfl⟩

end Reports

end Verification

end RootFinding
