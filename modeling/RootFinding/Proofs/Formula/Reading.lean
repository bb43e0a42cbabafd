import RootFinding.Proofs.Exact.Field
import RootFinding.Proofs.Formula.Recognition

/-!
# Written expressions as formulas

A derivable text is read as the formula of its terms. Read so it has the value that the terms have
when every factor counts: products of the factors, added up with the signs in front of them. It has
a value at every point that knows its variables.
-/

namespace RootFinding

open Grammar

section Values

/-- Without decimals the sign of the exponent makes no difference. -/
theorem ofScientific_zero_exponent {K : Type} [Field K] (digits : Nat) :
    (OfScientific.ofScientific digits false 0 : K) = OfScientific.ofScientific digits true 0 := by
  have same : (OfScientific.ofScientific digits false 0 : ℚ) =
      OfScientific.ofScientific digits true 0 := by
    change Rat.ofScientific digits false 0 = Rat.ofScientific digits true 0
    rw [Rat.ofScientific_true_def, Rat.ofScientific_false_def, Rat.mkRat_eq_div]
    simp
  have casted := congrArg (Rat.cast : ℚ → K) same
  rwa [Rat.cast_ofScientific, Rat.cast_ofScientific] at casted

/-- A point of a formula knows the variables of the factors. -/
def Factor.Known
    {K : Type}
    (point : List Char → Option K)
    (x : Fin variableLimit → K)
    (factors : List Factor) :
    Prop :=
  ∀ index : Fin variableLimit,
    .variable index ∈ factors → point (Verification.nameOf index) = some (x index)

/-- What is known of a product is known of its first factor and of the rest. -/
theorem Factor.Known.of_cons
    {K : Type}
    {point : List Char → Option K}
    {x : Fin variableLimit → K}
    {factor : Factor}
    {factors : List Factor}
    (known : Factor.Known point x (factor :: factors)) :
    Factor.Known point x [factor] ∧ Factor.Known point x factors := by
  refine ⟨fun index member => known index ?_, fun index member => known index ?_⟩
  · exact List.mem_cons.mpr (.inl (List.mem_singleton.mp member))
  · exact List.mem_cons_of_mem _ member

variable {K : Type} [Field K] [LinearOrder K]

open scoped Exact

/-- The value of a factor at a point. -/
def Factor.value (x : Fin variableLimit → K) : Factor → K
  | .literal false digits decimals => OfScientific.ofScientific digits true decimals
  | .literal true digits decimals => -OfScientific.ofScientific digits true decimals
  | .variable index => x index

/-- The value of a term of which every factor counts. -/
def SignedTerm.fullValue (x : Fin variableLimit → K) (term : SignedTerm) : K :=
  (if term.negative then -1 else 1) * (term.factors.map (Factor.value x)).prod

variable [HasPower K]
variable {point : List Char → Option K} {x : Fin variableLimit → K}

/-- A numeral stands for the literal that is written with its digits. -/
theorem Formula.value?_numeral (digits decimals : Nat) :
    (Formula.numeral digits (-(decimals : Int))).value? point =
      some (OfScientific.ofScientific digits true decimals : K) := by
  rw [Formula.value?]
  congr 1
  cases decimals with
  | zero => exact ofScientific_zero_exponent digits
  | succ decimals =>
      have below : decide (-((decimals + 1 : Nat) : Int) < 0) = true := by
        rw [decide_eq_true_eq]
        omega
      rw [below, Int.natAbs_neg]
      rfl

/-- The formula of a known factor has the value of the factor. -/
theorem Factor.value?_formula
    {factor : Factor}
    (known : Factor.Known point x [factor]) :
    factor.formula.value? point = some (factor.value x) := by
  cases factor with
  | literal negated digits decimals =>
      cases negated with
      | false => exact Formula.value?_numeral digits decimals
      | true =>
          rw [Factor.formula, Formula.value?, Formula.value?_numeral digits decimals]
          rfl
  | «variable» index => exact known index List.mem_cons_self

namespace Formula

open Lexeme

/-- The factors behind a factor multiply its value, one after the other. -/
theorem value?_times
    {left : Formula}
    {total : K}
    {factors : List Factor}
    (value : left.value? point = some total)
    (known : Factor.Known point x factors) :
    (times left factors).value? point =
      some (total * (factors.map (Factor.value x)).prod) := by
  induction factors generalizing left total with
  | nil => simpa [times] using value
  | cons factor factors inductionHypothesis =>
      obtain ⟨knownFirst, knownLater⟩ := known.of_cons
      have factorValue := Factor.value?_formula knownFirst
      have productValue :
          (Formula.operation .product left factor.formula).value? point =
            some (total * factor.value x) := by
        rw [value?, value, factorValue, Operation.applied?_some]
        rfl
      rw [List.map_cons, List.prod_cons, ← mul_assoc]
      exact inductionHypothesis productValue knownLater

/-- The terms behind a term are added to its value or taken from it, one after the other. -/
theorem value?_plus
    {left : Formula}
    {total : K}
    {terms : List SignedTerm}
    (value : left.value? point = some total)
    (nonempty : ∀ term ∈ terms, term.factors ≠ [])
    (known : ∀ term ∈ terms, Factor.Known point x term.factors) :
    (plus left terms).value? point =
      some (total + (terms.map (SignedTerm.fullValue x)).sum) := by
  induction terms generalizing left total with
  | nil => simpa [plus] using value
  | cons term terms inductionHypothesis =>
      obtain ⟨nonemptyFirst, nonemptyLater⟩ := List.forall_mem_cons.mp nonempty
      obtain ⟨knownFirst, knownLater⟩ := List.forall_mem_cons.mp known
      obtain ⟨negative, factors⟩ := term
      obtain ⟨factor, others, rfl⟩ := List.exists_cons_of_ne_nil nonemptyFirst
      obtain ⟨knownFactor, knownOthers⟩ := knownFirst.of_cons
      have rightValue := value?_times (Factor.value?_formula knownFactor) knownOthers
      have sumValue :
          (Formula.operation (if negative then .difference else .sum) left
              (times factor.formula others)).value? point =
            some (total + SignedTerm.fullValue x { negative, factors := factor :: others }) := by
        rw [value?, value, rightValue, Operation.applied?_some]
        cases negative <;>
          simp [Operation.result?, SignedTerm.fullValue, sub_eq_add_neg]
      rw [List.map_cons, List.sum_cons, ← add_assoc]
      exact inductionHypothesis sumValue nonemptyLater knownLater

/-- The formula of written terms has the value in which every factor counts. -/
theorem value?_ofTerms
    {terms : List SignedTerm}
    (areWritten : AreWritten terms)
    (known : ∀ term ∈ terms, Factor.Known point x term.factors) :
    (ofTerms terms).value? point = some ((terms.map (SignedTerm.fullValue x)).sum) := by
  obtain ⟨someTerm, nonempty⟩ := areWritten
  obtain ⟨⟨negative, factors⟩, later, rfl⟩ := List.exists_cons_of_ne_nil someTerm
  obtain ⟨nonemptyFirst, nonemptyLater⟩ := List.forall_mem_cons.mp nonempty
  obtain ⟨knownFirst, knownLater⟩ := List.forall_mem_cons.mp known
  obtain ⟨factor, others, rfl⟩ := List.exists_cons_of_ne_nil nonemptyFirst
  obtain ⟨knownFactor, knownOthers⟩ := knownFirst.of_cons
  have signedValue :
      (signed negative factor.formula).value? point =
        some ((if negative then -1 else 1) * factor.value x) := by
    have factorValue := Factor.value?_formula knownFactor
    cases negative <;> simp [signed, value?, factorValue]
  have value := value?_plus (value?_times signedValue knownOthers) nonemptyLater knownLater
  simpa [ofTerms, SignedTerm.fullValue, mul_assoc] using value

end Formula

end Values

section Definedness

variable {K : Type} [Arithmetic K] [HasPower K]
variable {point : List Char → Option K}

/-- Every variable among the factors has some value at a point. -/
def Factor.Named (point : List Char → Option K) (factors : List Factor) : Prop :=
  ∀ index : Fin variableLimit,
    .variable index ∈ factors → (point (Verification.nameOf index)).isSome = true

/-- The formula of a named factor has a value. -/
theorem Factor.isSome_value?_formula
    {factor : Factor}
    {factors : List Factor}
    (named : Factor.Named point factors)
    (member : factor ∈ factors) :
    (factor.formula.value? point).isSome = true := by
  cases factor with
  | literal negated digits decimals => cases negated <;> rfl
  | «variable» index => exact named index member

namespace Formula

/-- A sum, a difference and a product of values are values. -/
theorem isSome_value?_operation
    {kind : Operation}
    {left right : Formula}
    (isTotal : kind = .sum ∨ kind = .difference ∨ kind = .product)
    (isLeft : (left.value? point).isSome = true)
    (isRight : (right.value? point).isSome = true) :
    ((Formula.operation kind left right).value? point).isSome = true := by
  obtain ⟨a, leftValue⟩ := Option.isSome_iff_exists.mp isLeft
  obtain ⟨b, rightValue⟩ := Option.isSome_iff_exists.mp isRight
  rw [value?, leftValue, rightValue, Operation.applied?_some]
  rcases isTotal with rfl | rfl | rfl <;> rfl

/-- A product of named factors has a value. -/
theorem isSome_value?_times
    {left : Formula}
    {factors : List Factor}
    (isLeft : (left.value? point).isSome = true)
    (named : Factor.Named point factors) :
    ((times left factors).value? point).isSome = true := by
  induction factors generalizing left with
  | nil => exact isLeft
  | cons factor factors inductionHypothesis =>
      have isFactor := Factor.isSome_value?_formula named List.mem_cons_self
      exact inductionHypothesis
        (isSome_value?_operation (.inr (.inr rfl)) isLeft isFactor)
        (fun index member => named index (List.mem_cons_of_mem _ member))

theorem isSome_value?_ofFactors
    {factors : List Factor}
    (named : Factor.Named point factors) :
    ((ofFactors factors).value? point).isSome = true := by
  cases factors with
  | nil => rfl
  | cons factor others =>
      exact isSome_value?_times (Factor.isSome_value?_formula named List.mem_cons_self)
        (fun index member => named index (List.mem_cons_of_mem _ member))

theorem isSome_value?_plus
    {left : Formula}
    {terms : List SignedTerm}
    (isLeft : (left.value? point).isSome = true)
    (named : ∀ term ∈ terms, Factor.Named point term.factors) :
    ((plus left terms).value? point).isSome = true := by
  induction terms generalizing left with
  | nil => exact isLeft
  | cons term terms inductionHypothesis =>
      obtain ⟨namedFirst, namedLater⟩ := List.forall_mem_cons.mp named
      have isTerm := isSome_value?_ofFactors namedFirst
      refine inductionHypothesis (isSome_value?_operation ?_ isLeft isTerm) namedLater
      cases term.negative
      · exact .inl rfl
      · exact .inr (.inl rfl)

/-- The formula of written terms has a value where every variable of the terms has one. -/
theorem isSome_value?_ofTerms
    {terms : List SignedTerm}
    (named : ∀ term ∈ terms, Factor.Named point term.factors) :
    ((ofTerms terms).value? point).isSome = true := by
  unfold ofTerms
  split
  · rename_i negative factor others later
    obtain ⟨namedFirst, namedLater⟩ := List.forall_mem_cons.mp named
    have isFactor := Factor.isSome_value?_formula namedFirst List.mem_cons_self
    have isSigned : ((signed negative factor.formula).value? point).isSome = true := by
      cases negative with
      | false => exact isFactor
      | true => simpa [signed, value?] using isFactor
    exact isSome_value?_plus
      (isSome_value?_times isSigned
        (fun index member => namedFirst index (List.mem_cons_of_mem _ member)))
      namedLater
  · rfl

end Formula

end Definedness

section Reading

open Lexeme

namespace Formula

/-- A formula that is read from a derivable text with blanks in it is plainly written there. -/
theorem exists_expression_of_ofText?
    {raw : List Char}
    {formula : Formula}
    {written : List SignedTerm}
    (derived : DerivesExpression (Text.withoutBlanks raw) written)
    (read : ofText? (Verification.withoutLeadingZeros raw) = some formula) :
    formula = ofTerms written ∧
      AreWritten written ∧
      ∃ gaps own gapsBehind,
        raw = gaps ++ (own ++ gapsBehind) ∧
          AreGaps 0 gaps ∧
          AreGaps 0 gapsBehind ∧
          WritesExpression own written := by
  obtain ⟨lexemes, _, cutting, recognized, separated⟩ := exists_separated_of_ofText? read
  have spells : Spells 0 raw (Text.withoutBlanks raw) lexemes := ⟨separated, rfl, _, cutting⟩
  obtain ⟨gaps, own, gapsBehind, raw_eq, areGaps, areGapsBehind, writes, words, areWritten⟩ :=
    spells.exists_expression derived
  obtain ⟨_, sumRead⟩ := sum?_of_areWordsOf words areWritten
  rw [sumRead] at recognized
  cases recognized
  exact ⟨rfl, areWritten, gaps, own, gapsBehind, raw_eq, areGaps, areGapsBehind, writes⟩

open scoped Exact in
/--
A formula that is read from a derivable text with blanks and leading zeros has the value of the
terms of the derivation, of which every factor counts.
-/
theorem value?_of_derivesExpression
    {K : Type}
    [Field K]
    [LinearOrder K]
    [HasPower K]
    {point : List Char → Option K}
    {x : Fin variableLimit → K}
    {raw : List Char}
    {formula : Formula}
    {written : List SignedTerm}
    (derived : DerivesExpression (Text.withoutBlanks raw) written)
    (read : ofText? (Verification.withoutLeadingZeros raw) = some formula)
    (known : ∀ term ∈ written, Factor.Known point x term.factors) :
    formula.value? point = some ((written.map (SignedTerm.fullValue x)).sum) := by
  obtain ⟨rfl, areWritten, _⟩ := exists_expression_of_ofText? derived read
  exact value?_ofTerms areWritten known

/-- A text whose words are those of written terms is read as their formula. -/
theorem ofText?_of_areWordsOf
    {text : List Char}
    {lexemes : List Lexeme}
    {terms : List SignedTerm}
    (words : AreWordsOf terms lexemes)
    (areWritten : AreWritten terms)
    (cutting : Lexeme.ofText? text = some lexemes) :
    ofText? text = some (ofTerms terms) := by
  obtain ⟨_, read⟩ := sum?_of_areWordsOf words areWritten
  rw [ofText?, cutting]
  simp only [read]

/-- So is a text whose words are those of a first term without its sign and of other terms. -/
theorem isSome_ofText?
    {text : List Char}
    (factor : Factor)
    (others : List Factor)
    (terms : List SignedTerm)
    (nonempty : ∀ term ∈ terms, term.factors ≠ [])
    (cutting :
      Lexeme.ofText? text =
        some (Factor.productLexemes (factor :: others) ++ terms.flatMap SignedTerm.lexemes)) :
    (ofText? text).isSome = true := by
  let first : SignedTerm := { negative := false, factors := factor :: others }
  have areWritten : AreWritten (first :: terms) :=
    ⟨List.cons_ne_nil _ _, List.forall_mem_cons.mpr ⟨List.cons_ne_nil _ _, nonempty⟩⟩
  have words :
      AreWordsOf (first :: terms)
        (Factor.productLexemes (factor :: others) ++ terms.flatMap SignedTerm.lexemes) :=
    .inr rfl
  rw [ofText?_of_areWordsOf words areWritten cutting]
  rfl

end Formula

end Reading

end RootFinding
