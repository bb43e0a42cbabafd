import RootFinding.Proofs.Formula.Spelling

/-!
# Terms as formulas

The words of a factor are read as an operand, the words of a product as its factors multiplied from
the left, and the words of a sum as its products added up from the left. What is read ends where the
next words do not go on with it: a star behind a factor, a sign behind a product.
-/

namespace RootFinding

open Grammar
open Lexeme

/-- What is read of a factor. -/
def Factor.formula : Factor → Formula
  | .literal false digits decimals => .numeral digits (-(decimals : Int))
  | .literal true digits decimals => .negation (.numeral digits (-(decimals : Int)))
  | .variable index => .name (Verification.nameOf index)

namespace Formula

variable {lexemes rest : List Lexeme}

/-- An operand ends where no power is taken of it. -/
def NotRaised (rest : List Lexeme) : Prop :=
  rest.head? ≠ some .power

/-- An atom that is not raised to a power is the whole power. -/
theorem power?_of_atom?
    {base : Formula}
    {shorter : rest.length < lexemes.length}
    (read : atom? lexemes = some (base, ⟨rest, shorter⟩))
    (notRaised : NotRaised rest) :
    power? lexemes = some (base, ⟨rest, shorter⟩) := by
  rw [power?, read]
  cases rest with
  | nil => rfl
  | cons lexeme more =>
      cases lexeme with
      | power => exact absurd rfl notRaised
      | _ => rfl

/-- An operand that is not raised to a power is read without a sign. -/
theorem unary?_of_operand
    {operand : Lexeme}
    {base : Formula}
    {shorter : rest.length < (operand :: lexemes).length}
    (isOperand : operand.isOperand = true ∨ operand = .opening)
    (read : atom? (operand :: lexemes) = some (base, ⟨rest, shorter⟩))
    (notRaised : NotRaised rest) :
    unary? (operand :: lexemes) = some (base, ⟨rest, shorter⟩) := by
  have powered := power?_of_atom? read notRaised
  unfold unary?
  cases operand with
  | plus => simp [Lexeme.isOperand] at isOperand
  | minus => simp [Lexeme.isOperand] at isOperand
  | _ => exact powered

/-- A minus in front negates the operand. -/
theorem unary?_minus
    {operand : Formula}
    {shorter : rest.length < lexemes.length}
    (read : unary? lexemes = some (operand, ⟨rest, shorter⟩)) :
    ∃ shorter, unary? (.minus :: lexemes) = some (.negation operand, ⟨rest, shorter⟩) := by
  refine ⟨Nat.lt_succ_of_lt shorter, ?_⟩
  rw [unary?, read]

theorem unary?_plus
    {operand : Formula}
    {shorter : rest.length < lexemes.length}
    (read : unary? lexemes = some (operand, ⟨rest, shorter⟩)) :
    ∃ shorter, unary? (.plus :: lexemes) = some (operand, ⟨rest, shorter⟩) := by
  refine ⟨Nat.lt_succ_of_lt shorter, ?_⟩
  rw [unary?, read]

theorem unary?_numeral
    (digits : Nat)
    (exponent : Int)
    (notRaised : NotRaised rest) :
    ∃ shorter,
      unary? (.numeral digits exponent :: rest) =
        some (.numeral digits exponent, ⟨rest, shorter⟩) :=
  ⟨Nat.lt_succ_self _, unary?_of_operand (.inl rfl) (by rw [atom?]) notRaised⟩

/-- A product is its first operand and what is read from there on. -/
theorem product?_of_unary?
    {first whole : Formula}
    {after : List Lexeme}
    {shorter : rest.length < lexemes.length}
    {noLonger : after.length ≤ rest.length}
    (read : unary? lexemes = some (first, ⟨rest, shorter⟩))
    (readLater : productFrom? first rest = some (whole, ⟨after, noLonger⟩)) :
    ∃ shorter, product? lexemes = some (whole, ⟨after, shorter⟩) := by
  refine ⟨Nat.lt_of_le_of_lt noLonger shorter, ?_⟩
  rw [product?, read]
  simp only [readLater]

/-- A sum is its first product and what is read from there on. -/
theorem sum?_of_product?
    {first whole : Formula}
    {after : List Lexeme}
    {shorter : rest.length < lexemes.length}
    {noLonger : after.length ≤ rest.length}
    (read : product? lexemes = some (first, ⟨rest, shorter⟩))
    (readLater : sumFrom? first rest = some (whole, ⟨after, noLonger⟩)) :
    ∃ shorter, sum? lexemes = some (whole, ⟨after, shorter⟩) := by
  refine ⟨Nat.lt_of_le_of_lt noLonger shorter, ?_⟩
  rw [sum?, read]
  simp only [readLater]

/-- A product ends where no factor follows. -/
def EndsProduct (rest : List Lexeme) : Prop :=
  ∀ lexeme ∈ rest.head?, multiplicative? lexeme = none ∧ lexeme ≠ .power

theorem EndsProduct.notRaised (ends : EndsProduct rest) : NotRaised rest :=
  fun raised => (ends .power raised).2 rfl

/-- A factor that others follow is not raised to a power. -/
theorem notRaised_laterLexemes
    (factors : List Factor)
    (ends : EndsProduct rest) :
    NotRaised (Factor.laterLexemes factors ++ rest) := by
  cases factors with
  | nil => exact ends.notRaised
  | cons second others => simp [NotRaised, Factor.laterLexemes]

/-- A product stops where no sign of multiplication follows. -/
theorem productFrom?_of_endsProduct
    (left : Formula)
    (ends : EndsProduct rest) :
    ∃ noLonger, productFrom? left rest = some (left, ⟨rest, noLonger⟩) := by
  refine ⟨Nat.le_refl _, ?_⟩
  cases rest with
  | nil => rw [productFrom?]
  | cons lexeme more =>
      rw [productFrom?]
      simp only [(ends lexeme rfl).1]

/-- A sign of multiplication carries a product on by one operand. -/
theorem productFrom?_cons
    {lexeme : Lexeme}
    {kind : Operation}
    {left right whole : Formula}
    {after : List Lexeme}
    {shorter : rest.length < lexemes.length}
    {noLonger : after.length ≤ rest.length}
    (multiplicative : multiplicative? lexeme = some kind)
    (read : unary? lexemes = some (right, ⟨rest, shorter⟩))
    (readLater :
      productFrom? (.operation kind left right) rest = some (whole, ⟨after, noLonger⟩)) :
    ∃ noLonger, productFrom? left (lexeme :: lexemes) = some (whole, ⟨after, noLonger⟩) := by
  refine ⟨by simp only [List.length_cons]; omega, ?_⟩
  rw [productFrom?]
  simp only [multiplicative, read, readLater]

/-- A sign of addition carries a sum on by one product. -/
theorem sumFrom?_cons
    {lexeme : Lexeme}
    {kind : Operation}
    {left right whole : Formula}
    {after : List Lexeme}
    {shorter : rest.length < lexemes.length}
    {noLonger : after.length ≤ rest.length}
    (additive : additive? lexeme = some kind)
    (read : product? lexemes = some (right, ⟨rest, shorter⟩))
    (readLater : sumFrom? (.operation kind left right) rest = some (whole, ⟨after, noLonger⟩)) :
    ∃ noLonger, sumFrom? left (lexeme :: lexemes) = some (whole, ⟨after, noLonger⟩) := by
  refine ⟨by simp only [List.length_cons]; omega, ?_⟩
  rw [sumFrom?]
  simp only [additive, read, readLater]

theorem endsProduct_closing : EndsProduct (.closing :: rest) := by
  intro lexeme isHead
  cases isHead
  exact ⟨rfl, by simp⟩

/-- A negated numeral in parentheses is read as one atom. -/
theorem atom?_negated (digits : Nat) (exponent : Int) :
    ∃ shorter,
      atom? (.opening :: .minus :: .numeral digits exponent :: .closing :: rest) =
        some (.negation (.numeral digits exponent), ⟨rest, shorter⟩) := by
  have ends : EndsProduct (.closing :: rest) := endsProduct_closing
  obtain ⟨_, numeral⟩ := unary?_numeral digits exponent ends.notRaised
  obtain ⟨_, negated⟩ := unary?_minus numeral
  obtain ⟨_, alone⟩ := productFrom?_of_endsProduct (.negation (.numeral digits exponent)) ends
  obtain ⟨_, product⟩ := product?_of_unary? negated alone
  have last :
      sumFrom? (.negation (.numeral digits exponent)) (.closing :: rest) =
        some (.negation (.numeral digits exponent), ⟨.closing :: rest, Nat.le_refl _⟩) := by
    rw [sumFrom?]
    rfl
  obtain ⟨_, sum⟩ := sum?_of_product? product last
  refine ⟨by simp only [List.length_cons]; omega, ?_⟩
  rw [atom?, sum]

/-- The lexemes of a factor are read as its formula. -/
theorem unary?_factor
    (factor : Factor)
    (notRaised : NotRaised rest) :
    ∃ shorter, unary? (factor.lexemes ++ rest) = some (factor.formula, ⟨rest, shorter⟩) := by
  cases factor with
  | literal negated digits decimals =>
      cases negated with
      | false => exact unary?_numeral digits _ notRaised
      | true =>
          obtain ⟨shorter, read⟩ := atom?_negated digits (-(decimals : Int))
          exact ⟨shorter, unary?_of_operand (.inr rfl) read notRaised⟩
  | «variable» index =>
      exact ⟨Nat.lt_succ_self _, unary?_of_operand (.inl rfl) (by rw [atom?]; rfl) notRaised⟩

/-- No factor follows where the next term or nothing does. -/
theorem endsProduct_terms (terms : List SignedTerm) :
    EndsProduct (terms.flatMap SignedTerm.lexemes) := by
  intro lexeme isHead
  cases terms with
  | nil => cases isHead
  | cons term rest =>
      obtain ⟨negative, factors⟩ := term
      cases isHead
      cases negative <;> exact ⟨rfl, by simp [SignedTerm.signLexeme]⟩

/-- The formula of a product whose first factor was read already. -/
def times (left : Formula) (factors : List Factor) : Formula :=
  factors.foldl (fun product factor => .operation .product product factor.formula) left

/-- The formula of the factors of a term, of which there is one at least. -/
def ofFactors : List Factor → Formula
  | [] => .numeral 1 0
  | factor :: others => times factor.formula others

/-- The formula of a sum whose first term was read already. -/
def plus (left : Formula) (terms : List SignedTerm) : Formula :=
  terms.foldl
    (fun sum term =>
      .operation (if term.negative then .difference else .sum) sum (ofFactors term.factors))
    left

/-- A formula behind a sign. -/
def signed (negative : Bool) (operand : Formula) : Formula :=
  if negative then .negation operand else operand

/-- A sign in front is read as a sign of the operand. -/
theorem unary?_signLexeme
    (negative : Bool)
    {operand : Formula}
    {shorter : rest.length < lexemes.length}
    (read : unary? lexemes = some (operand, ⟨rest, shorter⟩)) :
    ∃ shorter,
      unary? (SignedTerm.signLexeme negative :: lexemes) =
        some (signed negative operand, ⟨rest, shorter⟩) := by
  cases negative with
  | true => exact unary?_minus read
  | false => exact unary?_plus read

/-- The formula of written terms; the sign of the first term goes with its first factor. -/
def ofTerms : List SignedTerm → Formula
  | { negative, factors := factor :: others } :: later =>
      plus (times (signed negative factor.formula) others) later
  | _ => .numeral 0 0

/-- The factors that follow are multiplied on one after the other. -/
theorem productFrom?_laterLexemes
    (left : Formula)
    (factors : List Factor)
    (ends : EndsProduct rest) :
    ∃ noLonger,
      productFrom? left (Factor.laterLexemes factors ++ rest) =
        some (times left factors, ⟨rest, noLonger⟩) := by
  induction factors generalizing left with
  | nil => exact productFrom?_of_endsProduct left ends
  | cons factor factors inductionHypothesis =>
      have lexemes_eq :
          Factor.laterLexemes (factor :: factors) ++ rest =
            .times :: (factor.lexemes ++ (Factor.laterLexemes factors ++ rest)) := by
        simp [Factor.laterLexemes]
      obtain ⟨_, read⟩ := unary?_factor factor (notRaised_laterLexemes factors ends)
      obtain ⟨_, readLater⟩ := inductionHypothesis (.operation .product left factor.formula)
      have star : multiplicative? .times = some .product := rfl
      rw [lexemes_eq]
      exact productFrom?_cons star read readLater

/-- A product is read factor by factor, its first one as it was read. -/
theorem product?_laterLexemes
    {first : Formula}
    {factors : List Factor}
    {shorter : (Factor.laterLexemes factors ++ rest).length < lexemes.length}
    (read : unary? lexemes = some (first, ⟨Factor.laterLexemes factors ++ rest, shorter⟩))
    (ends : EndsProduct rest) :
    ∃ shorter, product? lexemes = some (times first factors, ⟨rest, shorter⟩) := by
  obtain ⟨_, readLater⟩ := productFrom?_laterLexemes first factors ends
  exact product?_of_unary? read readLater

/-- The terms that follow are added on one after the other, up to the end. -/
theorem sumFrom?_terms
    (left : Formula)
    {terms : List SignedTerm}
    (nonempty : ∀ term ∈ terms, term.factors ≠ []) :
    ∃ noLonger,
      sumFrom? left (terms.flatMap SignedTerm.lexemes) =
        some (plus left terms, ⟨[], noLonger⟩) := by
  induction terms generalizing left with
  | nil =>
      refine ⟨Nat.le_refl _, ?_⟩
      change sumFrom? left [] = _
      rw [sumFrom?]
      rfl
  | cons term terms inductionHypothesis =>
      obtain ⟨nonemptyFirst, nonemptyLater⟩ := List.forall_mem_cons.mp nonempty
      obtain ⟨negative, factors⟩ := term
      obtain ⟨factor, others, rfl⟩ := List.exists_cons_of_ne_nil nonemptyFirst
      have ends := endsProduct_terms terms
      obtain ⟨_, factorRead⟩ := unary?_factor factor (notRaised_laterLexemes others ends)
      obtain ⟨_, read⟩ := product?_laterLexemes factorRead ends
      have additive :
          additive? (SignedTerm.signLexeme negative) =
            some (if negative then .difference else .sum) := by
        cases negative <;> rfl
      obtain ⟨_, readLater⟩ :=
        inductionHypothesis
          (.operation (if negative then .difference else .sum) left (times factor.formula others))
          nonemptyLater
      have lexemes_eq :
          List.flatMap SignedTerm.lexemes ({ negative, factors := factor :: others } :: terms) =
            SignedTerm.signLexeme negative ::
              (factor.lexemes ++
                (Factor.laterLexemes others ++ terms.flatMap SignedTerm.lexemes)) := by
        simp [SignedTerm.lexemes, Factor.productLexemes]
      rw [lexemes_eq]
      exact sumFrom?_cons additive read readLater

/-- The words of written terms are read as their formula. -/
theorem sum?_of_areWordsOf
    {terms : List SignedTerm}
    (words : AreWordsOf terms lexemes)
    (areWritten : AreWritten terms) :
    ∃ shorter, sum? lexemes = some (ofTerms terms, ⟨[], shorter⟩) := by
  obtain ⟨someTerm, nonempty⟩ := areWritten
  obtain ⟨⟨negative, factors⟩, later, rfl⟩ := List.exists_cons_of_ne_nil someTerm
  obtain ⟨nonemptyFirst, nonemptyLater⟩ := List.forall_mem_cons.mp nonempty
  obtain ⟨factor, others, rfl⟩ := List.exists_cons_of_ne_nil nonemptyFirst
  have ends := endsProduct_terms later
  obtain ⟨_, alone⟩ := unary?_factor factor (notRaised_laterLexemes others ends)
  have words_eq :
      List.flatMap SignedTerm.lexemes ({ negative, factors := factor :: others } :: later) =
        SignedTerm.signLexeme negative ::
          (factor.lexemes ++ (Factor.laterLexemes others ++ later.flatMap SignedTerm.lexemes)) := by
    simp [SignedTerm.lexemes, Factor.productLexemes]
  have first :
      ∃ shorter,
        unary? lexemes =
          some (signed negative factor.formula,
            ⟨Factor.laterLexemes others ++ later.flatMap SignedTerm.lexemes, shorter⟩) := by
    rw [AreWordsOf, words_eq] at words
    rcases words with rfl | unsigned
    · exact unary?_signLexeme negative alone
    · obtain ⟨plusSign, rfl⟩ := List.cons.inj unsigned
      cases negative with
      | true => cases plusSign
      | false => exact ⟨_, alone⟩
  obtain ⟨_, read⟩ := first
  obtain ⟨_, product⟩ := product?_laterLexemes read ends
  obtain ⟨_, readLater⟩ :=
    sumFrom?_terms (times (signed negative factor.formula) others) nonemptyLater
  exact sum?_of_product? product readLater

end Formula

end RootFinding
