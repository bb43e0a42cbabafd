import RootFinding.Proofs.Formula.Lexing

/-!
# Words of written expressions

The words of a formula that spell a derivable text are those of its factors, with a star between
factors and a sign between terms. They are found along the derivation, in a text that may have gaps
between its words and go on behind them.
-/

namespace RootFinding

open Grammar

section Words

/-- The words of a factor; a negative literal keeps its parentheses. -/
def Factor.lexemes : Factor → List Lexeme
  | .literal false digits decimals => [.numeral digits (-(decimals : Int))]
  | .literal true digits decimals =>
      [.opening, .minus, .numeral digits (-(decimals : Int)), .closing]
  | .variable index => [.name (Verification.nameOf index)]

/-- The words of the factors behind a factor, each with the star in front of it. -/
def Factor.laterLexemes (factors : List Factor) : List Lexeme :=
  factors.flatMap fun factor => .times :: factor.lexemes

/-- The words of a product. -/
def Factor.productLexemes : List Factor → List Lexeme
  | [] => []
  | factor :: rest => factor.lexemes ++ laterLexemes rest

/-- The word of the sign in front of a term. -/
def SignedTerm.signLexeme (negative : Bool) : Lexeme :=
  if negative then .minus else .plus

/-- The words of a term with the sign in front of it. -/
def SignedTerm.lexemes (term : SignedTerm) : List Lexeme :=
  signLexeme term.negative :: Factor.productLexemes term.factors

/-- The words are those of the terms; a plus sign in front of the first one may be left out. -/
def AreWordsOf (terms : List SignedTerm) (lexemes : List Lexeme) : Prop :=
  lexemes = terms.flatMap SignedTerm.lexemes ∨ .plus :: lexemes = terms.flatMap SignedTerm.lexemes

/-- There is a term, and every term has a factor. -/
def AreWritten (terms : List SignedTerm) : Prop :=
  terms ≠ [] ∧ ∀ term ∈ terms, term.factors ≠ []

/-- The terms of a sum are written with at least one factor each. -/
theorem Grammar.WritesSum.areWritten
    {negative : Bool}
    {text : List Char}
    {terms : List SignedTerm}
    (sum : WritesSum negative text terms) :
    AreWritten terms := by
  have nonempty {text : List Char} {factors : List Factor} (term : WritesTerm text factors) :
      factors ≠ [] := by
    cases term <;> exact List.cons_ne_nil _ _
  refine ⟨by cases sum <;> exact List.cons_ne_nil _ _, ?_⟩
  induction sum with
  | last only => simpa using nonempty only
  | signed first _ _ _ inductionHypothesis =>
      exact List.forall_mem_cons.mpr ⟨nonempty first, inductionHypothesis⟩

end Words

namespace Formula.Spells

open Lexeme

variable {depth : Nat} {raw text after : List Char} {lexemes : List Lexeme}

theorem areGaps_one (areGaps : AreGaps (depth + 1) raw) : AreGaps 1 raw := by
  simpa [AreGaps] using areGaps

/-- A factor of the normal form stands in the raw text behind some gaps. -/
theorem exists_factor
    {factor : Factor}
    (derived : DerivesFactor text factor)
    (spells : Spells depth raw (text ++ after) lexemes)
    (follows : FollowsOperand after) :
    ∃ gaps own rest later,
      raw = gaps ++ (own ++ rest) ∧
        AreGaps depth gaps ∧
        WritesFactor own factor ∧
        lexemes = factor.lexemes ++ later ∧
        Spells depth rest after later := by
  cases derived with
  | number number =>
      obtain ⟨gaps, rest, later, raw_eq, areGaps, written, same, behind⟩ :=
        spells.exists_numeral number follows
      exact ⟨gaps, text, rest, later, raw_eq, areGaps, .number written, same, behind⟩
  | @negated inner digits decimals number =>
      obtain ⟨c, more, rfl⟩ := List.exists_cons_of_ne_nil number.nonempty
      simp only [List.cons_append, List.append_assoc, List.nil_append] at spells
      have closes : FollowsOperand (')' :: after) := by
        intro d isHead
        cases isHead
        rfl
      obtain ⟨gaps, _, _, rfl, areGaps, opening, inside⟩ := spells.exists_sign rfl rfl (by simp)
      obtain ⟨beforeSign, _, _, rfl, gapsBeforeSign, minus, unsigned⟩ :=
        inside.exists_sign rfl rfl (by simp)
      obtain ⟨beforeNumber, _, _, rfl, gapsBeforeNumber, written, numeral, closed⟩ :=
        unsigned.exists_numeral number closes
      obtain ⟨behind, rest, later, rfl, gapsBehind, closing, outside⟩ :=
        closed.exists_sign rfl rfl (by simp)
      subst opening minus numeral closing
      refine ⟨gaps, _, rest, later, ?_, areGaps,
        .negated (areGaps_one gapsBeforeSign) (areGaps_one gapsBeforeNumber) written
          (areGaps_one gapsBehind), rfl, outside⟩
      simp
  | «variable» digits value =>
      obtain ⟨gaps, rest, later, raw_eq, areGaps, same, behind⟩ :=
        spells.exists_name digits value follows
      exact ⟨gaps, _, rest, later, raw_eq, areGaps, .variable digits value, same, behind⟩

theorem symbol?_signCharacter (negative : Bool) :
    symbol? [signCharacter negative] = some (SignedTerm.signLexeme negative, []) := by
  cases negative <;> rfl

/-- No factor begins with a star. -/
theorem head?_ne_star_of_derivesFactor
    {factor : Factor}
    (derived : DerivesFactor text factor)
    (after : List Char) :
    (text ++ after).head? ≠ some '*' := by
  cases derived with
  | number number =>
      obtain ⟨c, more, rfl⟩ := List.exists_cons_of_ne_nil number.nonempty
      intro isHead
      cases isHead
      cases number.numeric '*' List.mem_cons_self
  | negated number => simp
  | «variable» digits value => simp

/-- No term starts with a sign of multiplication. -/
theorem head?_ne_star_of_derivesTerm
    {factors : List Factor}
    (derived : DerivesTerm text factors)
    (after : List Char) :
    (text ++ after).head? ≠ some '*' := by
  cases derived with
  | single only => exact head?_ne_star_of_derivesFactor only after
  | product first later =>
      rw [List.append_assoc]
      exact head?_ne_star_of_derivesFactor first _

/-- A term of the normal form stands in the raw text behind some gaps. -/
theorem exists_product
    {factors : List Factor}
    (derived : DerivesTerm text factors)
    (spells : Spells depth raw (text ++ after) lexemes)
    (outside : depth = 0)
    (follows : FollowsOperand after) :
    ∃ gaps own rest later,
      raw = gaps ++ (own ++ rest) ∧
        AreGaps 0 gaps ∧
        WritesTerm own factors ∧
        lexemes = Factor.productLexemes factors ++ later ∧
        Spells 0 rest after later := by
  subst depth
  induction derived generalizing raw lexemes with
  | @single text factor only =>
      obtain ⟨gaps, own, rest, later, raw_eq, areGaps, written, same, behind⟩ :=
        exists_factor only spells follows
      refine ⟨gaps, own, rest, later, raw_eq, areGaps, .single written, ?_, behind⟩
      simpa [Factor.productLexemes, Factor.laterLexemes] using same
  | @product text rest factor factors first derivedLater inductionHypothesis =>
      rw [List.append_assoc, List.cons_append] at spells
      have followsStar : FollowsOperand ('*' :: (rest ++ after)) := by
        intro d isHead
        cases isHead
        rfl
      obtain ⟨gaps, own, _, _, rfl, areGaps, written, firstLexemes, behind⟩ :=
        exists_factor first spells followsStar
      obtain ⟨gapsBefore, _, _, rfl, areGapsBefore, star, afterStar⟩ :=
        behind.exists_sign rfl rfl
          (fun _ => head?_ne_star_of_derivesTerm derivedLater after)
      obtain ⟨gapsBehind, ownLater, last, later, rfl, areGapsBehind, writtenLater, laterLexemes,
        spellsLater⟩ := inductionHypothesis afterStar
      subst firstLexemes star laterLexemes
      refine ⟨gaps, _, last, later, ?_, areGaps,
        .product written areGapsBefore areGapsBehind writtenLater, ?_, spellsLater⟩
      · simp
      · cases derivedLater <;> simp [Factor.productLexemes, Factor.laterLexemes]

/-- A sum of the normal form stands in the raw text with gaps on both sides. -/
theorem exists_sum
    {negative : Bool}
    {terms : List SignedTerm}
    (derived : DerivesSum negative text terms)
    (spells : Spells 0 raw text lexemes) :
    ∃ gaps own gapsBehind,
      raw = gaps ++ (own ++ gapsBehind) ∧
        AreGaps 0 gaps ∧
        AreGaps 0 gapsBehind ∧
        WritesSum negative own terms ∧
        SignedTerm.signLexeme negative :: lexemes = terms.flatMap SignedTerm.lexemes := by
  induction derived generalizing raw lexemes with
  | @last negative text factors only =>
      rw [← List.append_nil text] at spells
      obtain ⟨gaps, own, rest, later, raw_eq, areGaps, written, same, behind⟩ :=
        exists_product only spells rfl (by simp [FollowsOperand])
      obtain ⟨rfl, gapsBehind⟩ := behind.eq_nil
      refine ⟨gaps, own, rest, raw_eq, areGaps, gapsBehind, .last written, ?_⟩
      simp [SignedTerm.lexemes, same]
  | @signed negative sign text rest factors terms first derivedLater inductionHypothesis =>
      have followsSign : FollowsOperand (signCharacter sign :: rest) := by
        intro d isHead
        cases isHead
        rw [sign?_signCharacter]
        rfl
      obtain ⟨gaps, own, _, _, rfl, areGaps, written, firstLexemes, behind⟩ :=
        exists_product first spells rfl followsSign
      have notStar : signCharacter sign = '*' → rest.head? ≠ some '*' := by
        cases sign <;> simp [signCharacter]
      obtain ⟨gapsBefore, _, _, rfl, areGapsBefore, signLexeme, afterSign⟩ :=
        behind.exists_sign (sign?_signCharacter sign) (symbol?_signCharacter sign) notStar
      have sameDepth : depthAfter 0 (SignedTerm.signLexeme sign) = 0 := by
        cases sign <;> rfl
      rw [sameDepth] at afterSign
      obtain ⟨gapsBehind, ownLater, last, rfl, areGapsBehind, areGapsLast, writtenLater,
        laterLexemes⟩ := inductionHypothesis afterSign
      subst firstLexemes signLexeme
      refine ⟨gaps, _, last, ?_, areGaps, areGapsLast,
        .signed written areGapsBefore areGapsBehind writtenLater, ?_⟩
      · simp
      · rw [laterLexemes, List.flatMap_cons]
        simp [SignedTerm.lexemes]

/-- What spells a derivable expression is plainly written, but for gaps around it. -/
theorem exists_expression
    {terms : List SignedTerm}
    (derived : DerivesExpression text terms)
    (spells : Spells 0 raw text lexemes) :
    ∃ gaps own gapsBehind,
      raw = gaps ++ (own ++ gapsBehind) ∧
        AreGaps 0 gaps ∧
        AreGaps 0 gapsBehind ∧
        WritesExpression own terms ∧
        AreWordsOf terms lexemes ∧
        AreWritten terms := by
  cases derived with
  | unsigned sum =>
      obtain ⟨gaps, own, gapsBehind, raw_eq, areGaps, areGapsBehind, written, words⟩ :=
        exists_sum sum spells
      exact ⟨gaps, own, gapsBehind, raw_eq, areGaps, areGapsBehind, .unsigned written, .inr words,
        written.areWritten⟩
  | @signed negative rest _ sum =>
      have notStar : signCharacter negative = '*' → rest.head? ≠ some '*' := by
        cases negative <;> simp [signCharacter]
      obtain ⟨gaps, _, unsigned, rfl, areGaps, rfl, afterSign⟩ :=
        spells.exists_sign (sign?_signCharacter negative) (symbol?_signCharacter negative) notStar
      have sameDepth : depthAfter 0 (SignedTerm.signLexeme negative) = 0 := by
        cases negative <;> rfl
      rw [sameDepth] at afterSign
      obtain ⟨gapsBetween, own, gapsBehind, rfl, areGapsBetween, areGapsBehind, written, words⟩ :=
        exists_sum sum afterSign
      exact ⟨gaps, _, gapsBehind, by simp, areGaps, areGapsBehind,
        .signed areGapsBetween written, .inl words, written.areWritten⟩

end Formula.Spells

end RootFinding
