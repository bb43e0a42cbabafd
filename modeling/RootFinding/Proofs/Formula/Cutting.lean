import RootFinding.Proofs.Formula.Reading

/-!
# Plainly written expressions are read

The words of a plainly written expression are cut one after the other: gaps are skipped, and behind
an operand stands nothing with which it would go on. So the check reads such a text as the formula
of its terms. Together with what a formula that was read tells of its text, an expression that the
solver reads is read by the check exactly if it is plainly written.
-/

namespace RootFinding

open Grammar Lexeme Verification

/-- The text is cut into the lexemes when the zeros in front of variable numbers are gone. -/
def CutsInto (depth : Nat) (text : List Char) (lexemes : List Lexeme) : Prop :=
  ∀ fuel,
    (withoutLeadingZeros text).length ≤ fuel →
      Lexeme.cut fuel depth (withoutLeadingZeros text) = some lexemes

namespace CutsInto

variable {depth : Nat} {text gaps rest : List Char} {lexemes : List Lexeme}

theorem nil : CutsInto depth [] [] := by
  intro fuel _
  rw [withoutLeadingZeros]
  cases fuel <;> rfl

/-- The next word is cut off a text, and what is behind it is cut on. -/
private theorem word
    {c : Char}
    {run : List Char}
    {lexeme : Lexeme}
    {next : Nat}
    (later : CutsInto next rest lexemes)
    (isNext : depthAfter depth lexeme = next)
    (solid : isSolid c = true)
    (kept : withoutLeadingZeros text = c :: (run ++ withoutLeadingZeros rest))
    (read :
      first? (c :: (run ++ withoutLeadingZeros rest)) =
        some (lexeme, withoutLeadingZeros rest)) :
    CutsInto depth text (lexeme :: lexemes) := by
  have notGap (gap : Char) (isGap : Text.isBlank gap = true) : c ≠ gap := by
    rintro rfl
    rw [not_isBlank_of_isSolid solid] at isGap
    cases isGap
  have noGap : isGap c = false := by
    have notFormFeed : c.toNat ≠ 0x0C := fun code =>
      notGap '\x0c' (by decide) (Char.toNat_inj.mp code)
    simp [isGap, notGap ' ' (by decide), notGap '\t' (by decide), notFormFeed]
  have noLineEnd : endsLine c = false := by
    simp [endsLine, notGap '\n' (by decide), notGap '\r' (by decide)]
  intro fuel enough
  rw [kept] at enough ⊢
  cases fuel with
  | zero => cases enough
  | succ fuel =>
      have stillEnough : (withoutLeadingZeros rest).length ≤ fuel := by
        rw [List.length_cons, List.length_append] at enough
        omega
      rw [Lexeme.cut, noGap, noLineEnd, read]
      subst next
      exact Option.bind_eq_some_iff.mpr ⟨lexemes, later fuel stillEnough, rfl⟩

/-- No gap holds the letter of a variable. -/
theorem ne_x_of_areGaps
    (areGaps : AreGaps depth gaps)
    {c : Char}
    (member : c ∈ gaps) :
    c ≠ 'x' := by
  rintro rfl
  have isGap := areGaps 'x' member
  cases isGap

/-- Gaps in front of a text do not change what it is cut into. -/
theorem behind_gaps
    (later : CutsInto depth rest lexemes)
    (areGaps : AreGaps depth gaps) :
    CutsInto depth (gaps ++ rest) lexemes := by
  intro fuel enough
  rw [withoutLeadingZeros_append (fun c => ne_x_of_areGaps areGaps)] at enough ⊢
  induction gaps generalizing fuel with
  | nil => exact later fuel enough
  | cons c gaps inductionHypothesis =>
      obtain ⟨first, others⟩ := List.forall_mem_cons.mp areGaps
      cases fuel with
      | zero => cases enough
      | succ fuel =>
          rw [List.cons_append, Lexeme.cut, if_pos first]
          exact inductionHypothesis others fuel (Nat.le_of_succ_le_succ enough)

/-- A sign is cut off unless it is half of a power sign. -/
theorem sign
    {c : Char}
    {word : Token}
    {lexeme : Lexeme}
    (later : CutsInto (depthAfter depth lexeme) rest lexemes)
    (isSign : Token.sign? c = some word)
    (single : symbol? [c] = some (lexeme, []))
    (alone : c = '*' → rest.head? ≠ some '*') :
    CutsInto depth (c :: rest) (lexeme :: lexemes) := by
  have notX : c ≠ 'x' := by
    rintro rfl
    cases isSign
  have stillAlone : c = '*' → (withoutLeadingZeros rest).head? ≠ some '*' := by
    rwa [head?_withoutLeadingZeros]
  have read := first?_of_sign isSign single stillAlone
  have kept : withoutLeadingZeros (c :: rest) = c :: ([] ++ withoutLeadingZeros rest) :=
    withoutLeadingZeros_cons notX rest
  exact later.word rfl (isSolid_of_sign isSign) kept read

/-- A number is cut off as one numeral where an operand may end. -/
theorem numeral
    {digits decimals : Nat}
    (later : CutsInto depth rest lexemes)
    (number : WritesNumber text digits decimals)
    (ends : ∀ c ∈ rest.head?, EndsOperand c) :
    CutsInto depth (text ++ rest) (.numeral digits (-(decimals : Int)) :: lexemes) := by
  have numeric := number.derives.numeric
  have notX : ∀ c ∈ text, c ≠ 'x' := by
    rintro _ member rfl
    cases numeric 'x' member
  have endsBehind : ∀ c ∈ (withoutLeadingZeros rest).head?, EndsOperand c := by
    rwa [head?_withoutLeadingZeros]
  have read := numeral?_of_writesNumber number endsBehind
  have kept := withoutLeadingZeros_append notX rest
  obtain ⟨c, run, rfl⟩ := List.exists_cons_of_ne_nil number.derives.nonempty
  have isNumeric := numeric c List.mem_cons_self
  have solid : isSolid c = true := by
    simp only [Token.isNumeric, Bool.or_eq_true, decide_eq_true_eq] at isNumeric
    rcases isNumeric with digit | rfl
    · rw [isSolid, continuesName_of_isDigit digit, Bool.true_or]
    · decide
  refine later.word rfl solid kept ?_
  rw [first?_of_isNumeric isNumeric]
  exact read

/-- A variable is cut off as one name, whose leading zeros are gone. -/
theorem name
    {index : Nat}
    (later : CutsInto depth rest lexemes)
    (digits : IsDigits text)
    (value : Text.digitsValue text = index + 1)
    (ends : ∀ c ∈ rest.head?, EndsOperand c) :
    CutsInto depth ('x' :: text ++ rest) (.name (nameOf index) :: lexemes) := by
  have notDigit : ∀ c ∈ rest.head?, c.isDigit = false :=
    fun c isHead => (ends c isHead).not_isDigit
  have endsBehind : ∀ c ∈ (withoutLeadingZeros rest).head?, EndsOperand c := by
    rwa [head?_withoutLeadingZeros]
  have kept := withoutLeadingZeros_name digits value notDigit
  have plain : ∀ c ∈ Nat.toDigits 10 (index + 1), c.isDigit = true :=
    fun c member => Nat.isDigit_of_mem_toDigits (by decide) (by decide) member
  exact later.word rfl (by decide) kept (first?_of_name plain endsBehind)

/-- A gap ends an operand. -/
theorem endsOperand_of_areGaps
    (areGaps : AreGaps depth gaps)
    (ends : ∀ c ∈ rest.head?, EndsOperand c) :
    ∀ c ∈ (gaps ++ rest).head?, EndsOperand c := by
  cases gaps with
  | nil => exact ends
  | cons first gaps =>
      intro c isHead
      cases isHead
      exact endsOperand_of_isBlank (areGaps.isBlank List.mem_cons_self)

theorem endsOperand_behind_sign
    {c : Char}
    {word : Token}
    (isSign : Token.sign? c = some word) :
    ∀ d ∈ (c :: rest).head?, EndsOperand d := by
  intro d isHead
  cases isHead
  exact endsOperand_of_sign isSign

/-- A factor is cut into its own lexemes. -/
theorem factor
    {factor : Factor}
    (later : CutsInto depth rest lexemes)
    (written : WritesFactor text factor)
    (ends : ∀ c ∈ rest.head?, EndsOperand c) :
    CutsInto depth (text ++ rest) (factor.lexemes ++ lexemes) := by
  cases written with
  | number number => exact later.numeral number ends
  | «variable» digits value => exact later.name digits value ends
  | @negated beforeSign beforeNumber text behind digits decimals gapsBeforeSign gapsBeforeNumber
      number gapsBehind =>
      have inner {gaps : List Char} (areGaps : AreGaps 1 gaps) : AreGaps (depth + 1) gaps := by
        simpa [AreGaps] using areGaps
      have closed : CutsInto (depth + 1) (')' :: rest) (.closing :: lexemes) :=
        sign later rfl rfl (by simp)
      have isClosing : Token.sign? ')' = some .closing := rfl
      have endsNumber : ∀ c ∈ (behind ++ ')' :: rest).head?, EndsOperand c :=
        endsOperand_of_areGaps gapsBehind (endsOperand_behind_sign isClosing)
      have unsigned := (closed.behind_gaps (inner gapsBehind)).numeral number endsNumber
      have signed :
          CutsInto (depth + 1) ('-' :: (beforeNumber ++ (text ++ (behind ++ ')' :: rest))))
            (.minus :: .numeral digits (-(decimals : Int)) :: .closing :: lexemes) :=
        sign (unsigned.behind_gaps (inner gapsBeforeNumber)) rfl rfl (by simp)
      have opened :
          CutsInto depth
            ('(' :: (beforeSign ++ '-' :: (beforeNumber ++ (text ++ (behind ++ ')' :: rest)))))
            (.opening :: .minus :: .numeral digits (-(decimals : Int)) :: .closing :: lexemes) :=
        sign (signed.behind_gaps (inner gapsBeforeSign)) rfl rfl (by simp)
      simpa [Factor.lexemes] using opened

/-- No plainly written term begins with a star, nor does one behind gaps. -/
theorem head?_ne_star
    {factors : List Factor}
    (written : WritesTerm text factors)
    (areGaps : AreGaps depth gaps) :
    (gaps ++ (text ++ rest)).head? ≠ some '*' := by
  cases gaps with
  | cons first gaps =>
      intro isHead
      cases isHead
      cases areGaps '*' List.mem_cons_self
  | nil =>
      have ofFactor {text rest : List Char} {factor : Factor} (written : WritesFactor text factor) :
          (text ++ rest).head? ≠ some '*' := by
        cases written with
        | number number =>
            exact Formula.Spells.head?_ne_star_of_derivesFactor (.number number.derives) rest
        | negated => simp
        | «variable» => simp
      cases written with
      | single only =>
          rw [List.nil_append]
          exact ofFactor only
      | product first =>
          rw [List.nil_append, List.append_assoc]
          exact ofFactor first

/-- A term is cut into its factors with signs of multiplication between them. -/
theorem term
    {factors : List Factor}
    (later : CutsInto 0 rest lexemes)
    (written : WritesTerm text factors)
    (ends : ∀ c ∈ rest.head?, EndsOperand c) :
    CutsInto 0 (text ++ rest) (Factor.productLexemes factors ++ lexemes) := by
  induction written with
  | single only => simpa [Factor.productLexemes, Factor.laterLexemes] using later.factor only ends
  | @product text before behind others factor factors first gapsBefore gapsBehind others_written
      inductionHypothesis =>
      have starred :
          CutsInto 0 ('*' :: (behind ++ (others ++ rest)))
            (.times :: (Factor.productLexemes factors ++ lexemes)) :=
        sign (inductionHypothesis.behind_gaps gapsBehind) rfl rfl
          (fun _ => head?_ne_star others_written gapsBehind)
      have isTimes : Token.sign? '*' = some .times := rfl
      have ended :
          ∀ c ∈ (before ++ '*' :: (behind ++ (others ++ rest))).head?, EndsOperand c :=
        endsOperand_of_areGaps gapsBefore (endsOperand_behind_sign isTimes)
      have whole := (starred.behind_gaps gapsBefore).factor first ended
      cases others_written <;>
        simpa [Factor.productLexemes, Factor.laterLexemes] using whole

/-- A sum is cut into its terms, with the first sign put in front. -/
theorem sum
    {negative : Bool}
    {terms : List SignedTerm}
    (written : WritesSum negative text terms) :
    ∃ lexemes,
      CutsInto 0 text lexemes ∧
        SignedTerm.signLexeme negative :: lexemes = terms.flatMap SignedTerm.lexemes := by
  induction written with
  | @last negative text factors only =>
      have whole := nil.term only (by simp)
      rw [List.append_nil] at whole
      exact ⟨_, whole, by simp [SignedTerm.lexemes]⟩
  | @signed negative sign text before behind rest factors terms first gapsBefore gapsBehind later
      inductionHypothesis =>
      obtain ⟨lexemes, laterCut, words⟩ := inductionHypothesis
      have isSign := sign?_signCharacter sign
      have sameDepth : depthAfter 0 (SignedTerm.signLexeme sign) = 0 := by
        cases sign <;> rfl
      have notStar : signCharacter sign = '*' → (behind ++ rest).head? ≠ some '*' := by
        cases sign <;> simp [signCharacter]
      have signed : CutsInto 0 (signCharacter sign :: (behind ++ rest)) _ :=
        CutsInto.sign (sameDepth.symm ▸ laterCut.behind_gaps gapsBehind) isSign
          (Formula.Spells.symbol?_signCharacter sign) notStar
      have ended :
          ∀ c ∈ (before ++ signCharacter sign :: (behind ++ rest)).head?, EndsOperand c :=
        endsOperand_of_areGaps gapsBefore (endsOperand_behind_sign isSign)
      refine ⟨_, (signed.behind_gaps gapsBefore).term first ended, ?_⟩
      rw [List.flatMap_cons, ← words]
      simp [SignedTerm.lexemes]

/-- An expression is cut into words of the terms that it is written for. -/
theorem expression
    {terms : List SignedTerm}
    (written : WritesExpression text terms) :
    ∃ lexemes, CutsInto 0 text lexemes ∧ AreWordsOf terms lexemes ∧ AreWritten terms := by
  cases written with
  | unsigned sum =>
      obtain ⟨lexemes, cut, words⟩ := CutsInto.sum sum
      exact ⟨lexemes, cut, .inr words, sum.areWritten⟩
  | @signed negative gaps text _ areGaps sum =>
      obtain ⟨lexemes, cut, words⟩ := CutsInto.sum sum
      have sameDepth : depthAfter 0 (SignedTerm.signLexeme negative) = 0 := by
        cases negative <;> rfl
      have notStar : signCharacter negative = '*' → (gaps ++ text).head? ≠ some '*' := by
        cases negative <;> simp [signCharacter]
      exact ⟨_,
        CutsInto.sign (sameDepth.symm ▸ cut.behind_gaps areGaps) (sign?_signCharacter negative)
          (Formula.Spells.symbol?_signCharacter negative) notStar,
        .inl words, sum.areWritten⟩

end CutsInto

/-- A plainly written expression is read as the formula of its terms. -/
theorem Formula.ofText?_of_writesExpression
    {text : List Char}
    {terms : List SignedTerm}
    (written : WritesExpression text terms) :
    ofText? (withoutLeadingZeros text) = some (ofTerms terms) := by
  obtain ⟨lexemes, cut, words, areWritten⟩ := CutsInto.expression written
  exact ofText?_of_areWordsOf words areWritten (cut _ (Nat.le_refl _))

end RootFinding
