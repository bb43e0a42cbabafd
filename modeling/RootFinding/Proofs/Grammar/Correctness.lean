import RootFinding.Expression.Equation
import RootFinding.Proofs.Grammar.Recognition

/-!
# Parsing is correct

A text is parsed exactly if it is derivable without its blanks, and then to the expression that its
derivation denotes. Every other text is refused with a cause of the grammar. Variable numbers of
more digits than are ever read are the one exception, and the only place where a reader stops on a
count of digits.
-/

namespace RootFinding

namespace Grammar

open Outcome Token

section LongNumbers

variable {count : Nat}

/-- Numbers may have any number of digits. -/
theorem not_tooManyDigits_of_ofNumber
    {negated : Bool}
    {text : List Char} :
    Factor.ofNumber negated text ≠ .error (.tooManyDigits count) := by
  intro failed
  unfold Factor.ofNumber at failed
  split at failed <;> cases failed

/-- A variable fails for its digits only where there are too many. -/
theorem long_of_ofVariable
    {digits : List Char}
    (failed : Factor.ofVariable digits = .error (.tooManyDigits count)) :
    variableDigitLimit < digits.length := by
  unfold Factor.ofVariable at failed
  split at failed
  · cases failed
  · split at failed
    · assumption
    · dsimp only at failed
      split at failed <;> cases failed

/-- A factor fails for too many digits only where a variable has them; so every layer above. -/
theorem exists_long_of_recognize
    {words : List Token}
    (failed : Factor.recognize words = .error (.tooManyDigits count)) :
    ∃ digits, .variable digits ∈ words ∧ variableDigitLimit < digits.length := by
  unfold Factor.recognize at failed
  split at failed
  · rename_i text rest
    rcases bind_eq_error_iff.mp failed with literal | ⟨_, _, failed⟩
    · exact absurd literal not_tooManyDigits_of_ofNumber
    · cases failed
  · rename_i digits rest
    rcases bind_eq_error_iff.mp failed with named | ⟨_, _, failed⟩
    · exact ⟨digits, by simp, long_of_ofVariable named⟩
    · cases failed
  · rename_i text rest
    rcases bind_eq_error_iff.mp failed with literal | ⟨_, _, failed⟩
    · exact absurd literal not_tooManyDigits_of_ofNumber
    · cases failed
  · rename_i text rest _
    rcases bind_eq_error_iff.mp failed with literal | ⟨_, _, failed⟩
    · exact absurd literal not_tooManyDigits_of_ofNumber
    · cases failed
  · cases failed
  · cases failed
  · cases failed
  · cases failed

theorem exists_long_of_recognizeProduct
    {words : List Token}
    (cutWords : ∀ word ∈ words, IsCutWord word)
    (failed : Factor.recognizeProduct words = .error (.tooManyDigits count)) :
    ∃ digits, .variable digits ∈ words ∧ variableDigitLimit < digits.length := by
  induction words using Factor.recognizeProduct.induct with
  | _ words inductionHypothesis =>
      cases first : Factor.recognize words with
      | error cause =>
          rw [recognizeProduct_of_error first] at failed
          cases failed
          exact exists_long_of_recognize first
      | ok value =>
          obtain ⟨factor, following, shorter⟩ := value
          by_cases times : ∃ more, following = .times :: more
          · obtain ⟨more, rfl⟩ := times
            rw [recognizeProduct_of_times first] at failed
            cases later : Factor.recognizeProduct more with
            | error cause =>
                rw [later] at failed
                cases failed
                obtain ⟨taken, parts, _⟩ := derivesFactor_of_recognize cutWords first
                have cutMore : ∀ word ∈ more, IsCutWord word :=
                  fun word member => cutWords word (by simp [parts, member])
                obtain ⟨digits, member, long⟩ :=
                  inductionHypothesis _ shorter more rfl cutMore later
                exact ⟨digits, by simp [parts, member], long⟩
            | ok value =>
                rw [later] at failed
                cases failed
          · have last : ∀ more, following ≠ .times :: more :=
              fun more same => times ⟨more, same⟩
            rw [recognizeProduct_of_last first last] at failed
            cases failed

theorem exists_long_of_recognizeSum
    {words : List Token}
    {negative : Bool}
    (cutWords : ∀ word ∈ words, IsCutWord word)
    (failed : SignedTerm.recognizeSum negative words = .error (.tooManyDigits count)) :
    ∃ digits, .variable digits ∈ words ∧ variableDigitLimit < digits.length := by
  induction negative, words using SignedTerm.recognizeSum.induct with
  | _ negative words inductionHypothesis =>
      cases first : Factor.recognizeProduct words with
      | error cause =>
          rw [recognizeSum_of_error first] at failed
          cases failed
          exact exists_long_of_recognizeProduct cutWords first
      | ok value =>
          obtain ⟨factors, following, shorter⟩ := value
          cases following with
          | nil =>
              rw [recognizeSum_of_end first] at failed
              cases failed
          | cons token more =>
              cases signed : SignedTerm.sign? token with
              | none =>
                  rw [recognizeSum_of_other first signed] at failed
                  cases failed
              | some sign =>
                  rw [recognizeSum_of_sign first signed] at failed
                  cases later : SignedTerm.recognizeSum sign more with
                  | error cause =>
                      rw [later] at failed
                      cases failed
                      obtain ⟨taken, parts, _⟩ :=
                        derivesTerm_of_recognizeProduct cutWords first
                      have cutMore : ∀ word ∈ more, IsCutWord word :=
                        fun word member => cutWords word (by simp [parts, member])
                      obtain ⟨digits, member, long⟩ :=
                        inductionHypothesis _ shorter token more rfl sign cutMore later
                      exact ⟨digits, by simp [parts, member], long⟩
                  | ok others =>
                      rw [later] at failed
                      cases failed

end LongNumbers

section WholeExpressions

/-- A sign in front is the sign of the first term. -/
theorem ofTokens_signWord
    (negative : Bool)
    (words : List Token) :
    SignedTerm.ofTokens (signWord negative :: words) =
      SignedTerm.recognizeSum negative words := by
  cases negative <;> rfl

/-- A second sign in front is refused. -/
theorem recognizeSum_signWord
    (before negative : Bool)
    (words : List Token) :
    SignedTerm.recognizeSum before (signWord negative :: words) =
      .error (.unexpectedToken (signWord negative)) := by
  have first :
      Factor.recognize (signWord negative :: words) =
        .error (.unexpectedToken (signWord negative)) := by
    cases negative <;> rfl
  exact recognizeSum_of_error (recognizeProduct_of_error first)

/-- A sign with nothing behind it is refused. -/
theorem recognizeSum_nil (negative : Bool) :
    SignedTerm.recognizeSum negative [] = .error .unexpectedEnd :=
  recognizeSum_of_error (recognizeProduct_of_error rfl)

/-- The words of an expression begin with its sign, or they are a sum. -/
theorem ofTokens_cases (words : List Token) :
    (words = [] ∧ SignedTerm.ofTokens words = .error .empty) ∨
      (∃ negative rest,
        words = signWord negative :: rest ∧
          SignedTerm.ofTokens words = SignedTerm.recognizeSum negative rest) ∨
      SignedTerm.ofTokens words = SignedTerm.recognizeSum false words := by
  match words with
  | [] =>
      exact .inl ⟨rfl, rfl⟩
  | .plus :: rest =>
      exact .inr (.inl ⟨false, rest, rfl, rfl⟩)
  | .minus :: rest =>
      exact .inr (.inl ⟨true, rest, rfl, rfl⟩)
  | .number _ :: _ | .variable _ :: _ | .times :: _ | .opening :: _ | .closing :: _ =>
      exact .inr (.inr rfl)

/-- Words that are read as an expression were derivable. -/
theorem derivesExpression_of_ofTokens
    {words : List Token}
    {written : List SignedTerm}
    (cutWords : ∀ word ∈ words, IsCutWord word)
    (read : SignedTerm.ofTokens words = .ok written) :
    DerivesExpression (words.flatMap characters) written := by
  rcases ofTokens_cases words with ⟨_, empty⟩ | ⟨negative, rest, rfl, signed⟩ | unsigned
  · rw [empty] at read
    cases read
  · rw [signed] at read
    have cutRest : ∀ word ∈ rest, IsCutWord word :=
      fun word member => cutWords word (List.mem_cons_of_mem _ member)
    have derived := derivesSum_of_recognizeSum cutRest read
    rw [List.flatMap_cons, characters_of_termSign (sign?_signWord negative)]
    exact .signed derived
  · rw [unsigned] at read
    exact .unsigned (derivesSum_of_recognizeSum cutWords read)

/-- A sum that is read is what an expression without a sign is read as. -/
theorem ofTokens_of_recognizeSum
    {words : List Token}
    {written : List SignedTerm}
    (read : SignedTerm.recognizeSum false words = .ok written) :
    SignedTerm.ofTokens words = .ok written := by
  rcases ofTokens_cases words with ⟨rfl, _⟩ | ⟨negative, rest, rfl, _⟩ | unsigned
  · rw [recognizeSum_nil] at read
    cases read
  · rw [recognizeSum_signWord] at read
    cases read
  · rw [unsigned, read]

/-- A derivable expression is cut into words that are read, unless a number is too long. -/
theorem exists_words_of_derivesExpression
    {text : List Char}
    {written : List SignedTerm}
    (derived : DerivesExpression text written) :
    ∃ words,
      cut text = .ok words ∧
        ((∀ digits, .variable digits ∈ words → digits.length ≤ variableDigitLimit) →
          SignedTerm.ofTokens words = .ok written) := by
  cases derived with
  | unsigned sum =>
      obtain ⟨words, cuts, recognized⟩ := exists_words_of_derivesSum sum
      exact ⟨words, cuts.cut_eq, fun short => ofTokens_of_recognizeSum (recognized short)⟩
  | @signed negative rest _ sum =>
      obtain ⟨words, cuts, recognized⟩ := exists_words_of_derivesSum sum
      refine ⟨signWord negative :: words,
        (cuts.sign_cons (sign?_signCharacter negative)).cut_eq, fun short => ?_⟩
      rw [ofTokens_signWord]
      exact recognized (fun digits member => short digits (List.mem_cons_of_mem _ member))

/-- An expression fails for too many digits only where a variable has them. -/
theorem exists_long_of_ofTokens
    {count : Nat}
    {words : List Token}
    (cutWords : ∀ word ∈ words, IsCutWord word)
    (failed : SignedTerm.ofTokens words = .error (.tooManyDigits count)) :
    ∃ digits, .variable digits ∈ words ∧ variableDigitLimit < digits.length := by
  rcases ofTokens_cases words with ⟨_, empty⟩ | ⟨negative, rest, rfl, signed⟩ | unsigned
  · rw [empty] at failed
    cases failed
  · rw [signed] at failed
    have cutRest : ∀ word ∈ rest, IsCutWord word :=
      fun word member => cutWords word (List.mem_cons_of_mem _ member)
    obtain ⟨digits, member, long⟩ := exists_long_of_recognizeSum cutRest failed
    exact ⟨digits, List.mem_cons_of_mem _ member, long⟩
  · rw [unsigned] at failed
    exact exists_long_of_recognizeSum cutWords failed

end WholeExpressions

section Texts

variable {K : Type} [Arithmetic K]

/-- A text that can be cut is parsed from its tokens. -/
theorem parse_eq_of_cut
    {text : String}
    {words : List Token}
    (cutting : cut (Text.condensed text.toList) = .ok words) :
    Expression.parse (K := K) text =
      ((SignedTerm.ofTokens words).map (·.map SignedTerm.toTerm)).mapError (.grammar text) := by
  simp only [Expression.parse, Expression.ofText, SignedTerm.ofText, Token.ofText, cutting]
  cases SignedTerm.ofTokens words <;> rfl

/-- A text that cannot be cut is refused for the character that is in the way. -/
theorem parse_eq_of_cut_error
    {text : String}
    {character : Char}
    (cutting : cut (Text.condensed text.toList) = .error character) :
    Expression.parse (K := K) text =
      .error (.grammar text (.unexpectedCharacter character)) := by
  simp only [Expression.parse, Expression.ofText, SignedTerm.ofText, Token.ofText, cutting]
  rfl

/-- A text that is parsed is derivable, and its derivation denotes the expression. -/
theorem exists_derivation_of_parse
    {text : String}
    {expression : Expression K (Fin variableLimit)}
    (parsed : Expression.parse text = .ok expression) :
    ∃ written,
      DerivesExpression (Text.condensed text.toList) written ∧
        List.Forall₂ Denotes written expression := by
  cases cutting : cut (Text.condensed text.toList) with
  | error character =>
      rw [parse_eq_of_cut_error cutting] at parsed
      cases parsed
  | ok words =>
      rw [parse_eq_of_cut cutting] at parsed
      cases read : SignedTerm.ofTokens words with
      | error cause =>
          rw [read] at parsed
          cases parsed
      | ok written =>
          rw [read] at parsed
          cases parsed
          have derived := derivesExpression_of_ofTokens (isCutWord_of_mem_cut cutting) read
          rw [flatMap_characters_cut cutting] at derived
          exact ⟨written, derived, forall₂_denotes_iff.mpr rfl⟩

/-- A derivable text is parsed to what its derivation denotes, unless a number is too long. -/
theorem parse_of_derivesExpression
    {text : String}
    {written : List SignedTerm}
    (short :
      ∀ words, Token.ofText text = .ok words →
        ∀ digits, .variable digits ∈ words → digits.length ≤ variableDigitLimit)
    (derived : DerivesExpression (Text.condensed text.toList) written) :
    Expression.parse (K := K) text = .ok (written.map SignedTerm.toTerm) := by
  obtain ⟨words, cutting, recognized⟩ := exists_words_of_derivesExpression derived
  rw [parse_eq_of_cut cutting, recognized (short words cutting)]
  rfl

/-- A text that is not parsed is refused by the grammar, and not for a count of digits. -/
theorem exists_cause_of_not_parse
    {text : String}
    (short :
      ∀ words, Token.ofText text = .ok words →
        ∀ digits, .variable digits ∈ words → digits.length ≤ variableDigitLimit)
    (refused : ¬∃ expression, Expression.parse (K := K) text = .ok expression) :
    ∃ cause,
      Expression.parse (K := K) text = .error (.grammar text cause) ∧
        ∀ count, cause ≠ .tooManyDigits count := by
  cases cutting : cut (Text.condensed text.toList) with
  | error character =>
      exact ⟨_, parse_eq_of_cut_error cutting, fun count same => by cases same⟩
  | ok words =>
      have outcome := parse_eq_of_cut (K := K) cutting
      cases read : SignedTerm.ofTokens words with
      | error cause =>
          rw [read] at outcome
          refine ⟨cause, outcome, ?_⟩
          rintro count rfl
          obtain ⟨digits, member, long⟩ :=
            exists_long_of_ofTokens (isCutWord_of_mem_cut cutting) read
          exact absurd (short words cutting digits member) (Nat.not_le.mpr long)
      | ok written =>
          rw [read] at outcome
          exact absurd ⟨_, outcome⟩ refused

/--
A text whose variable numbers are not too long is parsed exactly if it is derivable without its
blanks and with points for commas. Every derivation then denotes the expression, and all other texts
are refused with a cause of the grammar.
-/
theorem parse_iff_derivable
    (text : String)
    (short :
      ∀ words, Token.ofText text = .ok words →
        ∀ digits, .variable digits ∈ words → digits.length ≤ variableDigitLimit) :
    ((∃ expression, Expression.parse (K := K) text = .ok expression) ↔
        ∃ written, DerivesExpression (Text.condensed text.toList) written) ∧
      (∀ expression written,
        Expression.parse (K := K) text = .ok expression →
          DerivesExpression (Text.condensed text.toList) written →
            List.Forall₂ Denotes written expression) ∧
      ((¬∃ written, DerivesExpression (Text.condensed text.toList) written) →
        ∃ cause,
          Expression.parse (K := K) text = .error (.grammar text cause) ∧
            ∀ count, cause ≠ .tooManyDigits count) := by
  refine ⟨⟨?_, ?_⟩, ?_, ?_⟩
  · rintro ⟨expression, parsed⟩
    obtain ⟨written, derived, _⟩ := exists_derivation_of_parse parsed
    exact ⟨written, derived⟩
  · rintro ⟨written, derived⟩
    exact ⟨_, parse_of_derivesExpression short derived⟩
  · intro expression written parsed derived
    rw [parse_of_derivesExpression short derived] at parsed
    cases parsed
    exact forall₂_denotes_iff.mpr rfl
  · intro underivable
    apply exists_cause_of_not_parse short
    rintro ⟨expression, parsed⟩
    obtain ⟨written, derived, _⟩ := exists_derivation_of_parse parsed
    exact underivable ⟨written, derived⟩

/-- Blanks join the parts of a number, and a parenthesised literal brings its own sign. -/
theorem parse_two_terms :
    ∃ written,
      DerivesExpression (Text.condensed "2,5 * x1*x02 - (-.5 0)".toList) written ∧
        List.Forall₂ Denotes written
          ([⟨2.5, .product ⟨0, by decide⟩ ⟨1, by decide⟩⟩, ⟨0.5, .one⟩] :
            Expression Float (Fin variableLimit)) := by
  have cutting :
      Token.ofText "2,5 * x1*x02 - (-.5 0)" =
        .ok [.number ['2', '.', '5'], .times, .variable ['1'], .times, .variable ['0', '2'],
          .minus, .opening, .minus, .number ['.', '5', '0'], .closing] := by
    decide +kernel
  have parsed :
      Expression.parse (K := Float) "2,5 * x1*x02 - (-.5 0)" =
        .ok [⟨2.5, .product ⟨0, by decide⟩ ⟨1, by decide⟩⟩, ⟨0.5, .one⟩] := by
    decide +kernel
  obtain ⟨accepted, denoted, _⟩ :=
    parse_iff_derivable (K := Float) "2,5 * x1*x02 - (-.5 0)" (by
      intro words read digits member
      rw [cutting] at read
      cases read
      simp at member
      rcases member with rfl | rfl <;> decide)
  obtain ⟨written, derived⟩ := accepted.mp ⟨_, parsed⟩
  exact ⟨written, derived, denoted _ written parsed derived⟩

end Texts

end Grammar

end RootFinding
