import RootFinding.Proofs.Grammar.Words

/-!
# The recognizers accept exactly the derivable texts

Each recognizer is opened once, by one equation for every way in which it goes on. From these follow
both directions: what a recognizer read was derivable, and the words of a derivable text are read
to their end. A variable number of too many digits is the one cause for which a derivable text is
refused.
-/

namespace RootFinding

namespace Grammar

open Outcome Token

section Numbers

theorem isDigit_point : Char.isDigit '.' = false := by
  decide

private theorem count_point_of_digits
    {text : List Char}
    (plain : ∀ c ∈ text, c.isDigit = true) :
    text.count '.' = 0 := by
  rw [List.count_eq_zero]
  intro member
  have digit := plain '.' member
  rw [isDigit_point] at digit
  cases digit

theorem DerivesNumber.nonempty
    {text : List Char}
    {digits decimals : Nat}
    (number : DerivesNumber text digits decimals) :
    text ≠ [] := by
  cases number with
  | whole run =>
      exact run.nonempty
  | pointed run =>
      simp

theorem DerivesNumber.numeric
    {text : List Char}
    {digits decimals : Nat}
    (number : DerivesNumber text digits decimals) :
    ∀ c ∈ text, isNumeric c = true := by
  intro c member
  cases number with
  | whole run =>
      exact isNumeric_of_isDigit (run.plain c member)
  | pointed run =>
      rcases List.mem_append.mp member with inWhole | inRest
      · exact isNumeric_of_isDigit (run.plain c (List.mem_append_left _ inWhole))
      · rcases List.mem_cons.mp inRest with rfl | inDecimals
        · decide
        · exact isNumeric_of_isDigit (run.plain c (List.mem_append_right _ inDecimals))

/-- A derivable number is read as the literal that it stands for. -/
theorem ofNumber_of_derivesNumber
    {text : List Char}
    {digits decimals : Nat}
    (number : DerivesNumber text digits decimals)
    (negated : Bool) :
    Factor.ofNumber negated text = .ok (.literal negated digits decimals) := by
  cases number with
  | whole run =>
      have noPoint := count_point_of_digits run.plain
      have notPoint : text ≠ ['.'] := by
        intro same
        subst text
        simp at noPoint
      have ends : ∀ c ∈ ([] : List Char).head?, c.isDigit = false := by simp
      obtain ⟨taken, dropped⟩ := takeWhile_dropWhile_of_run run.plain ends
      rw [List.append_nil] at taken dropped
      simp [Factor.ofNumber, noPoint, notPoint, taken, dropped]
  | @pointed whole decimals run =>
      have wholePlain : ∀ c ∈ whole, c.isDigit = true :=
        fun c member => run.plain c (List.mem_append_left _ member)
      have decimalsPlain : ∀ c ∈ decimals, c.isDigit = true :=
        fun c member => run.plain c (List.mem_append_right _ member)
      have onePoint : (whole ++ '.' :: decimals).count '.' = 1 := by
        simp [count_point_of_digits wholePlain, count_point_of_digits decimalsPlain]
      have notPoint : whole ++ '.' :: decimals ≠ ['.'] := by
        intro same
        apply run.nonempty
        cases whole with
        | nil =>
            simpa using same
        | cons c rest =>
            simp at same
      have ends : ∀ c ∈ ('.' :: decimals).head?, c.isDigit = false := by
        simp [isDigit_point]
      obtain ⟨taken, dropped⟩ := takeWhile_dropWhile_of_run wholePlain ends
      simp [Factor.ofNumber, onePoint, notPoint, taken, dropped]

theorem DerivesNumber.count_point_le
    {text : List Char}
    {digits decimals : Nat}
    (number : DerivesNumber text digits decimals) :
    text.count '.' ≤ 1 := by
  by_contra many
  have read := ofNumber_of_derivesNumber number false
  simp [Factor.ofNumber, Nat.not_le.mp many] at read

/-- A number stands for one literal. -/
theorem DerivesNumber.unique
    {text : List Char}
    {digits decimals otherDigits otherDecimals : Nat}
    (number : DerivesNumber text digits decimals)
    (other : DerivesNumber text otherDigits otherDecimals) :
    digits = otherDigits ∧ decimals = otherDecimals := by
  have read := ofNumber_of_derivesNumber number false
  rw [ofNumber_of_derivesNumber other] at read
  cases read
  exact ⟨rfl, rfl⟩

/-- Without a point, a run of a number is digits only. -/
private theorem isDigit_of_count_point_eq_zero
    {text : List Char}
    (numeric : ∀ c ∈ text, isNumeric c = true)
    (noPoint : text.count '.' = 0) :
    ∀ c ∈ text, c.isDigit = true := by
  intro c member
  have different : c ≠ '.' := by
    rintro rfl
    exact List.count_eq_zero.mp noPoint member
  simpa [isNumeric, different] using numeric c member

/-- With at most one point a word of digits and points is digits, or digits around a point. -/
theorem numeric_cases
    {text : List Char}
    (numeric : ∀ c ∈ text, isNumeric c = true)
    (fewPoints : text.count '.' ≤ 1) :
    (∀ c ∈ text, c.isDigit = true) ∨
      ∃ whole decimals,
        text = whole ++ '.' :: decimals ∧ ∀ c ∈ whole ++ decimals, c.isDigit = true := by
  induction text with
  | nil =>
      left
      simp
  | cons c rest inductionHypothesis =>
      have numericRest : ∀ c ∈ rest, isNumeric c = true :=
        fun c member => numeric c (List.mem_cons_of_mem _ member)
      by_cases point : c = '.'
      · right
        subst c
        rw [List.count_cons_self] at fewPoints
        have noPoint : rest.count '.' = 0 := by omega
        exact ⟨[], rest, rfl, isDigit_of_count_point_eq_zero numericRest noPoint⟩
      · have digit : c.isDigit = true := by
          simpa [isNumeric, point] using numeric c List.mem_cons_self
        rw [List.count_cons_of_ne point] at fewPoints
        rcases inductionHypothesis numericRest fewPoints with plain | ⟨whole, decimals, parts, plain⟩
        · left
          exact List.forall_mem_cons.mpr ⟨digit, plain⟩
        · right
          subst rest
          exact ⟨c :: whole, decimals, rfl, List.forall_mem_cons.mpr ⟨digit, plain⟩⟩

/-- A word of digits and points that is read as a literal is a derivable number. -/
theorem derivesNumber_of_ofNumber
    {text : List Char}
    {negated : Bool}
    {factor : Factor}
    (nonempty : text ≠ [])
    (numeric : ∀ c ∈ text, isNumeric c = true)
    (read : Factor.ofNumber negated text = .ok factor) :
    ∃ digits decimals,
      DerivesNumber text digits decimals ∧ factor = .literal negated digits decimals := by
  by_cases malformed : 1 < text.count '.' ∨ text = ['.']
  · simp [Factor.ofNumber, malformed] at read
  · obtain ⟨fewPoints, notPoint⟩ := not_or.mp malformed
    rcases numeric_cases numeric (Nat.not_lt.mp fewPoints) with
      plain | ⟨whole, decimals, rfl, plain⟩
    · have number := DerivesNumber.whole ⟨nonempty, plain⟩
      rw [ofNumber_of_derivesNumber number] at read
      cases read
      exact ⟨_, _, number, rfl⟩
    · have someDigit : whole ++ decimals ≠ [] := by
        intro none
        obtain ⟨rfl, rfl⟩ := List.append_eq_nil_iff.mp none
        exact notPoint rfl
      have number := DerivesNumber.pointed ⟨someDigit, plain⟩
      rw [ofNumber_of_derivesNumber number] at read
      cases read
      exact ⟨_, _, number, rfl⟩

/-- Digits that are not too many and spell an admissible number make a variable. -/
theorem ofVariable_of_digits
    {text : List Char}
    {index : Fin variableLimit}
    (digits : IsDigits text)
    (value : Text.digitsValue text = index.val + 1)
    (short : text.length ≤ variableDigitLimit) :
    Factor.ofVariable text = .ok (.variable index) := by
  have inside : 1 ≤ index.val + 1 ∧ index.val + 1 ≤ variableLimit :=
    ⟨Nat.succ_pos _, index.isLt⟩
  have notLong : ¬variableDigitLimit < text.length := Nat.not_lt.mpr short
  simp [Factor.ofVariable, digits.nonempty, notLong, value, inside]

/-- What is read as a variable is derived as one. -/
theorem derivesFactor_of_ofVariable
    {text : List Char}
    {factor : Factor}
    (plain : ∀ c ∈ text, c.isDigit = true)
    (read : Factor.ofVariable text = .ok factor) :
    DerivesFactor ('x' :: text) factor := by
  unfold Factor.ofVariable at read
  split at read
  · cases read
  · rename_i notEmpty
    split at read
    · cases read
    · dsimp only at read
      split at read
      · rename_i inside
        cases read
        refine .variable ⟨by simpa using notEmpty, plain⟩ ?_
        exact (Nat.sub_add_cancel inside.1).symm
      · cases read

end Numbers

section Factors

/-- A recognized factor was derivable from the words that were read. -/
theorem derivesFactor_of_recognize
    {words rest : List Token}
    {factor : Factor}
    {shorter : rest.length < words.length}
    (cutWords : ∀ word ∈ words, IsCutWord word)
    (read : Factor.recognize words = .ok (factor, ⟨rest, shorter⟩)) :
    ∃ taken,
      words = taken ++ rest ∧ DerivesFactor (taken.flatMap characters) factor := by
  unfold Factor.recognize at read
  split at read
  · rename_i text rest
    obtain ⟨value, literal, read⟩ := bind_eq_ok_iff.mp read
    cases read
    obtain ⟨nonempty, numeric⟩ : IsCutWord (.number text) := cutWords _ (by simp)
    obtain ⟨digits, decimals, number, rfl⟩ :=
      derivesNumber_of_ofNumber nonempty numeric literal
    exact ⟨[.number text], rfl, by simpa [characters] using .number number⟩
  · rename_i text rest
    obtain ⟨value, named, read⟩ := bind_eq_ok_iff.mp read
    cases read
    have plain : IsCutWord (.variable text) := cutWords _ (by simp)
    exact ⟨[.variable text], rfl, by
      simpa [characters] using derivesFactor_of_ofVariable plain named⟩
  · rename_i text rest
    obtain ⟨value, literal, read⟩ := bind_eq_ok_iff.mp read
    cases read
    obtain ⟨nonempty, numeric⟩ : IsCutWord (.number text) := cutWords _ (by simp)
    obtain ⟨digits, decimals, number, rfl⟩ :=
      derivesNumber_of_ofNumber nonempty numeric literal
    exact ⟨[.opening, .minus, .number text, .closing], rfl, by
      simpa [characters] using .negated number⟩
  · -- Without its closing parenthesis a literal is refused, whatever its text is read as.
    obtain ⟨_, _, read⟩ := bind_eq_ok_iff.mp read
    cases read
  · cases read
  · cases read
  · cases read
  · cases read

/-- A derivable factor is cut into words that are recognized, unless a number is too long. -/
theorem exists_words_of_derivesFactor
    {text : List Char}
    {factor : Factor}
    (derived : DerivesFactor text factor) :
    ∃ words,
      CutsTo text words ∧
        ((∀ digits, .variable digits ∈ words → digits.length ≤ variableDigitLimit) →
          ∀ rest, ∃ shorter,
            Factor.recognize (words ++ rest) = .ok (factor, ⟨rest, shorter⟩)) := by
  cases derived with
  | number number =>
      refine ⟨[.number text], fun after ends => ?_, fun _ rest => ⟨by simp, ?_⟩⟩
      · exact cut_numeric_append number.nonempty number.numeric ends
      · simp [Factor.recognize, ofNumber_of_derivesNumber number, bind, Except.bind, pure,
          Except.pure]
  | @negated inner digits decimals number =>
      refine ⟨[.opening, .minus, .number inner, .closing], ?_, fun _ rest => ⟨by simp; omega, ?_⟩⟩
      · have innerCuts : CutsTo inner [.number inner] :=
          fun after ends => cut_numeric_append number.nonempty number.numeric ends
        have closed : CutsTo (inner ++ [')']) ([.number inner] ++ [.closing]) :=
          innerCuts.append (cutsTo_sign rfl) (fun _ _ => endsWord_cons (by decide))
        exact (closed.sign_cons (c := '-') rfl).sign_cons (c := '(') rfl
      · simp [Factor.recognize, ofNumber_of_derivesNumber number, bind, Except.bind, pure,
          Except.pure]
  | @«variable» digits index run value =>
      refine ⟨[.variable digits], fun after ends => ?_, fun short rest => ⟨by simp, ?_⟩⟩
      · exact cut_variable_append run.plain ends
      · have shortDigits : digits.length ≤ variableDigitLimit := short digits (by simp)
        simp [Factor.recognize, ofVariable_of_digits run value shortDigits, bind, Except.bind,
          pure, Except.pure]

end Factors

section Products

theorem recognizeProduct_of_error
    {words : List Token}
    {cause : GrammarError}
    (first : Factor.recognize words = .error cause) :
    Factor.recognizeProduct words = .error cause := by
  rw [Factor.recognizeProduct, first]
  rfl

/-- A product ends with a factor that no sign of multiplication follows. -/
theorem recognizeProduct_of_last
    {words rest : List Token}
    {factor : Factor}
    {shorter : rest.length < words.length}
    (first : Factor.recognize words = .ok (factor, ⟨rest, shorter⟩))
    (last : ∀ more, rest ≠ .times :: more) :
    Factor.recognizeProduct words = .ok ([factor], ⟨rest, shorter⟩) := by
  rw [Factor.recognizeProduct, first]
  simp only [bind, Except.bind]
  rfl

/-- A sign of multiplication carries a product on. -/
theorem recognizeProduct_of_times
    {words more : List Token}
    {factor : Factor}
    {shorter : (Token.times :: more).length < words.length}
    (first : Factor.recognize words = .ok (factor, ⟨.times :: more, shorter⟩)) :
    Factor.recognizeProduct words =
      (Factor.recognizeProduct more).map fun (others, after) =>
        (factor :: others,
          ⟨after.val, Nat.lt_trans after.property (Nat.lt_of_succ_lt shorter)⟩) := by
  rw [Factor.recognizeProduct, first]
  simp only [bind, Except.bind]
  cases Factor.recognizeProduct more <;> rfl

/-- A recognized product was derivable from the words that were read. -/
theorem derivesTerm_of_recognizeProduct
    {words rest : List Token}
    {factors : List Factor}
    {shorter : rest.length < words.length}
    (cutWords : ∀ word ∈ words, IsCutWord word)
    (read : Factor.recognizeProduct words = .ok (factors, ⟨rest, shorter⟩)) :
    ∃ taken,
      words = taken ++ rest ∧ DerivesTerm (taken.flatMap characters) factors := by
  -- The induction follows the recognizer, which starts again behind every star.
  induction words using Factor.recognizeProduct.induct generalizing factors rest with
  | _ words inductionHypothesis =>
      cases first : Factor.recognize words with
      | error cause =>
          rw [recognizeProduct_of_error first] at read
          cases read
      | ok value =>
          obtain ⟨factor, following, followingShorter⟩ := value
          obtain ⟨taken, parts, derived⟩ := derivesFactor_of_recognize cutWords first
          by_cases times : ∃ more, following = .times :: more
          · obtain ⟨more, rfl⟩ := times
            rw [recognizeProduct_of_times first] at read
            cases later : Factor.recognizeProduct more with
            | error cause =>
                rw [later] at read
                cases read
            | ok value =>
                obtain ⟨others, after, afterShorter⟩ := value
                rw [later] at read
                cases read
                have cutMore : ∀ word ∈ more, IsCutWord word :=
                  fun word member => cutWords word (by simp [parts, member])
                obtain ⟨takenLater, partsLater, derivedLater⟩ :=
                  inductionHypothesis _ followingShorter more rfl cutMore later
                refine ⟨taken ++ .times :: takenLater, by simp [parts, partsLater], ?_⟩
                simpa [characters] using DerivesTerm.product derived derivedLater
          · have last : ∀ more, following ≠ .times :: more :=
              fun more same => times ⟨more, same⟩
            rw [recognizeProduct_of_last first last] at read
            cases read
            exact ⟨taken, parts, .single derived⟩

/-- A derivable term is cut into words that are recognized, unless a number is too long. -/
theorem exists_words_of_derivesTerm
    {text : List Char}
    {factors : List Factor}
    (derived : DerivesTerm text factors) :
    ∃ words,
      CutsTo text words ∧
        ((∀ digits, .variable digits ∈ words → digits.length ≤ variableDigitLimit) →
          ∀ rest, (∀ more, rest ≠ .times :: more) →
            ∃ shorter,
              Factor.recognizeProduct (words ++ rest) = .ok (factors, ⟨rest, shorter⟩)) := by
  induction derived with
  | single only =>
      obtain ⟨words, cuts, recognized⟩ := exists_words_of_derivesFactor only
      refine ⟨words, cuts, fun short rest last => ?_⟩
      obtain ⟨shorter, first⟩ := recognized short rest
      exact ⟨shorter, recognizeProduct_of_last first last⟩
  | product first later inductionHypothesis =>
      obtain ⟨words, cuts, recognized⟩ := exists_words_of_derivesFactor first
      obtain ⟨others, cutsLater, recognizedLater⟩ := inductionHypothesis
      -- A star between the two keeps the numbers on its sides from growing together.
      have star : Token.sign? '*' = some .times := rfl
      refine ⟨words ++ .times :: others,
        cuts.append_sign_cons star (by decide) cutsLater,
        fun short rest last => ?_⟩
      obtain ⟨shorter, firstRead⟩ :=
        recognized (fun digits member => short digits (by simp [member]))
          (.times :: (others ++ rest))
      obtain ⟨shorterLater, laterRead⟩ :=
        recognizedLater (fun digits member => short digits (by simp [member])) rest last
      have read := recognizeProduct_of_times firstRead
      rw [laterRead] at read
      rw [List.append_assoc]
      exact ⟨_, read⟩

end Products

section Sums

theorem recognizeSum_of_error
    {words : List Token}
    {negative : Bool}
    {cause : GrammarError}
    (first : Factor.recognizeProduct words = .error cause) :
    SignedTerm.recognizeSum negative words = .error cause := by
  rw [SignedTerm.recognizeSum, first]
  rfl

/-- A sum ends with a term that nothing follows. -/
theorem recognizeSum_of_end
    {words : List Token}
    {negative : Bool}
    {factors : List Factor}
    {shorter : [].length < words.length}
    (first : Factor.recognizeProduct words = .ok (factors, ⟨[], shorter⟩)) :
    SignedTerm.recognizeSum negative words = .ok [{ negative, factors }] := by
  rw [SignedTerm.recognizeSum, first]
  rfl

/-- A sign carries a sum on with the next term. -/
theorem recognizeSum_of_sign
    {words more : List Token}
    {token : Token}
    {negative sign : Bool}
    {factors : List Factor}
    {shorter : (token :: more).length < words.length}
    (first : Factor.recognizeProduct words = .ok (factors, ⟨token :: more, shorter⟩))
    (signed : SignedTerm.sign? token = some sign) :
    SignedTerm.recognizeSum negative words =
      (SignedTerm.recognizeSum sign more).map ({ negative, factors } :: ·) := by
  rw [SignedTerm.recognizeSum, first]
  simp only [bind, Except.bind, signed]
  cases SignedTerm.recognizeSum sign more <;> rfl

/-- Anything else behind a term is refused. -/
theorem recognizeSum_of_other
    {words more : List Token}
    {token : Token}
    {negative : Bool}
    {factors : List Factor}
    {shorter : (token :: more).length < words.length}
    (first : Factor.recognizeProduct words = .ok (factors, ⟨token :: more, shorter⟩))
    (unsigned : SignedTerm.sign? token = none) :
    SignedTerm.recognizeSum negative words = .error (.unexpectedToken token) := by
  rw [SignedTerm.recognizeSum, first]
  simp only [bind, Except.bind, unsigned]

theorem characters_of_termSign
    {token : Token}
    {sign : Bool}
    (signed : SignedTerm.sign? token = some sign) :
    token.characters = [signCharacter sign] := by
  unfold SignedTerm.sign? at signed
  split at signed <;> cases signed <;> rfl

/-- A recognized sum was derivable from all of the words. -/
theorem derivesSum_of_recognizeSum
    {words : List Token}
    {negative : Bool}
    {terms : List SignedTerm}
    (cutWords : ∀ word ∈ words, IsCutWord word)
    (read : SignedTerm.recognizeSum negative words = .ok terms) :
    DerivesSum negative (words.flatMap characters) terms := by
  induction negative, words using SignedTerm.recognizeSum.induct generalizing terms with
  | _ negative words inductionHypothesis =>
      cases first : Factor.recognizeProduct words with
      | error cause =>
          rw [recognizeSum_of_error first] at read
          cases read
      | ok value =>
          obtain ⟨factors, following, followingShorter⟩ := value
          obtain ⟨taken, parts, derived⟩ := derivesTerm_of_recognizeProduct cutWords first
          cases following with
          | nil =>
              rw [recognizeSum_of_end first] at read
              cases read
              rw [List.append_nil] at parts
              subst words
              exact .last derived
          | cons token more =>
              cases signed : SignedTerm.sign? token with
              | none =>
                  rw [recognizeSum_of_other first signed] at read
                  cases read
              | some sign =>
                  rw [recognizeSum_of_sign first signed] at read
                  cases later : SignedTerm.recognizeSum sign more with
                  | error cause =>
                      rw [later] at read
                      cases read
                  | ok others =>
                      rw [later] at read
                      cases read
                      have cutMore : ∀ word ∈ more, IsCutWord word :=
                        fun word member => cutWords word (by simp [parts, member])
                      have derivedLater :=
                        inductionHypothesis _ followingShorter token more rfl sign cutMore later
                      rw [parts, List.flatMap_append, List.flatMap_cons,
                        characters_of_termSign signed]
                      exact .signed derived derivedLater

def signWord (negative : Bool) : Token :=
  if negative then .minus else .plus

/-- The character of a sign is cut as that sign. -/
theorem sign?_signCharacter (negative : Bool) :
    Token.sign? (signCharacter negative) = some (signWord negative) := by
  cases negative <;> rfl

theorem sign?_signWord (negative : Bool) :
    SignedTerm.sign? (signWord negative) = some negative := by
  cases negative <;> rfl

theorem signWord_ne_times (negative : Bool) :
    signWord negative ≠ .times := by
  cases negative <;> decide

/-- A derivable sum is cut into words that are recognized, unless a number is too long. -/
theorem exists_words_of_derivesSum
    {negative : Bool}
    {text : List Char}
    {terms : List SignedTerm}
    (derived : DerivesSum negative text terms) :
    ∃ words,
      CutsTo text words ∧
        ((∀ digits, .variable digits ∈ words → digits.length ≤ variableDigitLimit) →
          SignedTerm.recognizeSum negative words = .ok terms) := by
  induction derived with
  | @last negative text factors only =>
      obtain ⟨words, cuts, recognized⟩ := exists_words_of_derivesTerm only
      refine ⟨words, cuts, fun short => ?_⟩
      obtain ⟨shorter, read⟩ := recognized short [] (by simp)
      rw [← List.append_nil words]
      exact recognizeSum_of_end read
  | @signed negative sign text rest factors terms first later inductionHypothesis =>
      obtain ⟨words, cuts, recognized⟩ := exists_words_of_derivesTerm first
      obtain ⟨others, cutsLater, recognizedLater⟩ := inductionHypothesis
      refine ⟨words ++ signWord sign :: others,
        cuts.append_sign_cons (sign?_signCharacter sign) (isNumeric_signCharacter sign) cutsLater,
        fun short => ?_⟩
      have notTimes : ∀ more, signWord sign :: others ≠ .times :: more :=
        fun more same => signWord_ne_times sign (List.cons.inj same).1
      obtain ⟨shorter, firstRead⟩ :=
        recognized (fun digits member => short digits (by simp [member])) _ notTimes
      have laterRead :=
        recognizedLater (fun digits member => short digits (by simp [member]))
      rw [recognizeSum_of_sign firstRead (sign?_signWord sign), laterRead]
      rfl

end Sums

end Grammar

end RootFinding
