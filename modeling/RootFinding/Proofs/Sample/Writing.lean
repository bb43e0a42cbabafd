import RootFinding.Proofs.Grammar.Correctness
import RootFinding.Proofs.Request.Sufficiency
import RootFinding.Proofs.Sample.Coefficient

/-!
# Written equations

The text of an equation that was drawn is a sum of four products in the grammar of expressions,
behind which an equals sign and a zero follow. Without its blanks the left-hand side derives the
four terms that were drawn, the constant with its sign in front of it.
-/

namespace RootFinding

open Grammar

namespace Text

/-- A character of which an expression without blanks is made. -/
def isPlainCharacter (c : Char) : Bool :=
  c.isDigit || ['.', 'x', '+', '-', '*', '(', ')'].contains c

/-- A character that is left out of an expression or changed, or that begins a longer name. -/
def isForeign (c : Char) : Bool :=
  isBlank c || [',', '='].contains c || beginsName c.toLower

theorem isPlainCharacter_of_isDigit
    {c : Char}
    (digit : c.isDigit = true) :
    isPlainCharacter c = true := by
  simp [isPlainCharacter, digit]

theorem not_isForeign_of_isDigit
    {c : Char}
    (digit : c.isDigit = true) :
    isForeign c = false := by
  obtain ⟨lower, upper⟩ := code_of_isDigit digit
  have code_eq : Char.ofNat c.toNat = c := Char.ofNat_toNat c
  rw [← code_eq]
  generalize c.toNat = code at lower upper
  interval_cases code <;> decide

/-- No character of an expression is foreign to it. -/
theorem not_isForeign_of_isPlainCharacter
    {c : Char}
    (plain : isPlainCharacter c = true) :
    isForeign c = false := by
  simp only [isPlainCharacter, Bool.or_eq_true, List.contains_eq_mem, decide_eq_true_eq] at plain
  rcases plain with digit | listed
  · exact not_isForeign_of_isDigit digit
  · simp only [List.mem_cons, List.not_mem_nil, or_false] at listed
    rcases listed with rfl | rfl | rfl | rfl | rfl | rfl | rfl <;> decide

theorem kept_of_isPlainCharacter
    {c : Char}
    (plain : isPlainCharacter c = true) :
    isBlank c = false ∧ c ≠ ',' := by
  have native := not_isForeign_of_isPlainCharacter plain
  simp only [isForeign, Bool.or_eq_false_iff] at native
  refine ⟨native.1.1, ?_⟩
  rintro rfl
  simp at native

theorem condensed_append (first second : List Char) :
    condensed (first ++ second) = condensed first ++ condensed second := by
  simp [condensed]

/-- Condensing leaves plain characters as they are. -/
theorem condensed_of_plain
    {text : List Char}
    (plain : ∀ c ∈ text, isPlainCharacter c = true) :
    condensed text = text := by
  induction text with
  | nil => rfl
  | cons c rest inductionHypothesis =>
      have first := plain c List.mem_cons_self
      obtain ⟨notBlank, notComma⟩ := kept_of_isPlainCharacter first
      have later := inductionHypothesis fun d member => plain d (List.mem_cons_of_mem _ member)
      simp only [condensed] at later ⊢
      simp [notBlank, notComma, later]

theorem condensed_trimmed (text : String) :
    condensed (trimmed text).toList = condensed text.toList := by
  rw [trimmed, String.toList_ofList]
  exact congrArg pointed (withoutBlanks_trimmedBy text.toList)

theorem condensed_cons_of_plain
    {c : Char}
    (plain : isPlainCharacter c = true)
    (rest : List Char) :
    condensed (c :: rest) = c :: condensed rest := by
  obtain ⟨notBlank, notComma⟩ := kept_of_isPlainCharacter plain
  simp [condensed, notBlank, notComma]

theorem condensed_cons_blank (rest : List Char) : condensed (' ' :: rest) = condensed rest := by
  rfl

end Text

section Parts

/--
A part of an expression: it is made of characters that are neither left out nor changed, and the
variables in it have short numbers.
-/
structure IsPart (text : List Char) : Prop where
  plain : ∀ c ∈ text, Text.isPlainCharacter c = true
  short :
    ∃ words, CutsTo text words ∧
      ∀ digits, .variable digits ∈ words → digits.length ≤ variableDigitLimit

/-- Two parts with a sign between them make up a part. -/
theorem IsPart.append_sign
    {first second : List Char}
    {c : Char}
    {word : Token}
    (part : IsPart first)
    (sign : Token.sign? c = some word)
    (later : IsPart second) :
    IsPart (first ++ c :: second) := by
  have known :
      Text.isPlainCharacter c = true ∧ Token.isNumeric c = false ∧
        ∀ digits, word ≠ .variable digits := by
    unfold Token.sign? at sign
    split at sign <;> cases sign <;> exact ⟨by decide, by decide, by simp⟩
  obtain ⟨plain, ends, notVariable⟩ := known
  obtain ⟨words, cuts, short⟩ := part.short
  obtain ⟨others, laterCuts, laterShort⟩ := later.short
  constructor
  · intro d member
    rcases List.mem_append.mp member with inFirst | inRest
    · exact part.plain d inFirst
    · rcases List.mem_cons.mp inRest with rfl | inSecond
      · exact plain
      · exact later.plain d inSecond
  · refine ⟨_, cuts.append_sign_cons sign ends laterCuts, ?_⟩
    intro digits member
    rcases List.mem_append.mp member with inFirst | inRest
    · exact short digits inFirst
    · rcases List.mem_cons.mp inRest with same | inSecond
      · exact absurd same.symm (notVariable digits)
      · exact laterShort digits inSecond

/-- A number is a part of an equation. -/
theorem isPart_of_derivesNumber
    {text : List Char}
    {units places : Nat}
    (number : DerivesNumber text units places) :
    IsPart text where
  plain c member := by
    have numeric := number.numeric c member
    simp only [Token.isNumeric, Bool.or_eq_true, decide_eq_true_eq] at numeric
    rcases numeric with digit | rfl
    · exact Text.isPlainCharacter_of_isDigit digit
    · decide
  short := by
    refine ⟨[.number text], fun after ends => cut_numeric_append number.nonempty number.numeric ends, ?_⟩
    simp

theorem isPart_nil : IsPart [] where
  plain c member := by simp at member
  short := by
    refine ⟨[], fun after _ => ?_, by simp⟩
    rw [List.nil_append]
    cases Token.cut after <;> rfl

section Coefficients

variable {K : Type} [Arithmetic K] [HasExactValue K] {coefficient : WrittenCoefficient K}

/-- The digits of a coefficient derive its number. -/
theorem derivesNumber_digits (spelled : coefficient.IsSpelled) :
    DerivesNumber coefficient.digits coefficient.units coefficient.decimals :=
  Decimal.derivesNumber_pointed spelled.decimals_pos _

theorem isPart_digits (spelled : coefficient.IsSpelled) : IsPart coefficient.digits :=
  isPart_of_derivesNumber (derivesNumber_digits spelled)

/-- A coefficient is written as a literal of its sign. -/
theorem derivesFactor_text (spelled : coefficient.IsSpelled) :
    DerivesFactor coefficient.text.toList
      (.literal (Arithmetic.less coefficient.value 0.0) coefficient.units coefficient.decimals) := by
  obtain ⟨_, _, quotient⟩ := spelled.quotient
  rw [WrittenCoefficient.toList_text quotient]
  cases Arithmetic.less coefficient.value 0.0 with
  | true => exact .negated (derivesNumber_digits spelled)
  | false => exact .number (derivesNumber_digits spelled)

theorem isPart_text (spelled : coefficient.IsSpelled) : IsPart coefficient.text.toList := by
  have digits := isPart_digits spelled
  obtain ⟨_, _, quotient⟩ := spelled.quotient
  rw [WrittenCoefficient.toList_text quotient]
  split
  · have closed := digits.append_sign (c := ')') rfl isPart_nil
    have negated := isPart_nil.append_sign (c := '-') rfl closed
    exact isPart_nil.append_sign (c := '(') rfl negated
  · exact digits

end Coefficients

/-- A variable is named by its number, counted from one. -/
theorem toList_variableName (index : Nat) :
    (variableName index).toList = 'x' :: Nat.toDigits 10 (index + 1) := by
  change ("x" ++ Nat.repr (index + 1)).toList = _
  simp

/-- The name of a variable derives the variable. -/
theorem derivesFactor_variableName
    {index : Nat}
    (inside : index < variableLimit) :
    DerivesFactor (variableName index).toList (.variable ⟨index, inside⟩) := by
  rw [toList_variableName]
  exact .variable (Text.isDigits_toDigits _) (Text.digitsValue_toDigits _)

theorem isPart_variableName
    {index : Nat}
    (inside : index < variableLimit) :
    IsPart (variableName index).toList := by
  have digits := Text.isDigits_toDigits (index + 1)
  have few : (Nat.toDigits 10 (index + 1)).length ≤ 2 := by
    rw [Nat.length_toDigits_le_iff (by decide) (by decide)]
    have limit : variableLimit = 10 := rfl
    omega
  rw [toList_variableName]
  constructor
  · intro c member
    rcases List.mem_cons.mp member with rfl | inDigits
    · decide
    · exact Text.isPlainCharacter_of_isDigit (digits.plain c inDigits)
  · refine ⟨[.variable (Nat.toDigits 10 (index + 1))],
      fun after ends => cut_variable_append digits.plain ends, ?_⟩
    intro digits member
    simp only [List.mem_singleton, Token.variable.injEq] at member
    rw [member]
    exact few.trans (by decide)

end Parts

namespace SampleEquation

variable {K : Type} [Arithmetic K] [HasExactValue K] {n : Nat} {equation : SampleEquation K n}

/-- An equation whose coefficients are written as digits. -/
structure IsSpelled (equation : SampleEquation K n) : Prop where
  linear : equation.linear.IsSpelled
  cross : equation.cross.IsSpelled
  square : equation.square.IsSpelled
  constant : equation.constant.IsSpelled

/-- Whether the constant stands behind a minus sign. -/
def subtracts (equation : SampleEquation K n) : Bool :=
  Arithmetic.less equation.constant.value 0.0

/-- The characters in front of the equals sign. -/
def leftCharacters (equation : SampleEquation K n) : List Char :=
  let own := (variableName equation.own.val).toList
  let other := (variableName equation.other.val).toList
  (equation.linear.text.toList ++ '*' :: own) ++ ' ' :: '+' :: ' ' ::
    ((equation.cross.text.toList ++ '*' :: (own ++ '*' :: other)) ++ ' ' :: '+' :: ' ' ::
      ((equation.square.text.toList ++ '*' :: (own ++ '*' :: own)) ++
        ' ' :: signCharacter equation.subtracts :: ' ' :: (equation.constant.digits ++ [' '])))

/-- The characters of the expression, without blanks. -/
def expressionCharacters (equation : SampleEquation K n) : List Char :=
  let own := (variableName equation.own.val).toList
  let other := (variableName equation.other.val).toList
  (equation.linear.text.toList ++ '*' :: own) ++ '+' ::
    ((equation.cross.text.toList ++ '*' :: (own ++ '*' :: other)) ++ '+' ::
      ((equation.square.text.toList ++ '*' :: (own ++ '*' :: own)) ++
        signCharacter equation.subtracts :: equation.constant.digits))

/-- An equation is its left side, an equals sign and a zero. -/
theorem toList_text (spelled : equation.IsSpelled) :
    equation.text.toList = equation.leftCharacters ++ ['=', ' ', '0'] := by
  obtain ⟨_, _, quotient⟩ := spelled.constant.quotient
  have unsignedText := WrittenCoefficient.toList_text_unsigned quotient
  have constantText := WrittenCoefficient.toList_text quotient
  simp only [text, leftCharacters, subtracts]
  cases negative : Arithmetic.less equation.constant.value 0.0 with
  | true =>
      simp [signCharacter, unsignedText]
  | false =>
      rw [negative] at constantText
      simp [signCharacter, constantText]

theorem isPart_expressionCharacters
    (spelled : equation.IsSpelled)
    (inside : n ≤ variableLimit) :
    IsPart equation.expressionCharacters := by
  have own := isPart_variableName (equation.own.isLt.trans_le inside)
  have other := isPart_variableName (equation.other.isLt.trans_le inside)
  have linear := (isPart_text spelled.linear).append_sign (c := '*') rfl own
  have cross := (isPart_text spelled.cross).append_sign (c := '*') rfl
    (own.append_sign (c := '*') rfl other)
  have square := (isPart_text spelled.square).append_sign (c := '*') rfl
    (own.append_sign (c := '*') rfl own)
  have constant := isPart_digits spelled.constant
  have sum := square.append_sign (sign?_signCharacter equation.subtracts) constant
  exact linear.append_sign (c := '+') rfl (cross.append_sign (c := '+') rfl sum)

/-- Only blanks are left out of the left-hand side. -/
theorem condensed_leftCharacters
    (spelled : equation.IsSpelled)
    (inside : n ≤ variableLimit) :
    Text.condensed equation.leftCharacters = equation.expressionCharacters := by
  have own := isPart_variableName (equation.own.isLt.trans_le inside)
  have other := isPart_variableName (equation.other.isLt.trans_le inside)
  have star : Text.isPlainCharacter '*' = true := by decide
  have plus : Text.isPlainCharacter '+' = true := by decide
  have sign : Text.isPlainCharacter (signCharacter equation.subtracts) = true := by
    cases equation.subtracts <;> decide
  simp only [leftCharacters, expressionCharacters, Text.condensed_append,
    Text.condensed_cons_of_plain star, Text.condensed_cons_of_plain plus,
    Text.condensed_cons_of_plain sign, Text.condensed_cons_blank,
    Text.condensed_of_plain (isPart_text spelled.linear).plain,
    Text.condensed_of_plain (isPart_text spelled.cross).plain,
    Text.condensed_of_plain (isPart_text spelled.square).plain,
    Text.condensed_of_plain (isPart_digits spelled.constant).plain,
    Text.condensed_of_plain own.plain, Text.condensed_of_plain other.plain,
    show Text.condensed [] = [] from rfl, List.append_nil]

/-- Between the characters of the expression there are spaces. -/
theorem mem_leftCharacters
    (spelled : equation.IsSpelled)
    (inside : n ≤ variableLimit)
    {c : Char}
    (member : c ∈ equation.leftCharacters) :
    c = ' ' ∨ Text.isPlainCharacter c = true := by
  by_cases space : c = ' '
  · exact .inl space
  right
  apply (isPart_expressionCharacters spelled inside).plain
  simp only [leftCharacters, expressionCharacters, List.mem_append, List.mem_cons, List.not_mem_nil,
    space, false_or, or_false] at member ⊢
  tauto

/-- The left side holds no equals sign. -/
theorem ne_equals_of_mem_leftCharacters
    (spelled : equation.IsSpelled)
    (inside : n ≤ variableLimit)
    {c : Char}
    (member : c ∈ equation.leftCharacters) :
    c ≠ '=' := by
  rintro rfl
  rcases mem_leftCharacters spelled inside member with space | plain
  · exact absurd space (by decide)
  · exact absurd (Text.not_isForeign_of_isPlainCharacter plain) (by decide)

/-- The terms as they are written. -/
def writtenTerms (equation : SampleEquation K n) (inside : n ≤ variableLimit) :
    List SignedTerm :=
  let own : Factor := .variable (equation.own.castLE inside)
  let other : Factor := .variable (equation.other.castLE inside)
  let literal (coefficient : WrittenCoefficient K) : Factor :=
    .literal (Arithmetic.less coefficient.value 0.0) coefficient.units coefficient.decimals
  [{ negative := false, factors := [literal equation.linear, own] },
    { negative := false, factors := [literal equation.cross, own, other] },
    { negative := false, factors := [literal equation.square, own, own] },
    { negative := equation.subtracts
      factors := [.literal false equation.constant.units equation.constant.decimals] }]

/-- A plus sign joins a term and the terms behind it. -/
private theorem derivesSum_plus
    {negative : Bool}
    {text rest : List Char}
    {factors : List Factor}
    {terms : List SignedTerm}
    (first : DerivesTerm text factors)
    (later : DerivesSum false rest terms) :
    DerivesSum negative (text ++ '+' :: rest) ({ negative, factors } :: terms) :=
  .signed first later

/-- The left side derives the terms of the equation. -/
theorem derivesExpression_expressionCharacters
    (spelled : equation.IsSpelled)
    (inside : n ≤ variableLimit) :
    DerivesExpression equation.expressionCharacters (equation.writtenTerms inside) := by
  have own := derivesFactor_variableName (equation.own.isLt.trans_le inside)
  have other := derivesFactor_variableName (equation.other.isLt.trans_le inside)
  have linear := DerivesTerm.product (derivesFactor_text spelled.linear) (.single own)
  have cross := DerivesTerm.product (derivesFactor_text spelled.cross) (.product own (.single other))
  have square := DerivesTerm.product (derivesFactor_text spelled.square) (.product own (.single own))
  have constant := DerivesTerm.single (.number (derivesNumber_digits spelled.constant))
  have last : DerivesSum equation.subtracts equation.constant.digits _ := .last constant
  exact .unsigned (derivesSum_plus linear (derivesSum_plus cross (.signed square last)))

/-- The text is an equation, and its left-hand side is read to the terms that were written. -/
theorem parse_leftSide
    (spelled : equation.IsSpelled)
    (inside : n ≤ variableLimit) :
    ∃ left,
      Equation.leftSide equation.text = .ok left ∧
        Expression.parse left =
          (.ok ((equation.writtenTerms inside).map SignedTerm.toTerm) :
            Except ParseError (Expression K (Fin variableLimit))) := by
  have noEquals (c : Char) (member : c ∈ equation.leftCharacters) : decide (c ≠ '=') = true :=
    decide_eq_true (ne_equals_of_mem_leftCharacters spelled inside member)
  have ends : ∀ c ∈ ['=', ' ', '0'].head?, decide (c ≠ '=') = false := by simp
  obtain ⟨taken, dropped⟩ := takeWhile_dropWhile_of_run noEquals ends
  have absent : equation.leftCharacters.count '=' = 0 := by
    rw [List.count_eq_zero]
    exact fun member => ne_equals_of_mem_leftCharacters spelled inside member rfl
  have zero : Equation.isZero [' ', '0'] = true := by
    decide +kernel
  refine ⟨Text.trimmed (String.ofList equation.leftCharacters), ?_, ?_⟩
  · simp only [Equation.leftSide, toList_text spelled, taken, dropped]
    simp [zero, absent]
  · have condensed_eq :
        Text.condensed (Text.trimmed (String.ofList equation.leftCharacters)).toList =
          equation.expressionCharacters := by
      rw [Text.condensed_trimmed, String.toList_ofList, condensed_leftCharacters spelled inside]
    obtain ⟨words, cuts, short⟩ := (isPart_expressionCharacters spelled inside).short
    apply parse_of_derivesExpression
    · intro others cutting
      rw [Token.ofText, condensed_eq, cuts.cut_eq] at cutting
      cases cutting
      exact short
    · rw [condensed_eq]
      exact derivesExpression_expressionCharacters spelled inside

end SampleEquation

end RootFinding
