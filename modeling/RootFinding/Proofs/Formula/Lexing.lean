import RootFinding.Proofs.Formula.Layout
import RootFinding.Proofs.Formula.Names
import RootFinding.Proofs.Formula.Separation
import RootFinding.Proofs.Grammar.Recognition

/-!
# Cutting a written expression into the words of a formula

The grammar of expressions knows no blanks, while in a formula a blank ends a word. Where a formula
is read from a text that is derivable without its blanks, no blank stands inside a numeral or a
name: it would leave two operands side by side. So each numeral and each variable of the derivation
is one word of the formula, and the zeros in front of the number of a variable are gone from it.
-/

namespace RootFinding

open Grammar

namespace Text

/--
A text without blanks that starts with a run of one class starts with as much of the run as no blank
breaks, and behind a blank the run goes on.
-/
theorem exists_unbroken_run
    {inClass : Char → Bool}
    {raw run after : List Char}
    (inside : ∀ c ∈ run, inClass c = true)
    (parts : withoutBlanks raw = run ++ after) :
    ∃ unbroken rest,
      raw = unbroken ++ rest ∧ unbroken <+: run ∧
        (∀ c ∈ rest.head?, isBlank c = true ∨ c ∈ after.head?) ∧
        (run = unbroken ∧ withoutBlanks rest = after ∨
          ∃ c more, withoutBlanks rest = c :: more ∧ inClass c = true) := by
  induction run generalizing raw with
  | nil =>
      refine ⟨[], raw, rfl, List.nil_prefix, ?_, .inl ⟨rfl, parts⟩⟩
      intro c isHead
      cases raw with
      | nil => cases isHead
      | cons first rest =>
          rw [List.head?_cons, Option.mem_some_iff] at isHead
          subst first
          cases blank : isBlank c with
          | true => exact .inl rfl
          | false =>
              rw [withoutBlanks_cons_of_solid blank, List.nil_append] at parts
              rw [← parts]
              exact .inr rfl
  | cons first run inductionHypothesis =>
      obtain ⟨firstInside, laterInside⟩ := List.forall_mem_cons.mp inside
      cases raw with
      | nil => cases parts
      | cons c raw =>
          cases blank : isBlank c with
          | true =>
              refine ⟨[], c :: raw, rfl, List.nil_prefix, ?_,
                .inr ⟨first, run ++ after, parts, firstInside⟩⟩
              intro d isHead
              rw [List.head?_cons, Option.mem_some_iff] at isHead
              subst d
              exact .inl blank
          | false =>
              rw [withoutBlanks_cons_of_solid blank, List.cons_append, List.cons.injEq] at parts
              obtain ⟨rfl, parts⟩ := parts
              obtain ⟨unbroken, rest, rfl, unbrokenPrefix, ends, goesOn⟩ :=
                inductionHypothesis laterInside parts
              refine ⟨c :: unbroken, rest, rfl, ?_, ends, ?_⟩
              · exact (List.prefix_cons_inj c).mpr unbrokenPrefix
              · exact goesOn.imp_left fun whole => ⟨congrArg (c :: ·) whole.1, whole.2⟩

end Text

namespace Lexeme

open Text

section Characters

variable {c : Char}

/-- A character of a numeral, a name, an operator or a parenthesis. -/
def isSolid (c : Char) : Bool :=
  continuesName c || ['.', '+', '-', '*', '/', '(', ')'].contains c

private theorem code_of_isAlpha (letter : c.isAlpha = true) :
    (65 ≤ c.toNat ∧ c.toNat ≤ 90) ∨ (97 ≤ c.toNat ∧ c.toNat ≤ 122) := by
  change (decide ('A'.val ≤ c.val ∧ c.val ≤ 'Z'.val) ||
    (decide ('a'.val ≤ c.val) && decide (c.val ≤ 'z'.val))) = true at letter
  simp only [Bool.or_eq_true, Bool.and_eq_true, decide_eq_true_eq] at letter
  exact letter

/-- What continues a name is a digit, a letter or an underscore. -/
private theorem code_bounds_of_continuesName (continues : continuesName c = true) :
    48 ≤ c.toNat ∧ c.toNat ≤ 122 := by
  simp only [continuesName, Char.isAlphanum, Bool.or_eq_true, decide_eq_true_eq] at continues
  rcases continues with (letter | digit) | rfl
  · have code := code_of_isAlpha letter
    omega
  · have code := code_of_isDigit digit
    omega
  · decide

theorem not_isBlank_of_isSolid (solid : isSolid c = true) : isBlank c = false := by
  simp only [isSolid, Bool.or_eq_true, List.contains_eq_mem, decide_eq_true_eq] at solid
  rcases solid with continues | listed
  · have bounds := code_bounds_of_continuesName continues
    rw [isBlank, List.any_eq_false]
    simp only [blankRanges, List.mem_cons, List.not_mem_nil, or_false, Bool.and_eq_true,
      decide_eq_true_eq]
    rintro range (rfl | rfl | rfl | rfl | rfl | rfl | rfl | rfl | rfl | rfl) <;> omega
  · simp only [List.mem_cons, List.not_mem_nil, or_false] at listed
    rcases listed with rfl | rfl | rfl | rfl | rfl | rfl | rfl <;> decide

theorem continuesName_of_isDigit (digit : c.isDigit = true) : continuesName c = true := by
  simp [continuesName, Char.isAlphanum, digit]

theorem isSolid_of_sign {word : Token} (sign : Token.sign? c = some word) : isSolid c = true := by
  unfold Token.sign? at sign
  split at sign <;> first | decide | cases sign

/-- A character with which no numeral and no name goes on. -/
def EndsOperand (c : Char) : Prop :=
  continuesName c = false ∧ c ≠ '.'

theorem endsOperand_of_isBlank (blank : isBlank c = true) : EndsOperand c := by
  have notSolid : isSolid c = false := by
    cases solid : isSolid c with
    | false => rfl
    | true =>
        rw [not_isBlank_of_isSolid solid] at blank
        cases blank
  simp only [isSolid, Bool.or_eq_false_iff] at notSolid
  refine ⟨notSolid.1, ?_⟩
  rintro rfl
  simp at notSolid

theorem endsOperand_of_sign {word : Token} (sign : Token.sign? c = some word) :
    EndsOperand c := by
  unfold Token.sign? at sign
  split at sign <;> first | exact ⟨by decide, by decide⟩ | cases sign

theorem EndsOperand.not_isDigit (ends : EndsOperand c) : c.isDigit = false := by
  cases digit : c.isDigit with
  | false => rfl
  | true =>
      have continues := continuesName_of_isDigit digit
      rw [ends.1] at continues
      cases continues

theorem EndsOperand.not_isNumeric (ends : EndsOperand c) : Token.isNumeric c = false := by
  simp [Token.isNumeric, ends.not_isDigit, ends.2]

end Characters

section FirstWord

variable {c : Char} {rest after : List Char} {lexeme : Lexeme}

private theorem not_startsName_of_isDigit (digit : c.isDigit = true) : startsName c = false := by
  have digitCode := code_of_isDigit digit
  by_contra starts
  simp only [Bool.not_eq_false, startsName, Bool.or_eq_true, decide_eq_true_eq] at starts
  rcases starts with letter | rfl
  · have letterCode := code_of_isAlpha letter
    omega
  · exact absurd digit (by decide)

/-- A digit or a point starts a numeral and nothing else. -/
theorem first?_of_isNumeric (numeric : Token.isNumeric c = true) :
    first? (c :: rest) = numeral? (c :: rest) := by
  have notName : startsName c = false := by
    have digitOrPoint := numeric
    simp only [Token.isNumeric, Bool.or_eq_true, decide_eq_true_eq] at digitOrPoint
    rcases digitOrPoint with digit | rfl
    · exact not_startsName_of_isDigit digit
    · decide
  rw [Token.isNumeric] at numeric
  rw [first?, notName, numeric]
  rfl

/-- A blank begins no word. -/
theorem first?_of_isBlank (blank : isBlank c = true) : first? (c :: rest) = none := by
  have notSolid (other : Char) (solid : isSolid other = true) : c ≠ other := by
    rintro rfl
    rw [not_isBlank_of_isSolid solid] at blank
    cases blank
  have ends := endsOperand_of_isBlank blank
  have notName : startsName c = false := by
    have noName := ends.1
    simp only [continuesName, Char.isAlphanum, Bool.or_eq_false_iff] at noName
    simp [startsName, noName.1.1, noName.2]
  have noSymbol : symbol? (c :: rest) = none := by
    unfold symbol?
    split
    all_goals try rfl
    all_goals exact absurd (List.cons.inj ‹_›).1 (notSolid _ (by decide))
  have notNumeric := ends.not_isNumeric
  rw [Token.isNumeric] at notNumeric
  rw [first?, notName, notNumeric]
  exact noSymbol

/-- A sign is the next lexeme, unless it is half of a power sign. -/
theorem first?_of_sign
    {word : Token}
    (sign : Token.sign? c = some word)
    (single : symbol? [c] = some (lexeme, []))
    (alone : c = '*' → rest.head? ≠ some '*') :
    first? (c :: rest) = some (lexeme, rest) := by
  unfold Token.sign? at sign
  split at sign
  case h_3 =>
    have alone := alone rfl
    cases single
    cases rest with
    | nil => rfl
    | cons next rest =>
        have other : next ≠ '*' := fun same => alone (congrArg some same)
        simp [first?, startsName, symbol?, other]
  all_goals
    cases sign
    try cases single
    try rfl

/-- A variable is the next lexeme, with all its digits. -/
theorem first?_of_name
    {run : List Char}
    (plain : ∀ c ∈ run, c.isDigit = true)
    (ends : ∀ c ∈ after.head?, EndsOperand c) :
    first? ('x' :: (run ++ after)) = some (.name ('x' :: run), after) := by
  obtain ⟨taken, dropped⟩ :=
    takeWhile_dropWhile_of_run
      (fun c member => continuesName_of_isDigit (plain c member))
      (fun c isHead => (ends c isHead).1)
  rw [first?, if_pos (by decide), taken, dropped]

/-- Where an operand ends, no exponent follows. -/
private theorem exponent?_of_endsOperand (ends : ∀ c ∈ after.head?, EndsOperand c) :
    exponent? after = none := by
  cases after with
  | nil => rfl
  | cons mark more =>
      have other (letter : Char) (continues : continuesName letter = true) : mark ≠ letter := by
        rintro rfl
        rw [(ends mark rfl).1] at continues
        cases continues
      simp [exponent?, other 'e' (by decide), other 'E' (by decide)]

/-- A run of digits is an integer, unless leading zeros keep it from being one. -/
private theorem numeral?_digits
    {run : List Char}
    (plain : ∀ c ∈ run, c.isDigit = true)
    (ends : ∀ c ∈ after.head?, EndsOperand c) :
    numeral? (run ++ after) =
      if run.isEmpty then none
      else if isPlainInteger run then some (.numeral (digitsValue run) (-((0 : Nat) : Int)), after)
      else none := by
  have noExponent := exponent?_of_endsOperand ends
  obtain ⟨taken, dropped⟩ :=
    takeWhile_dropWhile_of_run plain (fun c isHead => (ends c isHead).not_isDigit)
  cases after with
  | nil =>
      rw [List.append_nil] at taken dropped ⊢
      simp [numeral?, taken, dropped, noExponent]
  | cons mark more =>
      have notPoint : mark ≠ '.' := (ends mark rfl).2
      simp [numeral?, taken, dropped, noExponent, notPoint]

/-- Digits around a point are a decimal number. -/
private theorem numeral?_pointed
    {whole decimals : List Char}
    (plain : ∀ c ∈ whole ++ decimals, c.isDigit = true)
    (ends : ∀ c ∈ after.head?, EndsOperand c) :
    numeral? (whole ++ '.' :: decimals ++ after) =
      if whole.isEmpty && decimals.isEmpty then none
      else some (.numeral (digitsValue (whole ++ decimals)) (-(decimals.length : Int)), after) := by
  have noExponent := exponent?_of_endsOperand ends
  obtain ⟨wholePlain, decimalsPlain⟩ := List.forall_mem_append.mp plain
  have pointBehind : ∀ c ∈ ('.' :: (decimals ++ after)).head?, c.isDigit = false := by
    simp [isDigit_point]
  obtain ⟨wholeTaken, wholeDropped⟩ := takeWhile_dropWhile_of_run wholePlain pointBehind
  obtain ⟨taken, dropped⟩ :=
    takeWhile_dropWhile_of_run decimalsPlain (fun c isHead => (ends c isHead).not_isDigit)
  rw [List.append_assoc, List.cons_append]
  simp [numeral?, wholeTaken, wholeDropped, taken, dropped, noExponent]

/-- A plainly written number is read as a numeral, up to its end. -/
theorem numeral?_of_writesNumber
    {run : List Char}
    {digits decimals : Nat}
    (number : WritesNumber run digits decimals)
    (ends : ∀ c ∈ after.head?, EndsOperand c) :
    numeral? (run ++ after) = some (.numeral digits (-(decimals : Int)), after) := by
  cases number with
  | whole run plain =>
      rw [numeral?_digits run.plain ends, if_neg (by simpa using run.nonempty), if_pos plain]
  | pointed run =>
      rw [numeral?_pointed run.plain ends, if_neg (by simpa using run.nonempty)]

/-- Of a run of digits with at most one point a numeral is read, up to the end of the run. -/
theorem numeral?_append
    {run : List Char}
    (numeric : ∀ c ∈ run, Token.isNumeric c = true)
    (few : run.count '.' ≤ 1)
    (ends : ∀ c ∈ after.head?, EndsOperand c)
    (read : numeral? (run ++ after) = some (lexeme, rest)) :
    rest = after ∧
      ∃ digits decimals,
        WritesNumber run digits decimals ∧ lexeme = .numeral digits (-(decimals : Int)) := by
  rcases numeric_cases numeric few with plain | ⟨whole, decimals, rfl, plain⟩
  · rw [numeral?_digits plain ends] at read
    split at read
    · cases read
    · rename_i someDigit
      split at read
      · rename_i plainInteger
        cases read
        exact ⟨rfl, _, 0, .whole ⟨by simpa using someDigit, plain⟩ plainInteger, rfl⟩
      · cases read
  · rw [numeral?_pointed plain ends] at read
    split at read
    · cases read
    · rename_i someDigit
      cases read
      exact ⟨rfl, _, _, .pointed ⟨by simpa using someDigit, plain⟩, rfl⟩

/-- What is read as a numeral is an operand. -/
theorem isOperand_of_numeral?
    {text : List Char}
    (read : numeral? text = some (lexeme, rest)) :
    lexeme.isOperand = true := by
  unfold numeral? at read
  dsimp only at read
  split at read
  all_goals
    split at read
    · cases read
    · split at read
      · cases read
        rfl
      · split at read
        · cases read
          rfl
        · cases read

end FirstWord

section Cutting

variable {fuel depth : Nat} {c : Char} {rest : List Char} {lexemes : List Lexeme}

/-- A blank in front of a text that is cut is skipped, so it is a gap. -/
theorem exists_cut_of_isBlank
    (blank : isBlank c = true)
    (cutting : cut fuel depth (c :: rest) = some lexemes) :
    (isGap c || (endsLine c && 0 < depth)) = true ∧ ∃ fuel, cut fuel depth rest = some lexemes := by
  cases fuel with
  | zero => cases cutting
  | succ fuel =>
      rw [cut] at cutting
      split at cutting
      · exact ⟨‹_›, fuel, cutting⟩
      · rw [first?_of_isBlank blank] at cutting
        cases cutting

/-- Any other character begins a word, behind which the text is cut on. -/
theorem exists_cut_of_solid
    {text : List Char}
    (isHead : text.head? = some c)
    (solid : isBlank c = false)
    (cutting : cut fuel depth text = some lexemes) :
    ∃ lexeme after later fuel,
      first? text = some (lexeme, after) ∧
        lexemes = lexeme :: later ∧
        cut fuel (depthAfter depth lexeme) after = some later := by
  have notGap (gap : Char) (isGap : isBlank gap = true) : c ≠ gap := by
    rintro rfl
    rw [solid] at isGap
    cases isGap
  obtain ⟨rest, rfl⟩ := List.head?_eq_some_iff.mp isHead
  cases fuel with
  | zero => cases cutting
  | succ fuel =>
      have noGap : isGap c = false := by
        have notFormFeed : c.toNat ≠ 0x0C := fun code =>
          notGap '\x0c' (by decide) (Char.toNat_inj.mp code)
        simp [isGap, notGap ' ' (by decide), notGap '\t' (by decide), notFormFeed]
      have noLineEnd : endsLine c = false := by
        simp [endsLine, notGap '\n' (by decide), notGap '\r' (by decide)]
      rw [cut, noGap, noLineEnd] at cutting
      obtain ⟨⟨lexeme, after⟩, read, cutting⟩ := Option.bind_eq_some_iff.mp cutting
      obtain ⟨later, cutLater, same⟩ := Option.bind_eq_some_iff.mp cutting
      cases same
      exact ⟨lexeme, after, later, fuel, read, rfl, cutLater⟩

end Cutting

end Lexeme

namespace Formula

open Lexeme Text Verification

/--
The lexemes are cut from a raw text that is the given one but for blanks and for zeros in front of
the numbers of variables, and no two operands stand side by side in them.
-/
structure Spells (depth : Nat) (raw text : List Char) (lexemes : List Lexeme) : Prop where
  separated : Separated lexemes
  parts : withoutBlanks raw = text
  exists_cut : ∃ fuel, Lexeme.cut fuel depth (withoutLeadingZeros raw) = some lexemes

/-- The text goes on with a sign, or it is at its end. -/
def FollowsOperand (after : List Char) : Prop :=
  ∀ c ∈ after.head?, (Token.sign? c).isSome = true

variable {depth : Nat} {raw text after : List Char} {lexemes : List Lexeme}

theorem ne_x_of_isBlank {c : Char} (blank : isBlank c = true) : c ≠ 'x' := by
  rintro rfl
  cases blank

/-- The blanks in front of a text are skipped. -/
private theorem exists_cut_behind_blanks
    {c : Char}
    {fuel : Nat}
    (parts : withoutBlanks raw = c :: after)
    (cutting : Lexeme.cut fuel depth (withoutLeadingZeros raw) = some lexemes) :
    ∃ gaps rest fuel,
      raw = gaps ++ c :: rest ∧
        AreGaps depth gaps ∧
        isBlank c = false ∧
        withoutBlanks rest = after ∧
        Lexeme.cut fuel depth (withoutLeadingZeros (c :: rest)) = some lexemes := by
  induction raw generalizing fuel with
  | nil => cases parts
  | cons first rest inductionHypothesis =>
      cases blank : isBlank first with
      | true =>
          rw [withoutBlanks_cons_of_blank blank] at parts
          rw [withoutLeadingZeros_cons (ne_x_of_isBlank blank)] at cutting
          obtain ⟨isGap, fuel, cutting⟩ := exists_cut_of_isBlank blank cutting
          obtain ⟨gaps, more, fuel, rfl, areGaps, found⟩ := inductionHypothesis parts cutting
          exact ⟨first :: gaps, more, fuel, rfl, List.forall_mem_cons.mpr ⟨isGap, areGaps⟩, found⟩
      | false =>
          rw [withoutBlanks_cons_of_solid blank, List.cons.injEq] at parts
          obtain ⟨rfl, parts⟩ := parts
          exact ⟨[], rest, fuel, rfl, by simp [AreGaps], blank, parts, cutting⟩

/-- Behind the end of an operand that no blank breaks, no operand goes on. -/
private theorem endsOperand_of_unbroken
    {rest : List Char}
    (follows : FollowsOperand after)
    (ends : ∀ c ∈ rest.head?, isBlank c = true ∨ c ∈ after.head?) :
    ∀ c ∈ (withoutLeadingZeros rest).head?, EndsOperand c := by
  intro c isHead
  rw [head?_withoutLeadingZeros] at isHead
  rcases ends c isHead with blank | isNext
  · exact endsOperand_of_isBlank blank
  · obtain ⟨word, sign⟩ := Option.isSome_iff_exists.mp (follows c isNext)
    exact endsOperand_of_sign sign

namespace Spells

/-- Where no text is left there are gaps at most. -/
theorem eq_nil (spells : Spells depth raw [] lexemes) : lexemes = [] ∧ AreGaps depth raw := by
  obtain ⟨fuel, cutting⟩ := spells.exists_cut
  have parts := spells.parts
  clear spells
  induction raw generalizing fuel with
  | nil =>
      rw [withoutLeadingZeros] at cutting
      refine ⟨?_, by simp [AreGaps]⟩
      cases fuel <;> cases cutting <;> rfl
  | cons first rest inductionHypothesis =>
      cases blank : isBlank first with
      | true =>
          rw [withoutBlanks_cons_of_blank blank] at parts
          rw [withoutLeadingZeros_cons (ne_x_of_isBlank blank)] at cutting
          obtain ⟨isGap, fuel, cutting⟩ := exists_cut_of_isBlank blank cutting
          obtain ⟨none, areGaps⟩ := inductionHypothesis fuel cutting parts
          exact ⟨none, List.forall_mem_cons.mpr ⟨isGap, areGaps⟩⟩
      | false =>
          rw [withoutBlanks_cons_of_solid blank] at parts
          cases parts

/-- The first word begins behind the gaps in front of the text. -/
theorem exists_first
    {c : Char}
    (spells : Spells depth raw (c :: after) lexemes) :
    ∃ gaps own lexeme rest later fuel,
      raw = gaps ++ c :: own ∧
        AreGaps depth gaps ∧
        withoutBlanks (c :: own) = c :: after ∧
        first? (withoutLeadingZeros (c :: own)) = some (lexeme, rest) ∧
        lexemes = lexeme :: later ∧
        Lexeme.cut fuel (depthAfter depth lexeme) rest = some later := by
  obtain ⟨fuel, cutting⟩ := spells.exists_cut
  obtain ⟨gaps, own, fuel, raw_eq, areGaps, solid, rfl, cutting⟩ :=
    exists_cut_behind_blanks spells.parts cutting
  obtain ⟨lexeme, rest, later, fuel, read, same, cutLater⟩ :=
    exists_cut_of_solid (head?_withoutLeadingZeros (c :: own)) solid cutting
  exact ⟨gaps, own, lexeme, rest, later, fuel, raw_eq, areGaps,
    withoutBlanks_cons_of_solid solid own, read, same, cutLater⟩

/-- Words that begin with a digit or a point begin with an operand. -/
theorem exists_operand
    {c : Char}
    (spells : Spells depth raw (c :: after) lexemes)
    (numeric : Token.isNumeric c = true) :
    ∃ lexeme later, lexemes = lexeme :: later ∧ lexeme.isOperand = true := by
  obtain ⟨_, own, lexeme, rest, later, fuel, _, _, _, read, same, _⟩ := spells.exists_first
  have notX : c ≠ 'x' := by
    rintro rfl
    cases numeric
  rw [withoutLeadingZeros_cons notX, first?_of_isNumeric numeric] at read
  exact ⟨lexeme, later, same, isOperand_of_numeral? read⟩

/-- Behind an operand no other one begins. -/
theorem not_isNumeric_behind
    {operand : Lexeme}
    {later : List Lexeme}
    {c : Char}
    (separated : Separated (operand :: later))
    (isOperand : operand.isOperand = true)
    (spells : Spells depth raw (c :: after) later) :
    Token.isNumeric c = false := by
  cases numeric : Token.isNumeric c with
  | false => rfl
  | true =>
      obtain ⟨next, more, rfl, nextIsOperand⟩ := spells.exists_operand numeric
      rw [separated.not_isOperand isOperand] at nextIsOperand
      cases nextIsOperand

/-- A sign of the normal form stands in the raw text behind some gaps. -/
theorem exists_sign
    {c : Char}
    {word : Token}
    {lexeme : Lexeme}
    (spells : Spells depth raw (c :: after) lexemes)
    (sign : Token.sign? c = some word)
    (single : symbol? [c] = some (lexeme, []))
    (alone : c = '*' → after.head? ≠ some '*') :
    ∃ gaps rest later,
      raw = gaps ++ c :: rest ∧
        AreGaps depth gaps ∧
        lexemes = lexeme :: later ∧
        Spells (depthAfter depth lexeme) rest after later := by
  obtain ⟨gaps, own, first, rest, later, fuel, raw_eq, areGaps, parts, read, rfl, cutLater⟩ :=
    spells.exists_first
  have solid := not_isBlank_of_isSolid (isSolid_of_sign sign)
  have notX : c ≠ 'x' := by
    rintro rfl
    cases sign
  rw [withoutBlanks_cons_of_solid solid, List.cons.injEq] at parts
  have stillAlone : c = '*' → (withoutLeadingZeros own).head? ≠ some '*' := by
    intro isStar isHead
    rw [head?_withoutLeadingZeros] at isHead
    obtain ⟨more, rfl⟩ := List.head?_eq_some_iff.mp isHead
    apply alone isStar
    rw [← parts.2, withoutBlanks_cons_of_solid (by decide)]
    rfl
  rw [withoutLeadingZeros_cons notX, first?_of_sign sign single stillAlone] at read
  cases read
  exact ⟨gaps, own, later, raw_eq, areGaps, rfl, spells.separated.tail, parts.2, fuel, cutLater⟩

/-- A number of the normal form stands in the raw text, unbroken, behind some gaps. -/
theorem exists_numeral
    {digits decimals : Nat}
    (spells : Spells depth raw (text ++ after) lexemes)
    (number : DerivesNumber text digits decimals)
    (follows : FollowsOperand after) :
    ∃ gaps rest later,
      raw = gaps ++ (text ++ rest) ∧
        AreGaps depth gaps ∧
        WritesNumber text digits decimals ∧
        lexemes = .numeral digits (-(decimals : Int)) :: later ∧
        Spells depth rest after later := by
  obtain ⟨c, more, rfl⟩ := List.exists_cons_of_ne_nil number.nonempty
  have numeric := number.numeric
  obtain ⟨gaps, own, lexeme, cutRest, later, fuel, rfl, areGaps, parts, read, rfl, cutLater⟩ :=
    spells.exists_first
  obtain ⟨unbroken, rest, own_eq, unbrokenPrefix, ends, goesOn⟩ :=
    exists_unbroken_run numeric parts
  have notX : ∀ d ∈ c :: more, d ≠ 'x' := by
    rintro _ member rfl
    cases numeric 'x' member
  have few : unbroken.count '.' ≤ 1 :=
    (unbrokenPrefix.sublist.count_le '.').trans number.count_point_le
  rw [withoutLeadingZeros_cons (notX c List.mem_cons_self),
    first?_of_isNumeric (numeric c List.mem_cons_self),
    ← withoutLeadingZeros_cons (notX c List.mem_cons_self), own_eq,
    withoutLeadingZeros_append (fun d member => notX d (unbrokenPrefix.mem member))] at read
  obtain ⟨rfl, readDigits, readDecimals, readNumber, rfl⟩ :=
    numeral?_append (fun d member => numeric d (unbrokenPrefix.mem member)) few
      (endsOperand_of_unbroken follows ends) read
  have separated := spells.separated
  rcases goesOn with ⟨rfl, rfl⟩ | ⟨d, others, behind, another⟩
  · obtain ⟨rfl, rfl⟩ := number.unique readNumber.derives
    exact ⟨gaps, rest, later, by rw [own_eq], areGaps, readNumber, rfl, separated.tail, rfl, fuel,
      cutLater⟩
  · have spellsLater : Spells depth rest (d :: others) later :=
      ⟨separated.tail, behind, fuel, cutLater⟩
    rw [not_isNumeric_behind separated rfl spellsLater] at another
    cases another

/-- A variable of the normal form stands in the raw text, unbroken, behind some gaps. -/
theorem exists_name
    {index : Nat}
    (spells : Spells depth raw ('x' :: (text ++ after)) lexemes)
    (digits : IsDigits text)
    (value : digitsValue text = index + 1)
    (follows : FollowsOperand after) :
    ∃ gaps rest later,
      raw = gaps ++ ('x' :: text ++ rest) ∧
        AreGaps depth gaps ∧
        lexemes = .name (nameOf index) :: later ∧
        Spells depth rest after later := by
  obtain ⟨gaps, own, lexeme, cutRest, later, fuel, rfl, areGaps, parts, read, rfl, cutLater⟩ :=
    spells.exists_first
  rw [withoutBlanks_cons_of_solid (by decide), List.cons.injEq] at parts
  obtain ⟨unbroken, rest, rfl, unbrokenPrefix, ends, goesOn⟩ :=
    exists_unbroken_run digits.plain parts.2
  have restEnds := endsOperand_of_unbroken follows ends
  have notDigit : ∀ d ∈ rest.head?, d.isDigit = false := by
    rw [← head?_withoutLeadingZeros]
    exact fun d isHead => (restEnds d isHead).not_isDigit
  obtain ⟨kept, kept_eq, keptPlain, _⟩ :=
    withoutLeadingZeros_variable
      (fun d member => digits.plain d (unbrokenPrefix.mem member)) notDigit
  rw [kept_eq, first?_of_name keptPlain restEnds] at read
  cases read
  have separated := spells.separated
  rcases goesOn with ⟨rfl, rfl⟩ | ⟨d, others, behind, another⟩
  · rw [withoutLeadingZeros_name digits value notDigit, ← List.cons_append,
      List.append_left_inj] at kept_eq
    rw [← kept_eq]
    exact ⟨gaps, rest, later, by simp, areGaps, rfl, (kept_eq ▸ separated).tail, rfl, fuel,
      cutLater⟩
  · have spellsLater : Spells depth rest (d :: others) later :=
      ⟨separated.tail, behind, fuel, cutLater⟩
    have numeric := isNumeric_of_isDigit another
    rw [not_isNumeric_behind separated rfl spellsLater] at numeric
    cases numeric

end Spells

end Formula

end RootFinding
