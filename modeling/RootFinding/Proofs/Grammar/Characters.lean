import RootFinding.Proofs.Formula.Names
import RootFinding.Proofs.Grammar.Correctness

/-!
# The characters of equations

In front of the equals sign of an equation that can be read stand the words of an expression, behind
it a numeral that stands for zero, with blanks wherever they are left out. So it is made of digits of
any script, of blanks and of a dozen other characters, among them no letters but `x` and the mark of
an exponent.
-/

namespace RootFinding

open Outcome

namespace Text

/-- A character that an equation may hold, on either side. -/
def isEquationCharacter (c : Char) : Bool :=
  isBlank c || (digitValue? c).isSome ||
    ['.', ',', 'x', '+', '-', '*', '(', ')', '=', 'e', 'E', '_'].contains c

theorem isEquationCharacter_of_isBlank
    {c : Char}
    (blank : isBlank c = true) :
    isEquationCharacter c = true := by
  simp [isEquationCharacter, blank]

theorem isEquationCharacter_of_isDigit
    {c : Char}
    (digit : c.isDigit = true) :
    isEquationCharacter c = true := by
  simp [isEquationCharacter, digitValue?_of_isDigit digit]

/-- What is left of a text without its blanks are its other characters. -/
theorem mem_condensed
    {text : List Char}
    {c : Char}
    (member : c ∈ text)
    (solid : isBlank c = false)
    (noComma : c ≠ ',') :
    c ∈ condensed text :=
  List.mem_map.mpr ⟨c, List.mem_filter.mpr ⟨member, by simp [solid]⟩, if_neg noComma⟩

/-- Trimming takes nothing away that condensing would leave. -/
theorem condensed_trimmedBy (text : List Char) :
    condensed (trimmedBy isBlank text) = condensed text :=
  congrArg (List.map _) (withoutBlanks_trimmedBy text)

/-- Blanks and commas are characters of equations, so it is enough to look at the others. -/
theorem isEquationCharacter_of_condensed
    {text : List Char}
    (inEquation : ∀ c ∈ condensed text, isEquationCharacter c = true) :
    ∀ c ∈ text, isEquationCharacter c = true := by
  intro c member
  cases blank : isBlank c with
  | true => exact isEquationCharacter_of_isBlank blank
  | false =>
      by_cases comma : c = ','
      · subst comma
        decide
      · exact inEquation c (mem_condensed member blank comma)

/-- What is outside of a class is not trimmed with it. -/
theorem mem_trimmedBy
    {inClass : Char → Bool}
    {text : List Char}
    {c : Char}
    (member : c ∈ text)
    (outside : inClass c = false) :
    c ∈ trimmedBy inClass text := by
  have kept {run : List Char} (inRun : c ∈ run) : c ∈ run.dropWhile inClass := by
    rw [← List.takeWhile_append_dropWhile (p := inClass) (l := run), List.mem_append] at inRun
    rcases inRun with inside | later
    · rw [List.mem_takeWhile_imp inside] at outside
      cases outside
    · exact later
  exact List.mem_reverse.mpr (kept (List.mem_reverse.mpr (kept member)))

/-- All but the underscores is kept where digits are ungrouped. -/
theorem mem_ungrouped?
    {text result : List Char}
    {before : Option Char}
    (read : ungrouped? before text = some result) :
    ∀ c ∈ text, c = '_' ∨ c ∈ result := by
  fun_induction ungrouped? before text generalizing result with
  | case1 => simp
  | case2 b a rest grouped inductionHypothesis =>
      exact List.forall_mem_cons.mpr ⟨.inl rfl, inductionHypothesis read⟩
  | case3 => cases read
  | case4 => cases read
  | case5 before c rest _ inductionHypothesis =>
      obtain ⟨later, found, rfl⟩ := Option.map_eq_some_iff.mp read
      refine List.forall_mem_cons.mpr ⟨.inr List.mem_cons_self, fun d member => ?_⟩
      exact (inductionHypothesis found d member).imp id (List.mem_cons_of_mem c)

end Text

open Text

/-- The words of an expression are made of characters of equations. -/
theorem Grammar.isEquationCharacter_of_cut
    {text : List Char}
    {words : List Token}
    (cutting : Token.cut text = .ok words) :
    ∀ c ∈ text, isEquationCharacter c = true := by
  intro c member
  rw [← Token.flatMap_characters_cut cutting] at member
  obtain ⟨word, isWord, inWord⟩ := List.mem_flatMap.mp member
  have cutWord := isCutWord_of_mem_cut cutting word isWord
  cases word with
  | number run =>
      have numeric := cutWord.2 c inWord
      simp only [Token.isNumeric, Bool.or_eq_true, decide_eq_true_eq] at numeric
      rcases numeric with digit | rfl
      · exact isEquationCharacter_of_isDigit digit
      · decide
  | «variable» digits =>
      rcases List.mem_cons.mp inWord with rfl | inDigits
      · decide
      · exact isEquationCharacter_of_isDigit (cutWord c inDigits)
  | _ =>
      obtain rfl := List.mem_singleton.mp inWord
      decide

namespace Numeral

/-- A character of a number in the digits 0 to 9. -/
def isPlain (c : Char) : Bool :=
  c.isDigit || ['.', 'e', 'E', '+', '-', '_'].contains c

theorem isPlain_of_isDigit
    {c : Char}
    (digit : c.isDigit = true) :
    isPlain c = true := by
  simp [isPlain, digit]

/-- What becomes such a character is a digit of some script, or it is one already. -/
theorem isEquationCharacter_of_isPlain
    {c : Char}
    (plain : isPlain (plainDigit c) = true) :
    isEquationCharacter c = true := by
  unfold plainDigit at plain
  split at plain
  · rename_i value found
    simp [isEquationCharacter, found]
  · simp only [isPlain, Bool.or_eq_true, List.contains_eq_mem, decide_eq_true_eq] at plain
    rcases plain with digit | listed
    · exact isEquationCharacter_of_isDigit digit
    · simp only [List.mem_cons, List.not_mem_nil, or_false] at listed
      rcases listed with rfl | rfl | rfl | rfl | rfl | rfl <;> decide

theorem isPlain_of_splitSign
    {text : List Char}
    (plain : ∀ c ∈ (splitSign text).2, isPlain c = true) :
    ∀ c ∈ text, isPlain c = true := by
  unfold splitSign at plain
  split at plain
  · exact List.forall_mem_cons.mpr ⟨by decide, plain⟩
  · exact List.forall_mem_cons.mpr ⟨by decide, plain⟩
  · exact plain

theorem isPlain_of_exponent?
    {text : List Char}
    (read : (exponent? text).isSome = true) :
    ∀ c ∈ text, isPlain c = true := by
  cases text with
  | nil => simp
  | cons mark rest =>
      simp only [exponent?] at read
      split at read
      · rename_i marked
        simp only [Bool.and_eq_true, Bool.or_eq_true, decide_eq_true_eq] at marked
        obtain ⟨⟨isMark, _⟩, digits⟩ := marked
        refine List.forall_mem_cons.mpr ⟨?_, isPlain_of_splitSign fun c member => ?_⟩
        · rcases isMark with rfl | rfl <;> decide
        · exact isPlain_of_isDigit (List.all_eq_true.mp digits c member)
      · cases read

/-- A magnitude is written in plain characters. -/
theorem isPlain_of_magnitude?
    {text : List Char}
    (read : (magnitude? text).isSome = true) :
    ∀ c ∈ text, isPlain c = true := by
  have digits (run : List Char) : ∀ c ∈ run.takeWhile Char.isDigit, isPlain c = true :=
    fun c member => isPlain_of_isDigit (List.mem_takeWhile_imp member)
  rw [← List.takeWhile_append_dropWhile (p := Char.isDigit) (l := text), List.forall_mem_append]
  refine ⟨digits text, ?_⟩
  unfold magnitude? at read
  dsimp only at read
  split at read
  · rename_i rest found
    split at read
    · cases read
    · rw [Option.isSome_map] at read
      rw [found, ← List.takeWhile_append_dropWhile (p := Char.isDigit) (l := rest)]
      exact List.forall_mem_cons.mpr
        ⟨by decide, List.forall_mem_append.mpr ⟨digits rest, isPlain_of_exponent? read⟩⟩
  · split at read
    · cases read
    · rw [Option.isSome_map] at read
      exact isPlain_of_exponent? read

/-- A numeral that is a number is no word. -/
theorem isPlain_of_ofPlain?
    {text : List Char}
    {negative : Bool}
    {size : Nat}
    {exponent : Int}
    (read : ofPlain? text = some (.finite negative size exponent)) :
    ∀ c ∈ text, isPlain c = true := by
  apply isPlain_of_splitSign
  simp only [ofPlain?, ofUnsigned?] at read
  split at read
  · cases read
  · split at read
    · cases read
    · obtain ⟨_, found, _⟩ := Option.map_eq_some_iff.mp read
      exact isPlain_of_magnitude? (by rw [found]; rfl)

/-- A text that is read as a number has only characters that may stand in an equation. -/
theorem isEquationCharacter_of_ofText?
    {text : String}
    {negative : Bool}
    {size : Nat}
    {exponent : Int}
    (read : ofText? text = some (.finite negative size exponent)) :
    ∀ c ∈ text.toList, isEquationCharacter c = true := by
  obtain ⟨ungrouped, found, read⟩ := Option.bind_eq_some_iff.mp read
  intro c member
  cases blank : isNumeralBlank c with
  | true =>
      rw [isNumeralBlank, Bool.and_eq_true] at blank
      exact isEquationCharacter_of_isBlank blank.1
  | false =>
      have inPlain : plainDigit c ∈ plainText text :=
        List.mem_map_of_mem (mem_trimmedBy member blank)
      apply isEquationCharacter_of_isPlain
      rcases mem_ungrouped? found _ inPlain with underscore | kept
      · rw [underscore]
        decide
      · exact isPlain_of_ofPlain? read _ kept

/-- Only a number has the value zero, and no word. -/
theorem exists_finite_of_eq_zero
    {numeral : Numeral}
    (zero : (numeral.toDouble == 0.0) = true) :
    ∃ negative size exponent, numeral = .finite negative size exponent := by
  have infinity (negative : Bool) : ((infinite negative).toDouble == 0.0) = false := by
    cases negative <;> decide +kernel
  have noNumber : (undefined.toDouble == 0.0) = false := by
    decide +kernel
  cases numeral with
  | finite negative size exponent => exact ⟨negative, size, exponent, rfl⟩
  | infinite negative =>
      rw [infinity negative] at zero
      cases zero
  | undefined =>
      rw [noNumber] at zero
      cases zero

end Numeral

namespace Equation

/-- A right side that counts as zero has only characters that may stand in an equation. -/
theorem isEquationCharacter_of_isZero
    {right : List Char}
    (zero : isZero right = true) :
    ∀ c ∈ right, isEquationCharacter c = true := by
  unfold isZero at zero
  split at zero
  · rename_i numeral read
    obtain ⟨negative, size, exponent, rfl⟩ := Numeral.exists_finite_of_eq_zero zero
    apply isEquationCharacter_of_condensed
    simpa only [String.toList_ofList] using Numeral.isEquationCharacter_of_ofText? read
  · cases zero

/-- What is in front of the equals sign is trimmed, and behind it stands a zero. -/
theorem leftSide_cases
    {equation source : String}
    (split : leftSide equation = .ok source) :
    source = trimmed (String.ofList (equation.toList.takeWhile (· ≠ '='))) ∧
      isZero ((equation.toList.dropWhile (· ≠ '=')).drop 1) = true := by
  unfold leftSide at split
  dsimp only at split
  split at split
  · cases split
  · split at split
    · cases split
    · split at split
      · rename_i zero
        exact ⟨(Except.ok.inj split).symm, zero⟩
      · cases split

/-- An equation whose left-hand side is cut into words has no other characters. -/
theorem isEquationCharacter_of_leftSide
    {equation source : String}
    {words : List Token}
    (split : leftSide equation = .ok source)
    (cutting : Token.ofText source = .ok words) :
    ∀ c ∈ equation.toList, isEquationCharacter c = true := by
  obtain ⟨rfl, zero⟩ := leftSide_cases split
  rw [← List.takeWhile_append_dropWhile (p := (· ≠ '=')) (l := equation.toList),
    List.forall_mem_append]
  constructor
  · apply isEquationCharacter_of_condensed
    have inEquation := Grammar.isEquationCharacter_of_cut cutting
    rwa [trimmed, String.toList_ofList, String.toList_ofList, condensed_trimmedBy] at inEquation
  · have inEquation := isEquationCharacter_of_isZero zero
    cases behind : equation.toList.dropWhile (· ≠ '=') with
    | nil => simp
    | cons mark right =>
        rw [behind] at inEquation
        have isMark : mark = '=' := by
          have found : equation.toList.dropWhile (· ≠ '=') ≠ [] := by
            rw [behind]
            exact List.cons_ne_nil mark right
          have stopped := List.head_dropWhile_not (· ≠ '=') found
          simpa only [behind, List.head_cons, decide_eq_false_iff_not, not_not, ne_eq] using stopped
        exact List.forall_mem_cons.mpr ⟨by rw [isMark]; decide, inEquation⟩

end Equation

/-- The expression of an equation that is read was cut into words. -/
theorem exists_words_of_parseWithin
    {K : Type}
    [Arithmetic K]
    {n : Nat}
    {source : String}
    {expression : Expression K (Fin n)}
    (parsed : Expression.parseWithin n source = .ok expression) :
    ∃ words, Token.ofText source = .ok words := by
  obtain ⟨_, read, _⟩ := bind_eq_ok_iff.mp parsed
  cases cutting : Token.ofText source with
  | ok words => exact ⟨words, rfl⟩
  | error character =>
      rw [Grammar.parse_eq_of_cut_error cutting] at read
      cases read

/-- The equations of a system that can be read have no other characters. -/
theorem isEquationCharacter_of_ofEquations
    {K : Type}
    [Arithmetic K]
    {n : Nat}
    {equations : Vector String n}
    {system : ExpressionSystem K n n}
    (built : ExpressionSystem.ofEquations equations = .ok system) :
    ∀ equation ∈ equations.toList, ∀ c ∈ equation.toList, isEquationCharacter c = true := by
  intro equation member
  obtain ⟨expression, read⟩ := exists_ok_of_mapM (toList_mapM_eq_ok built) member
  obtain ⟨source, split, parsed⟩ := bind_eq_ok_iff.mp read
  obtain ⟨words, cutting⟩ := exists_words_of_parseWithin parsed
  exact Equation.isEquationCharacter_of_leftSide split cutting

end RootFinding
