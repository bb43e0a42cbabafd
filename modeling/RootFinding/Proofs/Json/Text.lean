import RootFinding.Json.Reader
import RootFinding.Json.Writer

/-!
# Strings read back

Each character is escaped on its own, so a string is read back character by character. The
characters of a string are no halves of surrogate pairs, so no two of them are joined.
-/

namespace RootFinding

namespace JsonValue

theorem hexValue?_digitChar : ∀ digit < 16, hexValue? (Nat.digitChar digit) = some digit := by
  decide

/-- Four hexadecimal digits are read back as the code unit. -/
theorem codeUnit?_hexDigits
    {unit : Nat}
    (small : unit < 0x10000) :
    ∃ a b c d, Text.hexDigits 4 unit = [a, b, c, d] ∧ codeUnit? a b c d = some unit := by
  have place (shift : Nat) := hexValue?_digitChar (unit >>> shift % 16) (Nat.mod_lt _ (by decide))
  have digits :
      Text.hexDigits 4 unit =
        [12, 8, 4, 0].map fun shift => Nat.digitChar (unit >>> shift % 16) :=
    rfl
  refine ⟨_, _, _, _, digits, ?_⟩
  simp only [codeUnit?, place, Option.bind_eq_bind, Option.bind_some, Option.pure_def,
    Option.some.injEq]
  simp only [Nat.shiftRight_eq_div_pow]
  omega

/-- The letter of a control character is read as that character. -/
theorem escape?_of_controlLetter?
    {c letter : Char}
    (found : controlLetter? c = some letter) :
    escape? letter = some c := by
  unfold controlLetter? at found
  split at found
  · rename_i code
    cases found
    exact congrArg some (Char.toNat_inj.mp code.symm)
  · split at found
    · rename_i code
      cases found
      exact congrArg some (Char.toNat_inj.mp code.symm)
    · unfold Text.layoutLetter? at found
      split at found <;> cases found <;> rfl

section Units

variable (seen : List Nat) (rest : List Char)

/-- An escaped letter is read as its character. -/
theorem readUnits_escape
    {letter character : Char}
    (found : escape? letter = some character) :
    readUnits seen ('\\' :: letter :: rest) = readUnits (character.toNat :: seen) rest := by
  have notUnit : letter ≠ 'u' := by
    rintro rfl
    cases found
  rw [readUnits.eq_def]
  simp [notUnit, found]

/-- Four hexadecimal digits are read as their unit. -/
theorem readUnits_unit
    {unit : Nat}
    (small : unit < 0x10000) :
    readUnits seen ('\\' :: 'u' :: Text.hexDigits 4 unit ++ rest) =
      readUnits (unit :: seen) rest := by
  obtain ⟨a, b, c, d, digits, value⟩ := codeUnit?_hexDigits small
  rw [digits]
  simp [readUnits, value]

theorem readUnits_plain
    {c : Char}
    (printed : ¬c.toNat < 0x20)
    (plain : ¬(c = '"' ∨ c = '\\')) :
    readUnits seen (c :: rest) = readUnits (c.toNat :: seen) rest := by
  rw [not_or] at plain
  rw [readUnits.eq_def]
  simp [plain, printed]

/-- A character is read back from what is written for it. -/
theorem readUnits_escaped (c : Char) :
    readUnits seen (escaped c ++ rest) = readUnits (c.toNat :: seen) rest := by
  unfold escaped
  split
  · rename_i letter found
    exact readUnits_escape seen rest (escape?_of_controlLetter? found)
  · split
    · rename_i control
      exact readUnits_unit seen rest (Nat.lt_trans control (by decide))
    · rename_i printed
      split
      · rename_i marked
        have found : escape? c = some c := by
          rcases (Bool.or_eq_true _ _).mp marked with quote | backslash
          · rw [of_decide_eq_true quote]
            rfl
          · rw [of_decide_eq_true backslash]
            rfl
        exact readUnits_escape seen rest found
      · rename_i plain
        exact readUnits_plain seen rest printed (by simpa using plain)

end Units

/-- The code of a character is not half of a surrogate pair. -/
theorem isHalf_toNat (c : Char) : isHalf c.toNat = false := by
  have valid := c.valid
  simp only [isHalf, Bool.and_eq_false_iff, decide_eq_false_iff_not]
  change ¬0xD800 ≤ c.val.toNat ∨ ¬c.val.toNat ≤ 0xDFFF
  rcases valid with below | above <;> omega

/-- The characters of a text hold no halves of pairs, so none are joined. -/
theorem joinedPairs_toNat (characters : List Char) :
    joinedPairs (characters.map Char.toNat) = characters.map Char.toNat := by
  induction characters with
  | nil => rfl
  | cons c rest inductionHypothesis =>
      cases rest with
      | nil => rfl
      | cons next rest =>
          have single : pairPoint? c.toNat next.toNat = none := by
            have notHalf := isHalf_toNat c
            simp only [isHalf, Bool.and_eq_false_iff, decide_eq_false_iff_not] at notHalf
            simp only [pairPoint?, Bool.and_eq_true, decide_eq_true_eq]
            rw [if_neg (by omega)]
          simp only [List.map_cons, joinedPairs, single] at inductionHypothesis ⊢
          rw [inductionHypothesis]

/-- Characters up to the closing quote are read as their codes. -/
theorem readUnits_escapedText
    (seen characters : List Char)
    (after : List Char) :
    readUnits (seen.map Char.toNat) (characters.flatMap escaped ++ '"' :: after) =
      .ok ((seen.reverse ++ characters).map Char.toNat, after) := by
  induction characters generalizing seen with
  | nil =>
      rw [List.flatMap_nil, List.nil_append, readUnits, ← List.map_reverse, joinedPairs_toNat,
        List.append_nil]
  | cons c rest inductionHypothesis =>
      rw [List.flatMap_cons, List.append_assoc, readUnits_escaped, ← List.map_cons,
        inductionHypothesis, List.reverse_cons, List.append_assoc]
      rfl

/-- A text is the text of its code points. -/
theorem pointsText_toNat (text : String) : pointsText (text.toList.map Char.toNat) = text := by
  have same : pointChar ∘ Char.toNat = id := by
    funext c
    rw [Function.comp_apply, pointChar, isHalf_toNat]
    exact Char.ofNat_toNat c
  rw [pointsText, List.map_map, same, List.map_id, String.ofList_toList]

theorem ofPoints_toNat (text : String) : ofPoints (text.toList.map Char.toNat) = .text text := by
  have whole : (text.toList.map Char.toNat).any isHalf = false := by
    simp [isHalf_toNat]
  rw [ofPoints, whole, pointsText_toNat]
  rfl

/-- Behind its opening quote a written string is read back. -/
theorem readUnits_writtenText
    (text : String)
    (after : List Char) :
    ∃ rest,
      (writtenText text).toList ++ after = '"' :: rest ∧
        readUnits [] rest = .ok (text.toList.map Char.toNat, after) := by
  refine ⟨text.toList.flatMap escaped ++ '"' :: after, ?_, readUnits_escapedText [] _ after⟩
  rw [writtenText, String.toList_ofList]
  simp

end JsonValue

end RootFinding
