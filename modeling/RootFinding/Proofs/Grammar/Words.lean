import Mathlib.Data.List.TakeWhile
import RootFinding.Proofs.Grammar.Derivation
import RootFinding.Proofs.Outcome

/-!
# Cutting derivable text into words

Words are cut as long as they go. A number or a variable ends where no digit and no point follows,
and in a derivable text that is so at the end of every factor: only a sign, a star, a closing
parenthesis or the end of the text can follow one. Hence the words of a text are those of its first
part and of the rest, wherever the grammar puts two parts together.
-/

namespace RootFinding

namespace Grammar

open Token

/-- No digit and no point comes first. -/
def EndsWord (after : List Char) : Prop :=
  ∀ c ∈ after.head?, isNumeric c = false

theorem endsWord_nil : EndsWord [] := by
  simp [EndsWord]

theorem endsWord_cons
    {c : Char}
    {rest : List Char}
    (other : isNumeric c = false) :
    EndsWord (c :: rest) := by
  simpa [EndsWord] using other

theorem isNumeric_of_isDigit
    {c : Char}
    (digit : c.isDigit = true) :
    isNumeric c = true := by
  simp [isNumeric, digit]

theorem isNumeric_signCharacter (negative : Bool) :
    isNumeric (signCharacter negative) = false := by
  cases negative <;> decide

/-- A run of one class before a character of another is exactly what is taken and dropped. -/
theorem takeWhile_dropWhile_of_run
    {inClass : Char → Bool}
    {run after : List Char}
    (inside : ∀ c ∈ run, inClass c = true)
    (outside : ∀ c ∈ after.head?, inClass c = false) :
    (run ++ after).takeWhile inClass = run ∧
      (run ++ after).dropWhile inClass = after := by
  induction run with
  | nil =>
      cases after with
      | nil =>
          simp
      | cons c rest =>
          have first : inClass c = false := outside c rfl
          simp [first]
  | cons c run inductionHypothesis =>
      have first : inClass c = true := inside c (by simp)
      have later := inductionHypothesis (fun d member => inside d (by simp [member]))
      simpa [first] using later

/-- A run of a number is cut as one token where it ends. -/
theorem cut_numeric_append
    {run after : List Char}
    (nonempty : run ≠ [])
    (numeric : ∀ c ∈ run, isNumeric c = true)
    (ends : EndsWord after) :
    cut (run ++ after) = (cut after).map ([.number run] ++ ·) := by
  cases run with
  | nil =>
      exact absurd rfl nonempty
  | cons c run =>
      have first : isNumeric c = true := numeric c (by simp)
      have later : ∀ d ∈ run, isNumeric d = true :=
        fun d member => numeric d (by simp [member])
      obtain ⟨taken, dropped⟩ := takeWhile_dropWhile_of_run later ends
      rw [List.cons_append, cut]
      simp only [first, ↓reduceIte, taken, dropped]
      cases cut after <;> rfl

/-- A variable is cut with all its digits. -/
theorem cut_variable_append
    {digits after : List Char}
    (plain : ∀ c ∈ digits, c.isDigit = true)
    (ends : EndsWord after) :
    cut ('x' :: (digits ++ after)) = (cut after).map ([.variable digits] ++ ·) := by
  have outside : ∀ c ∈ after.head?, c.isDigit = false := by
    intro c member
    have other := ends c member
    simp only [isNumeric, Bool.or_eq_false_iff] at other
    exact other.1
  obtain ⟨taken, dropped⟩ := takeWhile_dropWhile_of_run plain outside
  rw [cut]
  simp only [show isNumeric 'x' = false by decide, Bool.false_eq_true, ↓reduceIte,
    taken, dropped]
  cases cut after <;> rfl

/-- A sign is cut by itself, whatever follows. -/
theorem cut_sign_cons
    {c : Char}
    {word : Token}
    (sign : Token.sign? c = some word)
    (after : List Char) :
    cut (c :: after) = (cut after).map ([word] ++ ·) := by
  have notNumeric : isNumeric c = false := by
    unfold Token.sign? at sign
    split at sign <;> first | decide | cases sign
  have notVariable : c ≠ 'x' := by
    intro same
    subst c
    simp [Token.sign?] at sign
  rw [cut]
  simp only [notNumeric, notVariable, sign, Bool.false_eq_true, ↓reduceIte]
  cases cut after <;> rfl

/-- `words` are the words of `text`, whatever follows that does not go on with its last one. -/
def CutsTo (text : List Char) (words : List Token) : Prop :=
  ∀ after, EndsWord after → cut (text ++ after) = (cut after).map (words ++ ·)

/-- A text that is cut in front of every ending is cut at the end. -/
theorem CutsTo.cut_eq
    {text : List Char}
    {words : List Token}
    (cuts : CutsTo text words) :
    cut text = .ok words := by
  have alone := cuts [] endsWord_nil
  rw [List.append_nil] at alone
  rw [alone, cut]
  simp [Except.map]

/-- Two texts are cut one after the other where the second does not go on with the first. -/
theorem CutsTo.append
    {first second : List Char}
    {words others : List Token}
    (cuts : CutsTo first words)
    (later : CutsTo second others)
    (ends : ∀ after, EndsWord after → EndsWord (second ++ after)) :
    CutsTo (first ++ second) (words ++ others) := by
  intro after afterEnds
  rw [List.append_assoc, cuts _ (ends after afterEnds), later after afterEnds]
  cases cut after with
  | error c =>
      rfl
  | ok rest =>
      simp [Except.map]

/-- A sign may stand before any text. -/
theorem CutsTo.sign_cons
    {c : Char}
    {word : Token}
    (sign : Token.sign? c = some word)
    {text : List Char}
    {words : List Token}
    (cuts : CutsTo text words) :
    CutsTo (c :: text) (word :: words) := by
  intro after ends
  rw [List.cons_append, cut_sign_cons sign, cuts after ends]
  cases cut after with
  | error c =>
      rfl
  | ok rest =>
      simp [Except.map]

theorem cutsTo_sign
    {c : Char}
    {word : Token}
    (sign : Token.sign? c = some word) :
    CutsTo [c] [word] := by
  intro after _
  exact cut_sign_cons sign after

/-- Two texts are cut one after the other where a sign begins the second. -/
theorem CutsTo.append_sign_cons
    {first second : List Char}
    {c : Char}
    {words others : List Token}
    {word : Token}
    (cuts : CutsTo first words)
    (sign : Token.sign? c = some word)
    (other : isNumeric c = false)
    (later : CutsTo second others) :
    CutsTo (first ++ c :: second) (words ++ word :: others) :=
  cuts.append (later.sign_cons sign) (fun _ _ => endsWord_cons other)

/-- What the cut of a text may hold: numbers of digits and points, variables with digits. -/
def IsCutWord : Token → Prop
  | .number text => text ≠ [] ∧ ∀ c ∈ text, isNumeric c = true
  | .variable digits => ∀ c ∈ digits, c.isDigit = true
  | _ => True

theorem isCutWord_of_sign
    {c : Char}
    {word : Token}
    (sign : Token.sign? c = some word) :
    IsCutWord word := by
  unfold Token.sign? at sign
  split at sign <;> cases sign <;> trivial

/-- Every word of a cut is a run of its own class. -/
theorem isCutWord_of_mem_cut
    {text : List Char}
    {words : List Token}
    (cutting : cut text = .ok words) :
    ∀ word ∈ words, IsCutWord word := by
  fun_induction cut text generalizing words with
  | case1 =>
      cases cutting
      simp
  | case2 c rest numeric inductionHypothesis =>
      obtain ⟨following, later, cutting⟩ := Outcome.bind_eq_ok_iff.mp cutting
      cases cutting
      have run : IsCutWord (.number (c :: rest.takeWhile isNumeric)) := by
        refine ⟨List.cons_ne_nil _ _, ?_⟩
        intro d member
        rcases List.mem_cons.mp member with rfl | inRun
        · exact numeric
        · exact List.mem_takeWhile_imp inRun
      exact List.forall_mem_cons.mpr ⟨run, inductionHypothesis later⟩
  | case3 rest notNumeric inductionHypothesis =>
      obtain ⟨following, later, cutting⟩ := Outcome.bind_eq_ok_iff.mp cutting
      cases cutting
      have run : IsCutWord (.variable (rest.takeWhile Char.isDigit)) :=
        fun d member => List.mem_takeWhile_imp member
      exact List.forall_mem_cons.mpr ⟨run, inductionHypothesis later⟩
  | case4 c rest notNumeric notVariable word sign inductionHypothesis =>
      obtain ⟨following, later, cutting⟩ := Outcome.bind_eq_ok_iff.mp cutting
      cases cutting
      exact List.forall_mem_cons.mpr ⟨isCutWord_of_sign sign, inductionHypothesis later⟩
  | case5 =>
      cases cutting

end Grammar

end RootFinding
