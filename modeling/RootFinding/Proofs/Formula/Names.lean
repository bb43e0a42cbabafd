import RootFinding.Proofs.Grammar.Words
import RootFinding.Proofs.Sample.Digits
import RootFinding.Verification

/-!
# Names of variables in a formula

A variable may be written with zeros in front of its number. A formula names it by the bare number,
so the zeros are dropped before the words are cut, and what is left is the name under which the
entry of the variable is found.
-/

namespace RootFinding

namespace Text

theorem digitValue?_of_isDigit
    {c : Char}
    (digit : c.isDigit = true) :
    (digitValue? c).isSome = true := by
  obtain ⟨above, below⟩ := code_of_isDigit digit
  simp [digitValue?, digitZeros, above, Nat.lt_succ_of_le below]

end Text

namespace Verification

open Grammar

section Zeros

theorem withoutLeadingZeros_cons
    {c : Char}
    (other : c ≠ 'x')
    (rest : List Char) :
    withoutLeadingZeros (c :: rest) = c :: withoutLeadingZeros rest := by
  rw [withoutLeadingZeros]
  exact other

/-- A run without a variable is passed over unchanged. -/
theorem withoutLeadingZeros_append
    {run : List Char}
    (others : ∀ c ∈ run, c ≠ 'x')
    (rest : List Char) :
    withoutLeadingZeros (run ++ rest) = run ++ withoutLeadingZeros rest := by
  induction run with
  | nil => rfl
  | cons c run inductionHypothesis =>
      obtain ⟨other, later⟩ := List.forall_mem_cons.mp others
      rw [List.cons_append, withoutLeadingZeros_cons other, inductionHypothesis later,
        List.cons_append]

theorem head?_withoutLeadingZeros (text : List Char) :
    (withoutLeadingZeros text).head? = text.head? := by
  cases text with
  | nil => rw [withoutLeadingZeros]
  | cons c rest =>
      by_cases named : c = 'x'
      · subst c
        rw [withoutLeadingZeros]
        rfl
      · rw [withoutLeadingZeros_cons named]
        rfl

theorem ne_x_of_isDigit
    {c : Char}
    (digit : c.isDigit = true) :
    c ≠ 'x' := by
  rintro rfl
  cases digit

/-- The digits behind the letter of a variable are left but for zeros in front of another digit. -/
theorem withoutLeadingZeros_variable
    {run rest : List Char}
    (plain : ∀ c ∈ run, c.isDigit = true)
    (ends : ∀ c ∈ rest.head?, c.isDigit = false) :
    ∃ kept,
      withoutLeadingZeros ('x' :: (run ++ rest)) = 'x' :: (kept ++ withoutLeadingZeros rest) ∧
        (∀ c ∈ kept, c.isDigit = true) ∧
        (run.dropWhile (· = '0') ≠ [] → kept = run.dropWhile (· = '0')) := by
  obtain ⟨zeros, significant, rfl, allZero, notZero⟩ :
      ∃ zeros significant,
        run = zeros ++ significant ∧ (∀ c ∈ zeros, c = '0') ∧ ∀ c ∈ significant.head?, c ≠ '0' := by
    refine ⟨run.takeWhile (· = '0'), run.dropWhile (· = '0'),
      List.takeWhile_append_dropWhile.symm, ?_, ?_⟩
    · exact fun c member => by simpa using List.mem_takeWhile_imp member
    · intro c isHead
      have stopped := List.head?_dropWhile_not (fun c : Char => decide (c = '0')) run
      rw [Option.mem_def.mp isHead] at stopped
      simpa using stopped
  have zerosOnly : ∀ c ∈ zeros, decide (c = '0') = true :=
    fun c member => decide_eq_true (allZero c member)
  obtain ⟨_, dropped⟩ :=
    takeWhile_dropWhile_of_run zerosOnly (fun c isHead => decide_eq_false (notZero c isHead))
  have significantPlain : ∀ c ∈ significant, c.isDigit = true :=
    fun c member => plain c (List.mem_append_right _ member)
  have notZeroBehind : ∀ c ∈ (significant ++ rest).head?, decide (c = '0') = false := by
    intro c isHead
    cases significant with
    | nil =>
        refine decide_eq_false ?_
        rintro rfl
        cases ends '0' isHead
    | cons first more => exact decide_eq_false (notZero c isHead)
  obtain ⟨taken, _⟩ := takeWhile_dropWhile_of_run zerosOnly notZeroBehind
  have keptBehind :
      withoutLeadingZeros (significant ++ rest) = significant ++ withoutLeadingZeros rest :=
    withoutLeadingZeros_append (fun c member => ne_x_of_isDigit (significantPlain c member)) rest
  rw [dropped, withoutLeadingZeros]
  simp only [List.append_assoc, taken, List.drop_left, keptBehind]
  cases significant with
  | nil =>
      have zeroAtMost (count : Nat) :
          ∀ c ∈ if count = 0 then [] else ['0'], c.isDigit = true := by
        intro c member
        split at member
        · cases member
        · rw [List.mem_singleton.mp member]
          decide
      exact ⟨_, rfl, zeroAtMost _, by simp⟩
  | cons first more =>
      have read := Text.digitValue?_of_isDigit (significantPlain first List.mem_cons_self)
      simp only [List.cons_append, List.head?_cons, read, ↓reduceIte]
      exact ⟨first :: more, rfl, significantPlain, fun _ => rfl⟩

/-- The digits of the number of a variable are left as its name has them. -/
theorem withoutLeadingZeros_name
    {run rest : List Char}
    {index : Nat}
    (digits : IsDigits run)
    (value : Text.digitsValue run = index + 1)
    (ends : ∀ c ∈ rest.head?, c.isDigit = false) :
    withoutLeadingZeros ('x' :: (run ++ rest)) = nameOf index ++ withoutLeadingZeros rest := by
  obtain ⟨kept, kept_eq, _, significant⟩ := withoutLeadingZeros_variable digits.plain ends
  have value_eq : Text.digitsValue (run.dropWhile (· = '0')) = index + 1 :=
    (Text.digitsValue_dropWhile_zero run).trans value
  have nonempty : run.dropWhile (· = '0') ≠ [] := by
    intro none
    rw [none] at value_eq
    cases value_eq
  have notZero : (run.dropWhile (· = '0')).head? ≠ some '0' := by
    intro isHead
    have stopped := List.head?_dropWhile_not (fun c : Char => decide (c = '0')) run
    rw [isHead] at stopped
    simp at stopped
  have plain : ∀ c ∈ run.dropWhile (· = '0'), c.isDigit = true :=
    fun c member => digits.plain c ((List.dropWhile_suffix _).mem member)
  rw [kept_eq, significant nonempty, nameOf, ← value_eq,
    Text.toDigits_digitsValue nonempty plain notZero]
  rfl

end Zeros

section Entries

/-- Different variables have different names. -/
theorem nameOf_injective {first second : Nat} (same : nameOf first = nameOf second) :
    first = second := by
  have numbers := congrArg (Nat.ofDigitChars 10 · 0) (List.cons.inj same).2
  simpa using numbers

/-- Looking an index up in a numbered list finds the entry at that place. -/
private theorem find?_zipIdx {K : Type} (entries : List K) (start index : Nat) :
    ((entries.zipIdx start).find? fun entry => entry.2 = start + index).map (·.1) =
      entries[index]? := by
  induction entries generalizing start index with
  | nil => rfl
  | cons first rest inductionHypothesis =>
      cases index with
      | zero => simp
      | succ index =>
          have later := inductionHypothesis (start + 1) index
          rw [Nat.succ_add_eq_add_succ] at later
          simpa [List.zipIdx_cons] using later

/-- Under the name of a variable its entry is found. -/
theorem entryNamed?_nameOf {K : Type} (solution : List K) (index : Nat) :
    entryNamed? solution (nameOf index) = solution[index]? := by
  have sameTest :
      (fun entry : K × Nat => decide (nameOf entry.2 = nameOf index)) =
        fun entry => decide (entry.2 = 0 + index) := by
    funext entry
    rw [Nat.zero_add]
    exact decide_eq_decide.mpr ⟨nameOf_injective, congrArg nameOf⟩
  rw [entryNamed?, sameTest]
  exact find?_zipIdx solution 0 index

end Entries

end Verification

end RootFinding
