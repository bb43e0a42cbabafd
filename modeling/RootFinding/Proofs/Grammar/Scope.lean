import RootFinding.Proofs.Verification.Agreement

/-!
# The variables of a bound expression

An expression that is bound to a system of `n` variables is compared with it after it was read, and
of each term only the first two variables are left by then. So these are at most `n`, and a text in
which one of them is not is refused with the first that is out of reach. Of a third or later
variable nothing more is asked than that it is one at all. What is written in a text is told by the
grammar alone: no text is derived in two ways.
-/

namespace RootFinding

open Outcome

namespace Grammar

open Token

section ShortNumbers

/-- The words that were read before the rest have no variable number that is too long. -/
def ShortUpTo (words rest : List Token) : Prop :=
  ∀ digits, .variable digits ∈ words →
    digits.length ≤ variableDigitLimit ∨ .variable digits ∈ rest

variable {words rest : List Token}

theorem length_le_of_ofVariable
    {digits : List Char}
    {factor : Factor}
    (read : Factor.ofVariable digits = .ok factor) :
    digits.length ≤ variableDigitLimit := by
  unfold Factor.ofVariable at read
  split at read
  · cases read
  · split at read
    · cases read
    · rename_i notLong
      exact Nat.not_lt.mp notLong

/-- The variables of a factor have admissible lengths. -/
theorem shortUpTo_of_recognize
    {factor : Factor}
    {shorter : rest.length < words.length}
    (read : Factor.recognize words = .ok (factor, ⟨rest, shorter⟩)) :
    ShortUpTo words rest := by
  intro digits member
  unfold Factor.recognize at read
  split at read
  · obtain ⟨_, _, read⟩ := bind_eq_ok_iff.mp read
    cases read
    exact .inr (by simpa using member)
  · obtain ⟨_, named, read⟩ := bind_eq_ok_iff.mp read
    cases read
    rcases List.mem_cons.mp member with same | later
    · cases same
      exact .inl (length_le_of_ofVariable named)
    · exact .inr later
  · obtain ⟨_, _, read⟩ := bind_eq_ok_iff.mp read
    cases read
    exact .inr (by simpa using member)
  · obtain ⟨_, _, read⟩ := bind_eq_ok_iff.mp read
    cases read
  · cases read
  · cases read
  · cases read
  · cases read

theorem shortUpTo_of_recognizeProduct
    {factors : List Factor}
    {shorter : rest.length < words.length}
    (read : Factor.recognizeProduct words = .ok (factors, ⟨rest, shorter⟩)) :
    ShortUpTo words rest := by
  induction words using Factor.recognizeProduct.induct generalizing factors rest with
  | _ words inductionHypothesis =>
      cases first : Factor.recognize words with
      | error cause =>
          rw [recognizeProduct_of_error first] at read
          cases read
      | ok value =>
          obtain ⟨factor, following, followingShorter⟩ := value
          have short := shortUpTo_of_recognize first
          by_cases times : ∃ more, following = .times :: more
          · obtain ⟨more, rfl⟩ := times
            rw [recognizeProduct_of_times first] at read
            cases later : Factor.recognizeProduct more with
            | error cause =>
                rw [later] at read
                cases read
            | ok value =>
                obtain ⟨others, after, afterShorter⟩ := value
                rw [later] at read
                cases read
                intro digits member
                refine (short digits member).elim .inl fun inFollowing => ?_
                exact inductionHypothesis _ followingShorter more rfl later digits
                  (by simpa using inFollowing)
          · have last : ∀ more, following ≠ .times :: more :=
              fun more same => times ⟨more, same⟩
            rw [recognizeProduct_of_last first last] at read
            cases read
            exact short

theorem shortUpTo_of_recognizeSum
    {negative : Bool}
    {terms : List SignedTerm}
    (read : SignedTerm.recognizeSum negative words = .ok terms) :
    ShortUpTo words [] := by
  induction negative, words using SignedTerm.recognizeSum.induct generalizing terms with
  | _ negative words inductionHypothesis =>
      cases first : Factor.recognizeProduct words with
      | error cause =>
          rw [recognizeSum_of_error first] at read
          cases read
      | ok value =>
          obtain ⟨factors, following, followingShorter⟩ := value
          have short := shortUpTo_of_recognizeProduct first
          cases following with
          | nil => exact short
          | cons token more =>
              cases signed : SignedTerm.sign? token with
              | none =>
                  rw [recognizeSum_of_other first signed] at read
                  cases read
              | some sign =>
                  rw [recognizeSum_of_sign first signed] at read
                  cases later : SignedTerm.recognizeSum sign more with
                  | error cause =>
                      rw [later] at read
                      cases read
                  | ok others =>
                      intro digits member
                      rcases short digits member with isShort | inFollowing
                      · exact .inl isShort
                      · rcases List.mem_cons.mp inFollowing with rfl | inMore
                        · cases signed
                        · exact inductionHypothesis _ followingShorter token more rfl sign later
                            digits inMore

/-- The variables of an expression have admissible lengths. -/
theorem shortUpTo_of_ofTokens
    {terms : List SignedTerm}
    (read : SignedTerm.ofTokens words = .ok terms) :
    ShortUpTo words [] := by
  rcases ofTokens_cases words with ⟨rfl, _⟩ | ⟨negative, rest, rfl, signed⟩ | unsigned
  · intro digits member
    cases member
  · rw [signed] at read
    intro digits member
    refine shortUpTo_of_recognizeSum read digits ?_
    rcases List.mem_cons.mp member with same | later
    · cases negative <;> cases same
    · exact later
  · rw [unsigned] at read
    exact shortUpTo_of_recognizeSum read

end ShortNumbers

/-- A text that is read has no other derivation than the one that was found. -/
theorem DerivesExpression.eq_of_ofText
    {text : String}
    {written other : List SignedTerm}
    (derived : DerivesExpression (Text.condensed text.toList) other)
    (read : SignedTerm.ofText text = .ok written) :
    other = written := by
  obtain ⟨words, cutting, recognized⟩ := exists_words_of_derivesExpression derived
  rw [SignedTerm.ofText, Token.ofText, cutting] at read
  have short := shortUpTo_of_ofTokens read
  have readOther := recognized fun digits member => (short digits member).resolve_right (by simp)
  exact Except.ok.inj (readOther.symm.trans read)

end Grammar

section Restriction

variable {ε ι κ : Type}

/-- A monomial is renamed unless one of its variables has no name; the first such one is reported. -/
theorem Monomial.failure?_rename?
    (name : ι → Except ε κ)
    (monomial : Monomial ι) :
    failure? (monomial.rename? name) =
      monomial.toList.findSome? fun i => failure? (name i) := by
  cases monomial with
  | one => rfl
  | single first =>
      rw [rename?, failure?_bind_pure]
      simp [toList]
  | product first second =>
      rw [rename?, failure?_pair]
      simp only [toList, List.findSome?_cons, List.findSome?_nil]
      cases failure? (name first) <;> cases failure? (name second) <;> rfl

variable {K : Type} {bound : Nat}

/-- The first variable of an expression that is not among the first `n`. -/
def Expression.foreign? (n : Nat) (expression : Expression K (Fin bound)) : Option (Fin bound) :=
  (expression.flatMap fun term => term.monomial.toList).find? fun index => n ≤ index.val

/-- The name of a variable in a smaller system is missing where the variable is. -/
theorem failure?_inside
    (n : Nat)
    (i : Fin bound) :
    failure?
        (if inside : i.val < n then .ok ⟨i.val, inside⟩ else .error i :
          Except (Fin bound) (Fin n)) =
      Option.guard (fun i => n ≤ i.val) i := by
  by_cases inside : i.val < n
  · simp [inside, Nat.not_le.mpr inside, failure?, Option.guard]
  · simp [inside, Nat.not_lt.mp inside, failure?, Option.guard]

/-- An expression is restricted unless it has a foreign variable; the first one is reported. -/
theorem Expression.failure?_restrict?
    (n : Nat)
    (expression : Expression K (Fin bound)) :
    failure? (expression.restrict? n) = expression.foreign? n := by
  rw [restrict?, rename?, failure?_mapM, foreign?, List.find?_flatMap]
  congr 1
  funext term
  rw [Term.rename?, failure?_bind_pure, Monomial.failure?_rename?, ← List.findSome?_guard]
  simp only [failure?_inside]

end Restriction

namespace Grammar

/-- The variables of a written term that are kept when it is read. -/
def keptVariables (term : SignedTerm) : List (Fin variableLimit) :=
  (variableIndices term.factors).take 2

/-- The text is an expression in which the variable is a factor. -/
def Mentions (text : String) (index : Fin variableLimit) : Prop :=
  ∃ written,
    DerivesExpression (Text.condensed text.toList) written ∧
      ∃ term ∈ written, index ∈ variableIndices term.factors

/-- The text is an expression in which the variable is one of the first two of a term. -/
def Keeps (text : String) (index : Fin variableLimit) : Prop :=
  ∃ written,
    DerivesExpression (Text.condensed text.toList) written ∧
      ∃ term ∈ written, index ∈ keptVariables term

section Binding

variable {K : Type} [Arithmetic K] {text : String} {n : Nat}

/-- The variables of the terms that are evaluated are those that the text keeps. -/
theorem mem_variables_iff_keeps
    {parsed : Expression K (Fin variableLimit)}
    (read : Expression.parse text = .ok parsed)
    {index : Fin variableLimit} :
    index ∈ (parsed.flatMap fun term => term.monomial.toList) ↔ Keeps text index := by
  obtain ⟨written, readWritten, derived, rfl⟩ := Verification.exists_written_of_parse read
  simp only [List.flatMap_map, List.mem_flatMap, SignedTerm.toTerm, Monomial.toList_ofList,
    filterMap_index?_eq_variableIndices, Keeps, keptVariables]
  constructor
  · rintro ⟨term, member, kept⟩
    exact ⟨written, derived, term, member, kept⟩
  · rintro ⟨other, derivedOther, term, member, kept⟩
    obtain rfl := derivedOther.eq_of_ofText readWritten
    exact ⟨term, member, kept⟩

/-- What is bound is what was read, and a foreign variable that is kept is reported. -/
theorem parseWithin_of_parse
    {parsed : Expression K (Fin variableLimit)}
    (read : Expression.parse text = .ok parsed) :
    failure? (Expression.parseWithin (K := K) n text) =
      (parsed.foreign? n).map fun index => .foreignVariable (index.val + 1) n := by
  rw [Expression.parseWithin, read, ok_bind, Expression.within,
    ← Expression.failure?_restrict?]
  cases parsed.restrict? n <;> rfl

/-- A text that can be read is bound exactly if it keeps to the variables of the system. -/
theorem exists_bound_iff
    {parsed : Expression K (Fin variableLimit)}
    (read : Expression.parse text = .ok parsed) :
    (∃ expression : Expression K (Fin n), Expression.parseWithin n text = .ok expression) ↔
      ∀ index, Keeps text index → index.val < n := by
  rw [← failure?_eq_none_iff, parseWithin_of_parse read, Option.map_eq_none_iff,
    Expression.foreign?, List.find?_eq_none]
  simp only [mem_variables_iff_keeps read, decide_eq_true_eq, Nat.not_le]

/-- Where a text keeps a foreign variable, one such variable is reported. -/
theorem exists_foreign_of_keeps
    {parsed : Expression K (Fin variableLimit)}
    (read : Expression.parse text = .ok parsed)
    {index : Fin variableLimit}
    (keeps : Keeps text index)
    (foreign : n ≤ index.val) :
    ∃ first,
      Keeps text first ∧
        n ≤ first.val ∧
        Expression.parseWithin (K := K) n text =
          .error (.foreignVariable (first.val + 1) n) := by
  cases found : parsed.foreign? n with
  | none =>
      have inside := List.find?_eq_none.mp found index ((mem_variables_iff_keeps read).mpr keeps)
      exact absurd (decide_eq_true foreign) inside
  | some first =>
      refine ⟨first, (mem_variables_iff_keeps read).mp (List.mem_of_find?_eq_some found),
        of_decide_eq_true (List.find?_some found :), ?_⟩
      rw [← failure?_eq_some_iff, parseWithin_of_parse read, found]
      rfl

/-- A variable that is mentioned and not kept stands behind two others of its term. -/
theorem exists_later_of_not_keeps
    {index : Fin variableLimit}
    (mentions : Mentions text index)
    (notKept : ¬Keeps text index) :
    ∃ written,
      DerivesExpression (Text.condensed text.toList) written ∧
        ∃ term ∈ written, index ∈ (variableIndices term.factors).drop 2 := by
  obtain ⟨written, derived, term, member, isFactor⟩ := mentions
  refine ⟨written, derived, term, member, ?_⟩
  rw [← List.take_append_drop 2 (variableIndices term.factors), List.mem_append] at isFactor
  exact isFactor.resolve_left fun kept => notKept ⟨written, derived, term, member, kept⟩

/--
An expression is bound to `n` variables exactly if it can be read and the first two variables of
every term are among them. Of those that are not, one is reported. So a bound expression mentions a
variable that the system does not have only behind two others of the same term.
-/
theorem bound_iff_keeps_inside (text : String) (n : Nat) :
    ((∃ expression : Expression K (Fin n), Expression.parseWithin n text = .ok expression) ↔
        (∃ parsed : Expression K (Fin variableLimit), Expression.parse text = .ok parsed) ∧
          ∀ index, Keeps text index → index.val < n) ∧
      (∀ (parsed : Expression K (Fin variableLimit)) (index : Fin variableLimit),
        Expression.parse text = .ok parsed → Keeps text index → n ≤ index.val →
          ∃ first,
            Keeps text first ∧ n ≤ first.val ∧
              Expression.parseWithin (K := K) n text =
                .error (.foreignVariable (first.val + 1) n)) ∧
      ∀ (expression : Expression K (Fin n)) (index : Fin variableLimit),
        Expression.parseWithin n text = .ok expression → Mentions text index → n ≤ index.val →
          ¬Keeps text index ∧
            ∃ written,
              DerivesExpression (Text.condensed text.toList) written ∧
                ∃ term ∈ written, index ∈ (variableIndices term.factors).drop 2 := by
  refine ⟨⟨?_, ?_⟩, ?_, ?_⟩
  · intro bound
    obtain ⟨parsed, read, _⟩ := bind_eq_ok_iff.mp bound.choose_spec
    exact ⟨⟨parsed, read⟩, (exists_bound_iff read).mp bound⟩
  · rintro ⟨⟨parsed, read⟩, inside⟩
    exact (exists_bound_iff read).mpr inside
  · intro parsed index read keeps foreign
    exact exists_foreign_of_keeps read keeps foreign
  · intro expression index bound mentions foreign
    obtain ⟨parsed, read, _⟩ := bind_eq_ok_iff.mp bound
    have notKept : ¬Keeps text index := fun keeps =>
      absurd ((exists_bound_iff read).mp ⟨expression, bound⟩ index keeps) (Nat.not_lt.mpr foreign)
    exact ⟨notKept, exists_later_of_not_keeps mentions notKept⟩

end Binding

/-- Three variables in one term. -/
def threeFactors : String :=
  "x1*x2*x3"

/-- The third factor names the third variable. -/
theorem mentions_threeFactors : Mentions threeFactors ⟨2, by decide⟩ := by
  have read :
      SignedTerm.ofText threeFactors =
        .ok [{
          negative := false
          factors :=
            [.variable ⟨0, by decide⟩, .variable ⟨1, by decide⟩, .variable ⟨2, by decide⟩] }] := by
    decide +kernel
  exact ⟨_, Verification.derivesExpression_of_ofText read, _, List.mem_singleton_self _, by decide⟩

/-- The three factors are accepted for a system of two variables. -/
theorem exists_bound_threeFactors :
    ∃ expression : Expression Float (Fin 2),
      Expression.parseWithin 2 threeFactors = .ok expression :=
  exists_of_isOk (by decide +kernel)

/-- The third of them is not compared with a system of two variables. -/
theorem thirdFactor_not_compared :
    ¬∀ (text : String) (n : Nat) (expression : Expression Float (Fin n))
        (index : Fin variableLimit),
        Expression.parseWithin n text = .ok expression → Mentions text index → index.val < n := by
  intro inside
  obtain ⟨expression, bound⟩ := exists_bound_threeFactors
  exact absurd (inside _ 2 expression _ bound mentions_threeFactors) (by decide)

/-- It stands behind the two that are kept. -/
theorem thirdFactor_not_kept :
    ¬Keeps threeFactors ⟨2, by decide⟩ ∧
      ∃ written,
        DerivesExpression (Text.condensed threeFactors.toList) written ∧
          ∃ term ∈ written, ⟨2, by decide⟩ ∈ (variableIndices term.factors).drop 2 := by
  obtain ⟨expression, bound⟩ := exists_bound_threeFactors
  exact (bound_iff_keeps_inside (K := Float) threeFactors 2).2.2 expression ⟨2, by decide⟩ bound
    mentions_threeFactors (by decide)

end Grammar

end RootFinding
