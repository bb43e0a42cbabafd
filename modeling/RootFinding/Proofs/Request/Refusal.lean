import RootFinding.Proofs.Grammar.Correctness
import RootFinding.Proofs.Request.Acceptance

/-!
# How requests are refused

A request is refused for its inputs or for the text of its equations, and callers are told to expect
just these two. Two conversions beneath fail in ways of their own: an integer coordinate may have no
double, and the digits of a variable may be too many to be read as a number. Nothing else gets out.
-/

namespace RootFinding

open Outcome

/-- A cause that callers are told of: the inputs are refused, or a text is no equation. -/
def RequestError.isOwn : RequestError → Bool
  | .input _ => true
  | .parse (.grammar _ (.tooManyDigits _)) => false
  | .parse _ => true
  | .integerTooLarge => false

/-- The left-hand side of the equation has a variable whose digits are not read. -/
structure Equation.IsOverlong (equation source : String) : Prop where
  leftSide_eq : Equation.leftSide equation = .ok source
  exists_long :
    ∃ words digits,
      Token.ofText source = .ok words ∧
        .variable digits ∈ words ∧
        variableDigitLimit < digits.length

section Equations

variable {K : Type} {n : Nat} {equation : String} {cause : ParseError}

/-- An equation without a left side is refused by the program's own error. -/
theorem isOwn_of_leftSide
    (refused : Equation.leftSide equation = .error cause) :
    (RequestError.parse cause).isOwn = true := by
  unfold Equation.leftSide at refused
  dsimp only at refused
  split at refused
  · cases refused
    rfl
  · split at refused
    · cases refused
      rfl
    · split at refused
      · cases refused
      · cases refused
        rfl

/-- A variable outside the system is refused by the program's own error. -/
theorem isOwn_of_within
    {expression : Expression K (Fin variableLimit)}
    (refused : expression.within n = .error cause) :
    (RequestError.parse cause).isOwn = true := by
  obtain ⟨index, _, rfl⟩ := mapError_eq_error_iff.mp refused
  rfl

variable [Arithmetic K]

/-- Where an expression is refused for a count of digits, it has a variable of too many. -/
theorem isOwn_or_exists_long_of_parse
    {source : String}
    (refused : Expression.parse (K := K) source = .error cause) :
    (RequestError.parse cause).isOwn = true ∨
      ∃ count words digits,
        cause = .grammar source (.tooManyDigits count) ∧
          Token.ofText source = .ok words ∧
          .variable digits ∈ words ∧
          variableDigitLimit < digits.length := by
  cases cutting : Token.cut (Text.condensed source.toList) with
  | error character =>
      rw [Grammar.parse_eq_of_cut_error cutting] at refused
      cases refused
      exact .inl rfl
  | ok words =>
      rw [Grammar.parse_eq_of_cut cutting] at refused
      cases read : SignedTerm.ofTokens words with
      | ok written =>
          rw [read] at refused
          cases refused
      | error reason =>
          rw [read] at refused
          cases refused
          cases reason with
          | tooManyDigits count =>
              obtain ⟨digits, member, long⟩ :=
                Grammar.exists_long_of_ofTokens (Grammar.isCutWord_of_mem_cut cutting) read
              exact .inr ⟨count, words, digits, rfl, cutting, member, long⟩
          | _ => exact .inl rfl

/-- An equation is refused by the program's own error, or for a variable with too many digits. -/
theorem isOwn_or_isOverlong
    (refused :
      (do Expression.parseWithin (K := K) n (← Equation.leftSide equation)) = .error cause) :
    (RequestError.parse cause).isOwn = true ∨
      ∃ source count,
        cause = .grammar source (.tooManyDigits count) ∧
          Equation.IsOverlong equation source := by
  rcases bind_eq_error_iff.mp refused with split | ⟨source, split, refused⟩
  · exact .inl (isOwn_of_leftSide split)
  · rcases bind_eq_error_iff.mp refused with unread | ⟨expression, _, foreign⟩
    · rcases isOwn_or_exists_long_of_parse unread with own | ⟨count, words, digits, same, long⟩
      · exact .inl own
      · exact .inr ⟨source, count, same, split, words, digits, long⟩
    · exact .inl (isOwn_of_within foreign)

/-- A system is refused by the program's own error, or for a variable with too many digits. -/
theorem isOwn_or_isOverlong_of_ofEquations
    {equations : Vector String n}
    (refused : ExpressionSystem.ofEquations (K := K) equations = .error cause) :
    (RequestError.parse cause).isOwn = true ∨
      ∃ source count,
        cause = .grammar source (.tooManyDigits count) ∧
          ∃ equation ∈ equations.toList, Equation.IsOverlong equation source := by
  obtain ⟨equation, member, failed⟩ := exists_error_of_mapM (toList_mapM_eq_error refused)
  rcases isOwn_or_isOverlong failed with own | ⟨source, count, same, overlong⟩
  · exact .inl own
  · exact .inr ⟨source, count, same, equation, member, overlong⟩

end Equations

namespace SolveRequest

variable {request : SolveRequest} {cause : RequestError}

/-- A coordinate is refused by the program's own error, or for an integer beyond all doubles. -/
theorem coordinate_refusal_cases
    {value : JsonValue}
    (refused : coordinate value = .error cause) :
    cause.isOwn = true ∨
      cause = .integerTooLarge ∧
        ∃ huge, value = .integer huge ∧ Numeral.doubleOfInt? huge = none := by
  unfold coordinate at refused
  split at refused
  · cases refused
  · cases refused
  · rename_i huge
    split at refused
    · cases refused
    · rename_i noDouble
      cases refused
      exact .inr ⟨rfl, huge, rfl, noDouble⟩
  · split at refused
    · cases refused
    · cases refused
      exact .inl rfl
  · cases refused
    exact .inl rfl

/-- The checks of sizes, kinds and ranges have one cause of their own that is not declared. -/
theorem checkedInputs_refusal_cases
    (refused : request.checkedInputs = .error cause) :
    cause.isOwn = true ∨
      cause = .integerTooLarge ∧
        ∃ huge, .integer huge ∈ items request.guess ∧ Numeral.doubleOfInt? huge = none := by
  simp only [checkedInputs, unless_eq_error_iff] at refused
  obtain ⟨_, rfl⟩ | ⟨_, ⟨_, rfl⟩ | ⟨_, ⟨_, rfl⟩ | ⟨_, ⟨_, rfl⟩ | ⟨_, ⟨_, rfl⟩ | ⟨_, refused⟩⟩⟩⟩⟩ :=
    refused
  all_goals try exact .inl rfl
  cases found : texts? (items request.equations) with
  | none =>
      rw [found] at refused
      cases refused
      exact .inl rfl
  | some texts =>
      rw [found] at refused
      simp only [bind_eq_error_iff, unless_eq_error_iff, mapError_eq_error_iff] at refused
      obtain unread | ⟨values, _, refused⟩ := refused
      · obtain ⟨value, member, refused⟩ := exists_error_of_mapM unread
        rcases coordinate_refusal_cases refused with own | ⟨same, huge, rfl, noDouble⟩
        · exact .inl own
        · exact .inr ⟨same, huge, member, noDouble⟩
      · left
        obtain ⟨_, rfl⟩ | ⟨_, ⟨_, _, rfl⟩ | ⟨_, _, ⟨_, _, rfl⟩ | ⟨_, _, refused⟩⟩⟩ := refused
        · rfl
        · rfl
        · rfl
        · split at refused
          · cases refused
          · cases refused
            rfl

/--
A request that is refused is refused with a declared cause, unless an integer coordinate has no
double or the left-hand side of an equation has a variable of more digits than are ever read.
-/
theorem refusal_cases
    (refused : request.prepare = .error cause) :
    cause.isOwn = true ∨
      (cause = .integerTooLarge ∧
        ∃ huge, .integer huge ∈ items request.guess ∧ Numeral.doubleOfInt? huge = none) ∨
      ∃ source count equation,
        cause = .parse (.grammar source (.tooManyDigits count)) ∧
          .text equation ∈ items request.equations ∧
          Equation.IsOverlong equation source := by
  rcases bind_eq_error_iff.mp refused with unchecked | ⟨inputs, checked, refused⟩
  · rcases checkedInputs_refusal_cases unchecked with own | huge
    · exact .inl own
    · exact .inr (.inl huge)
  rcases bind_eq_error_iff.mp refused with unnamed | ⟨method, _, refused⟩
  · obtain ⟨_, _, rfl⟩ := mapError_eq_error_iff.mp unnamed
    exact .inl rfl
  rcases bind_eq_error_iff.mp refused with trigonometric | ⟨_, _, refused⟩
  · obtain ⟨_, _, rfl⟩ := mapError_eq_error_iff.mp trigonometric
    exact .inl rfl
  rcases bind_eq_error_iff.mp refused with unread | ⟨_, _, refused⟩
  · obtain ⟨reason, unreadable, rfl⟩ := mapError_eq_error_iff.mp unread
    rcases isOwn_or_isOverlong_of_ofEquations unreadable with
      own | ⟨source, count, rfl, equation, member, overlong⟩
    · exact .inl own
    · refine .inr (.inr ⟨source, count, equation, rfl, ?_, overlong⟩)
      obtain ⟨texts, _⟩ := checkedInputs_cases checked
      rw [texts?_eq_some_iff.mp texts]
      exact List.mem_map_of_mem member
  · cases refused

/-- Two variables, the first of which starts farther out than doubles reach. -/
def farRequest : SolveRequest where
  equations := .list [.text "x1 = 0", .text "x2 = 0"]
  guess := .list [.integer (1 <<< 1024 : Nat), .integer 0]
  epsilon := .number 1e-2
  method := .text "newton"
  limit := .integer 100

/-- The far request is refused for an integer beyond all doubles. -/
theorem prepare_farRequest : farRequest.prepare = .error .integerTooLarge := by
  have first : coordinate (.integer (1 <<< 1024 : Nat)) = .error .integerTooLarge := by
    have noDouble : Numeral.doubleOfInt? (1 <<< 1024 : Nat) = none := by
      decide +kernel
    simp only [coordinate, noDouble]
  have read :
      [JsonValue.integer (1 <<< 1024 : Nat), .integer 0].mapM coordinate =
        .error .integerTooLarge := by
    rw [List.mapM_cons, first]
    rfl
  have checked : farRequest.checkedInputs = .error .integerTooLarge := by
    simp only [checkedInputs, farRequest, items, read]
    rfl
  rw [prepare, checked]
  rfl

/-- The far start is the reason for which this request is refused. -/
theorem farRequest_refusal_cases :
    RequestError.isOwn .integerTooLarge = true ∨
      (RequestError.integerTooLarge = .integerTooLarge ∧
        ∃ huge, .integer huge ∈ items farRequest.guess ∧ Numeral.doubleOfInt? huge = none) ∨
      ∃ source count equation,
        RequestError.integerTooLarge = .parse (.grammar source (.tooManyDigits count)) ∧
          .text equation ∈ items farRequest.equations ∧
          Equation.IsOverlong equation source :=
  refusal_cases prepare_farRequest

/-- Not every refusal has a declared cause. -/
theorem farRequest_refused_otherwise :
    ¬∀ request cause, prepare request = .error cause → cause.isOwn = true := by
  intro always
  have own := always farRequest _ prepare_farRequest
  cases own

end SolveRequest

end RootFinding
