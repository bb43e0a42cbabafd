import RootFinding.Proofs.Service.Boundary
import RootFinding.Proofs.Verification.Readable

/-!
# What becomes of a solve that succeeded

Once a run has come to a result in time, only the check of the solution can keep the result from
being shown, since it reads the equations anew. It keeps nothing back from a system whose equations
are plainly written in its own variables. A left-hand side that is not plainly written is refused
although the solver has read it, and a variable that is none of the system's makes the solve fail
although the solver never looks at it.
-/

namespace RootFinding

open Outcome Verification

/-- Beside blanks, the solver reads ASCII characters only. -/
theorem Verification.Reads.toNat_lt
    {equation left : String}
    {written : List SignedTerm}
    (reads : Reads equation left written)
    {c : Char}
    (member : c ∈ left.toList)
    (solid : Text.isBlank c = false) :
    c.toNat < 128 := by
  by_cases comma : c = ','
  · subst comma
    decide
  have kept : c ∈ Text.condensed left.toList := by
    refine List.mem_map.mpr ⟨c, List.mem_filter.mpr ⟨member, by simp [solid]⟩, if_neg comma⟩
  have readWritten := reads.read
  have below_of_isDigit (digit : c.isDigit = true) : c.toNat < 128 := by
    obtain ⟨_, atMost⟩ := Char.isDigit_iff_toNat.mp digit
    exact Nat.lt_of_le_of_lt atMost (by decide)
  have below_of_isNumeric (numeric : Token.isNumeric c = true) : c.toNat < 128 := by
    simp only [Token.isNumeric, Bool.or_eq_true, decide_eq_true_eq] at numeric
    rcases numeric with digit | rfl
    · exact below_of_isDigit digit
    · decide
  unfold SignedTerm.ofText at readWritten
  split at readWritten
  · rename_i words cutting
    rw [← Token.flatMap_characters_cut cutting, List.mem_flatMap] at kept
    obtain ⟨word, isWord, inWord⟩ := kept
    have isCutWord := Grammar.isCutWord_of_mem_cut cutting word isWord
    cases word with
    | number text => exact below_of_isNumeric (isCutWord.2 c inWord)
    | «variable» digits =>
        rcases List.mem_cons.mp inWord with rfl | inDigits
        · decide
        · exact below_of_isDigit (isCutWord c inDigits)
    | plus | minus | times | opening | closing =>
        rw [List.mem_singleton.mp inWord]
        decide
  · cases readWritten

/-- What a request came to in time is what its run came to. -/
theorem SolveRequest.exists_run_of_outcomeWithin
    {request : SolveRequest}
    {polls : PollAnswers}
    {pace : Pace}
    {seconds : Float}
    {answered : AnyResult}
    (inTime : request.outcomeWithin polls pace seconds = .ok answered) :
    ∃ prepared result,
      request.prepare = .ok prepared ∧
        (prepared.run polls).ending = .returned result ∧
        answered = ⟨prepared.size, result⟩ := by
  have came : (request.answer polls).outcome = .ok answered := by
    unfold SolveRequest.outcomeWithin at inTime
    dsimp only at inTime
    split at inTime
    · exact mapError_eq_ok_iff.mp inTime
    split at inTime
    · cases inTime
    split at inTime
    · exact mapError_eq_ok_iff.mp inTime
    · cases inTime
  cases accepted : request.prepare with
  | error cause =>
      simp only [answer, accepted] at came
      cases came
  | ok prepared =>
      cases ended : (prepared.run polls).ending with
      | cancelled =>
          simp only [answer, accepted, Run.answer, ended] at came
          cases came
      | returned result =>
          simp only [answer, accepted, Run.answer, ended] at came
          cases came
          exact ⟨prepared, result, rfl, ended, rfl⟩

namespace Service

section Shown

variable {surroundings : Surroundings} {members : List (String × JsonValue)}
variable {fields : SolveFields} {settings : Settings} {guess : List Float} {seconds : Float}
variable {n : Nat} {result : SolveResult Float n}

/-- A result in time has as many variables as there are equations, and the solver read them all. -/
theorem reads_of_outcomeWithin
    (returned :
      (filledIn settings fields guess).outcomeWithin .never surroundings.pace seconds =
        .ok ⟨n, result⟩) :
    n = fields.equations.length ∧
      n ≤ variableLimit ∧
      (∃ method : Method, result.methodUsed = method.label) ∧
      ∀ equation ∈ fields.equations, ∃ left written, Reads equation left written := by
  obtain ⟨prepared, found, accepted, ended, same⟩ :=
    SolveRequest.exists_run_of_outcomeWithin returned
  cases same
  obtain ⟨checked, _, _, built⟩ := SolveRequest.prepare_eq_ok_iff.mp accepted
  have equations_eq : prepared.equations.toList = fields.equations := by
    have texts := SolveRequest.texts?_eq_some_iff.mp (SolveRequest.checkedInputs_cases checked).1
    exact (List.map_injective_iff.mpr (fun _ _ same => JsonValue.text.inj same) texts).symm
  have isOf := Method.isOf_of_returned prepared.limit_pos ended
  refine ⟨?_, prepared.le_equationMaximum, ⟨_, isOf.methodUsed_eq⟩, ?_⟩
  · rw [← equations_eq, Vector.length_toList]
  · intro equation member
    rw [← equations_eq] at member
    obtain ⟨expression, parsed⟩ := exists_ok_of_mapM (toList_mapM_eq_ok built) member
    exact exists_reads parsed

/-- A result is shown with its check, or the check is refused. -/
theorem solve_of_outcomeWithin
    (starts : fields.Starts surroundings settings guess)
    (waits : waitingTime settings = .ok seconds)
    (returned :
      (filledIn settings fields guess).outcomeWithin .never surroundings.pace seconds =
        .ok ⟨n, result⟩) :
    solve surroundings fields =
      match Verification.report fields.equations result.solution.toList
          (acceptedEpsilon (filledIn settings fields guess).epsilon) with
      | .ok check => solved result guess check
      | .error cause => verificationRefusal cause := by
  have answered :
      ((filledIn settings fields guess).outcomeWithin .never surroundings.pace seconds).mapError
          solveRefusal =
        .ok ⟨n, result⟩ :=
    mapError_eq_ok_iff.mpr returned
  rw [solve_eq_iff_of_starts starts]
  simp only [solveFrom, waits, answered, ok_bind]
  cases Verification.report fields.equations result.solution.toList
      (acceptedEpsilon (filledIn settings fields guess).epsilon) with
  | ok check => exact .inl rfl
  | error cause => exact .inr rfl

/-- A response that quotes no replacement character is sent as it is. -/
theorem encoded_of_not_quotesReplacement
    {response : Response}
    (plain : response.quotesReplacement = false)
    (document : JsonValue) :
    response.encoded document = response := by
  rw [Response.encoded, plain, Bool.and_false, if_neg Bool.false_ne_true]

/-- The label of a method holds no replacement character. -/
theorem solved_not_quotesReplacement
    {method : Method}
    (used : result.methodUsed = method.label)
    (guess : List Float)
    (check : VerificationReport Float) :
    (solved result guess check).quotesReplacement = false := by
  have plainMethod : Response.holdsReplacement method.label = false := by
    cases method <;> decide
  have plainVerdict :
      Response.holdsReplacement (if check.passed then "pass" else "fail") = false := by
    cases check.passed <;> decide
  cases finite : result.finalError.isFinite <;>
    simp [Response.quotesReplacement, solved, Response.success, shownNumbers, shownNumber,
      shownVerdict, used, finite, plainMethod, plainVerdict]

/-- An equation that is read holds no replacement character, nor does its refusal. -/
theorem unreadable_not_quotesReplacement
    {equation left : String}
    {written : List SignedTerm}
    (reads : Reads equation left written) :
    (Response.refusal 400 (VerificationError.unreadable left).message).quotesReplacement =
      false := by
  have absent : JsonValue.replacement ∉ left.toList := by
    intro member
    have ascii := reads.toNat_lt member (by decide)
    exact absurd ascii (by decide)
  have message_eq :
      (VerificationError.unreadable left).message =
        "Could not parse expression: '" ++ left ++ "'" :=
    rfl
  have inFront : JsonValue.replacement ∉ "Could not parse expression: '".toList := by
    decide
  have behind : JsonValue.replacement ∉ "'".toList := by
    decide
  simp only [Response.quotesReplacement, Response.refusal, Response.holdsReplacement, message_eq,
    String.toList_append, List.contains_eq_mem, List.mem_append, inFront, absent, behind, or_self,
    decide_false]

/-- The answer shows a result, and one step of its check for each of the equations. -/
def Shows
    (answer : Response)
    (equations : List String)
    (epsilon : Float)
    (guess : List Float)
    (result : SolveResult Float n) :
    Prop :=
  ∃ check,
    Verification.report equations result.solution.toList epsilon = .ok check ∧
      check.steps.map (fun step => (step.number, step.equation)) = labels equations ∧
      answer = solved result guess check

end Shown

/-- What is answered in the place of a result because of one equation of the system. -/
inductive Blocks (n : Nat) (equation : String) : Response → Prop
  | notPlain
      {left : String}
      {written : List SignedTerm}
      (reads : Reads equation left written)
      (notPlain : ¬IsPlain left) :
      Blocks n equation (Response.refusal 400 (VerificationError.unreadable left).message)
  | outside
      {left : String}
      {written : List SignedTerm}
      (reads : Reads equation left written)
      (outside : ¬KeepsTo n written) :
      Blocks n equation Response.solverError

/-- An equation that can be checked blocks nothing. -/
theorem Blocks.not_isCheckable
    {n : Nat}
    {equation left : String}
    {written : List SignedTerm}
    {answer : Response}
    (blocks : Blocks n equation answer) :
    ¬IsCheckable n equation left written := by
  rintro ⟨others, plain, inside⟩
  cases blocks with
  | notPlain reads notPlain =>
      obtain ⟨rfl, rfl⟩ := reads.unique others
      exact notPlain plain
  | outside reads outside =>
      obtain ⟨rfl, rfl⟩ := reads.unique others
      exact outside inside

end Service

/--
What is answered where the parameters of a request, with the settings and a starting point filled
in, come to a result before the deadline. The result is shown if all equations are plainly written
in the variables of the system. It is also shown only if all are plainly written: otherwise one
whose left-hand side is not is refused in its place, or the solve fails for a variable of an
equation that the system does not have.
-/
theorem solvedRequest_answered
    {surroundings : Service.Surroundings}
    {members : List (String × JsonValue)}
    {fields : Service.SolveFields}
    {settings : Settings}
    {guess : List Float}
    {seconds : Float}
    {n : Nat}
    {result : SolveResult Float n}
    (accepted : Service.solveFields members = .ok fields)
    (starts : fields.Starts surroundings settings guess)
    (waits : Service.waitingTime settings = .ok seconds)
    (returned :
      (Service.filledIn settings fields guess).outcomeWithin .never surroundings.pace seconds =
        .ok ⟨n, result⟩) :
    let answer := Service.respond surroundings "/api/solve" "POST" (.document (.record members))
    let epsilon := Service.acceptedEpsilon (Service.filledIn settings fields guess).epsilon
    let isShown := Service.Shows answer fields.equations epsilon guess result
    ((∀ equation ∈ fields.equations, ∃ left written, IsCheckable n equation left written) →
        isShown) ∧
      (isShown ∧
          (∀ equation ∈ fields.equations,
            ∃ left written, Reads equation left written ∧ IsPlain left) ∨
        ∃ equation ∈ fields.equations, Service.Blocks n equation answer) := by
  intro answer epsilon isShown
  obtain ⟨size, few, ⟨method, used⟩, reads⟩ := Service.reads_of_outcomeWithin returned
  have answer_eq : answer = (Service.solve surroundings fields).encoded (.record members) := by
    simp only [answer, Service.respond_of_endpoint (Service.routeOf?_solve surroundings),
      Service.withFields, accepted]
  rw [Service.solve_of_outcomeWithin starts waits returned] at answer_eq
  have length_eq : result.solution.toList.length = n := result.solution.length_toList
  have checked := report_cases (length_eq ▸ few) reads epsilon
  rw [length_eq] at checked
  have outcome :
      isShown ∧
          (∀ equation ∈ fields.equations,
            ∃ left written, Reads equation left written ∧ IsPlain left) ∨
        ∃ equation ∈ fields.equations, Service.Blocks n equation answer := by
    rcases checked with ⟨check, reported, labelled, plain⟩ |
      ⟨equation, member, left, written, read, blocked⟩
    · refine .inl ⟨⟨check, reported, labelled, ?_⟩, plain⟩
      rw [answer_eq, reported]
      have quotesNone := Service.solved_not_quotesReplacement used guess check
      exact Service.encoded_of_not_quotesReplacement quotesNone _
    · refine .inr ⟨equation, member, ?_⟩
      rcases blocked with ⟨notPlain, reported⟩ | ⟨outside, reported⟩
      · have quotesNone := Service.unreadable_not_quotesReplacement read
        have refused : answer = .refusal 400 (VerificationError.unreadable left).message := by
          rw [answer_eq, reported]
          exact Service.encoded_of_not_quotesReplacement quotesNone _
        rw [refused]
        exact .notPlain read notPlain
      · have quotesNone : Response.solverError.quotesReplacement = false := by
          decide
        have failed : answer = .solverError := by
          rw [answer_eq, reported]
          exact Service.encoded_of_not_quotesReplacement quotesNone _
        rw [failed]
        exact .outside read outside
  refine ⟨fun checkable => ?_, outcome⟩
  rcases outcome with ⟨shown, _⟩ | ⟨equation, member, blocks⟩
  · exact shown
  · obtain ⟨left, written, isCheckable⟩ := checkable equation member
    exact absurd isCheckable blocks.not_isCheckable

/-- A body that asks to solve two equations from the origin. -/
def atOriginMembers (first second : String) : List (String × JsonValue) :=
  [("equations", .list [.text first, .text second]), ("x0", .list [.integer 0, .integer 0])]

def atOriginFields (first second : String) : Service.SolveFields where
  equations := [first, second]
  guess := some [0.0, 0.0]
  epsilon := none
  method := none
  limit := none
  seed := none

/-- Two variables that are zero at the origin are shown to be so. -/
theorem variables_shown :
    ∃ result : SolveResult Float 2,
      Service.Shows
        (Service.respond bareSurroundings "/api/solve" "POST"
          (.document (.record (atOriginMembers "x1 = 0" "x2 = 0"))))
        ["x1 = 0", "x2 = 0"] 1e-6 [0.0, 0.0] result := by
  let fields := atOriginFields "x1 = 0" "x2 = 0"
  let request := Service.filledIn Settings.defaults fields [0.0, 0.0]
  have starts : fields.Starts bareSurroundings Settings.defaults [0.0, 0.0] :=
    ⟨List.cons_ne_nil _ _, rfl, rfl⟩
  have inTime : (request.outcomeWithin .never bareSurroundings.pace 120.0).isOk = true := by
    decide +kernel
  obtain ⟨⟨n, result⟩, returned⟩ := exists_of_isOk inTime
  obtain ⟨rfl, _⟩ := Service.reads_of_outcomeWithin returned
  refine ⟨result, (solvedRequest_answered rfl starts rfl returned).1 ?_⟩
  have checkable
      (left : String)
      (index : Fin variableLimit)
      {equation : String}
      {digit : Char}
      (split : Equation.leftSide equation = .ok left)
      (read : SignedTerm.ofText left = .ok [{ negative := false, factors := [.variable index] }])
      (text_eq : Text.trimmedBy Text.isBlank (Text.pointed left.toList) = ['x', digit])
      (isDigit : digit.isDigit = true)
      (value : Text.digitsValue [digit] = index.val + 1)
      (inside : index.val < 2) :
      ∃ left written, IsCheckable 2 equation left written := by
    have plain : IsPlain left := by
      rw [IsPlain, text_eq]
      exact ⟨_, .unsigned (.last (.single (.variable
        ⟨List.cons_ne_nil _ _, by simpa using isDigit⟩ value)))⟩
    refine ⟨left, _, ⟨split, read⟩, plain, ?_⟩
    simpa [KeepsTo, Grammar.variableIndices] using inside
  intro equation member
  rcases List.mem_cons.mp member with rfl | member
  · exact checkable "x1" ⟨0, by decide⟩ rfl (by decide +kernel) rfl rfl rfl (by decide)
  · rw [List.mem_singleton.mp member]
    exact checkable "x2" ⟨1, by decide⟩ rfl (by decide +kernel) rfl rfl rfl (by decide)

/-- A number with a zero in front of it is solved, but the result is not shown. -/
theorem paddedNumber_refused :
    ¬∀ surroundings members fields settings guess seconds result,
        Service.solveFields members = .ok fields →
          fields.Starts surroundings settings guess →
            Service.waitingTime settings = .ok seconds →
              (Service.filledIn settings fields guess).outcomeWithin .never surroundings.pace
                  seconds =
                .ok result →
                (Service.respond surroundings "/api/solve" "POST"
                  (.document (.record members))).status = 200 := by
  intro always
  let fields := atOriginFields "01*x1 = 0" "x2 = 0"
  let request := Service.filledIn Settings.defaults fields [0.0, 0.0]
  have starts : fields.Starts bareSurroundings Settings.defaults [0.0, 0.0] :=
    ⟨List.cons_ne_nil _ _, rfl, rfl⟩
  have inTime : (request.outcomeWithin .never bareSurroundings.pace 120.0).isOk = true := by
    decide +kernel
  obtain ⟨result, returned⟩ := exists_of_isOk inTime
  have shown :=
    always bareSurroundings (atOriginMembers "01*x1 = 0" "x2 = 0") fields Settings.defaults
      [0.0, 0.0] 120.0 result rfl starts rfl returned
  have refused :
      (Service.respond bareSurroundings "/api/solve" "POST"
        (.document (.record (atOriginMembers "01*x1 = 0" "x2 = 0")))).status = 400 := by
    decide +kernel
  rw [refused] at shown
  cases shown

end RootFinding
