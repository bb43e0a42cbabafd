import RootFinding.Proofs.Grammar.Characters
import RootFinding.Proofs.Request.Sufficiency
import RootFinding.Solve

/-!
# The filter for trigonometric functions

The filter looks for names in the whole text of an equation, in any case and on both sides of the
equals sign, before any grammar is applied. Every name has a letter that no equation holds which can
be read. So the filter refuses no system that can be read. Where it stands among the checks decides
which of several faults is reported, and nothing else.
-/

namespace RootFinding

open Outcome

namespace Text

/-- The characters that are lowered to a letter with which a name begins. -/
def initials : List Char :=
  ['a', 'c', 's', 't', 'A', 'C', 'S', 'T']

/-- Only the initials of the forbidden names can begin one of them. -/
theorem mem_initials_of_beginsName
    {c : Char}
    (begins : beginsName c.toLower = true) :
    c ∈ initials := by
  by_cases small : c.toNat < 91
  · have every :
        ∀ code < 91,
          beginsName (Char.ofNat code).toLower = true → Char.ofNat code ∈ initials := by
      decide +kernel
    simpa only [Char.ofNat_toNat, begins, forall_const] using every c.toNat small
  · have notLarge : ¬(c.val ≥ 'A'.val ∧ c.val ≤ 'Z'.val) := by
      rintro ⟨_, upper⟩
      exact small (Nat.lt_succ_of_le upper)
    have same : c.toLower = c := dif_neg notLarge
    rw [same] at begins
    have letter : c ∈ ['a', 'c', 's', 't'] := by
      simpa only [beginsName, List.contains_eq_mem, decide_eq_true_eq] using begins
    exact List.mem_append_left ['A', 'C', 'S', 'T'] letter

/-- No name begins with a character of an equation. -/
theorem not_beginsName_of_isEquationCharacter
    {c : Char}
    (inEquation : isEquationCharacter c = true) :
    beginsName c.toLower = false := by
  have without : ∀ c ∈ initials, isEquationCharacter c = false := by
    intro c member
    simp only [initials, List.mem_cons, List.not_mem_nil, or_false] at member
    rcases member with rfl | rfl | rfl | rfl | rfl | rfl | rfl | rfl <;> rfl
  by_contra begins
  rw [Bool.not_eq_false] at begins
  rw [without c (mem_initials_of_beginsName begins)] at inEquation
  cases inEquation

end Text

namespace SolveRequest

/-- No system that can be read is refused for the name of a function. -/
theorem refuseTrigonometric_of_ofEquations
    {K : Type}
    [Arithmetic K]
    {n : Nat}
    {equations : Vector String n}
    {system : ExpressionSystem K n n}
    (built : ExpressionSystem.ofEquations equations = .ok system) :
    refuseTrigonometric equations.toList = .ok () := by
  apply refuseTrigonometric_eq_ok
  intro equation member
  apply trigonometricName?_eq_none
  intro c inEquation
  exact Text.not_beginsName_of_isEquationCharacter
    (isEquationCharacter_of_ofEquations built equation member c inEquation)

/-- Where the filter may stand among the other checks. -/
inductive FilterPlace where
  | first
  | afterInputs
  | afterMethod
  | last
  deriving Repr, DecidableEq

/-- The filter, if this is its place. -/
def filterAt (place : Option FilterPlace) (here : FilterPlace) (equations : List String) :
    Except RequestError Unit :=
  if place = some here then (refuseTrigonometric equations).mapError .input else .ok ()

/-- The strings among the equations of a request that was not looked at. -/
def givenTexts (request : SolveRequest) : List String :=
  (items request.equations).filterMap fun
    | .text value => some value
    | _ => none

/-- The checks of a request with the filter in some place, or without it. -/
def prepareAt (place : Option FilterPlace) (request : SolveRequest) :
    Except RequestError PreparedSolve := do
  filterAt place .first request.givenTexts
  let inputs ← checkedInputs request
  filterAt place .afterInputs inputs.equations.toList
  let method ← (checkedMethod request.method).mapError .input
  filterAt place .afterMethod inputs.equations.toList
  let system ← (ExpressionSystem.ofEquations inputs.equations).mapError .parse
  filterAt place .last inputs.equations.toList
  return { toCheckedInputs := inputs, method, system }

/-- The filter stands behind the check of the method. -/
theorem prepare_eq_prepareAt (request : SolveRequest) :
    request.prepare = request.prepareAt (some .afterMethod) :=
  rfl

/-- The error that the filter reports. -/
def IsFiltered (cause : RequestError) : Prop :=
  ∃ name equation, cause = .input (.trigonometric name equation)

/-- An outcome is another one, unless the filter came in between. -/
def SameOrFiltered {α : Type} (outcome other : Except RequestError α) : Prop :=
  outcome = other ∨ ∃ cause, outcome = .error cause ∧ IsFiltered cause

/-- A request passes all checks but the filter, and they make of it what is prepared. -/
structure PassesOthers (request : SolveRequest) (prepared : PreparedSolve) : Prop where
  checked : request.checkedInputs = .ok prepared.toCheckedInputs
  named : checkedMethod request.method = .ok prepared.method
  built : ExpressionSystem.ofEquations prepared.equations = .ok prepared.system

/-- The filter refuses for a name that it found. -/
theorem exists_name_of_refuseTrigonometric
    {equations : List String}
    {cause : InputError}
    (refused : refuseTrigonometric equations = .error cause) :
    ∃ name equation, cause = .trigonometric name equation := by
  rw [refuseTrigonometric, List.forM_eq_forM] at refused
  induction equations with
  | nil => cases refused
  | cons equation rest inductionHypothesis =>
      rw [List.forM_cons] at refused
      rcases bind_eq_error_iff.mp refused with here | ⟨_, _, later⟩
      · split at here
        · cases here
          exact ⟨_, _, rfl⟩
        · cases here
      · exact inductionHypothesis later

/-- A filter in a place changes nothing but the error, if there is one. -/
theorem filterAt_cases
    (place : Option FilterPlace)
    (here : FilterPlace)
    (equations : List String) :
    SameOrFiltered (filterAt place here equations) (.ok ()) := by
  unfold filterAt
  split
  · cases refused : refuseTrigonometric equations with
    | ok _ => exact .inl rfl
    | error cause =>
        obtain ⟨name, equation, rfl⟩ := exists_name_of_refuseTrigonometric refused
        exact .inr ⟨_, rfl, name, equation, rfl⟩
  · exact .inl rfl

theorem filterAt_of_ok
    {equations : List String}
    (allowed : refuseTrigonometric equations = .ok ())
    (place : Option FilterPlace)
    (here : FilterPlace) :
    filterAt place here equations = .ok () := by
  unfold filterAt
  split
  · rw [allowed]
    rfl
  · rfl

section Places

variable {α β : Type} {place : Option FilterPlace}

/-- What follows a step may be compared by itself. -/
theorem SameOrFiltered.bind
    {first : Except RequestError α}
    {next other : α → Except RequestError β}
    (same : ∀ value, SameOrFiltered (next value) (other value)) :
    SameOrFiltered (first >>= next) (first >>= other) := by
  cases first with
  | error cause => exact .inl rfl
  | ok value => exact same value

/-- A filter in front of a step changes nothing but the error. -/
theorem SameOrFiltered.filter
    {here : FilterPlace}
    {equations : List String}
    {rest other : Except RequestError α}
    (same : SameOrFiltered rest other) :
    SameOrFiltered (do filterAt place here equations; rest)
      (do filterAt none here equations; other) := by
  rcases filterAt_cases place here equations with passed | ⟨cause, failed, isFiltered⟩
  · rw [passed]
    exact same
  · rw [failed]
    exact .inr ⟨cause, rfl, isFiltered⟩

/-- Wherever the filter stands, the outcome is that without it or the filter's own error. -/
theorem prepareAt_sameOrFiltered (place : Option FilterPlace) (request : SolveRequest) :
    SameOrFiltered (request.prepareAt place) (request.prepareAt none) :=
  .filter <| .bind fun _ => .filter <| .bind fun _ => .filter <| .bind fun _ =>
    .filter <| .inl rfl

variable {request : SolveRequest} {prepared : PreparedSolve}

theorem prepareAt_none_eq_ok_iff :
    request.prepareAt none = .ok prepared ↔ request.PassesOthers prepared := by
  have skipped (here : FilterPlace) (equations : List String) :
      filterAt none here equations = .ok () := rfl
  simp only [prepareAt, skipped, ok_bind, bind_eq_ok_iff, mapError_eq_ok_iff]
  constructor
  · rintro ⟨inputs, checked, method, named, system, built, same⟩
    cases same
    exact ⟨checked, named, built⟩
  · rintro ⟨checked, named, built⟩
    exact ⟨_, checked, _, named, _, built, rfl⟩

/-- Equations that pass all other checks pass the filter, since no variable has a forbidden name. -/
theorem PassesOthers.refuseTrigonometric_eq_ok
    (passes : request.PassesOthers prepared) :
    refuseTrigonometric prepared.equations.toList = .ok () :=
  refuseTrigonometric_of_ofEquations passes.built

theorem PassesOthers.givenTexts_eq
    (passes : request.PassesOthers prepared) :
    request.givenTexts = prepared.equations.toList := by
  obtain ⟨found, _⟩ := checkedInputs_cases passes.checked
  rw [givenTexts, texts?_eq_some_iff.mp found, List.filterMap_map]
  exact List.filterMap_some

/-- In every place the filter lets those requests pass that pass the other checks. -/
theorem prepareAt_eq_ok_iff (place : Option FilterPlace) :
    request.prepareAt place = .ok prepared ↔ request.PassesOthers prepared := by
  constructor
  · intro accepted
    rcases prepareAt_sameOrFiltered place request with same | ⟨cause, failed, _⟩
    · exact prepareAt_none_eq_ok_iff.mp (same.symm.trans accepted)
    · rw [failed] at accepted
      cases accepted
  · intro passes
    have passing := filterAt_of_ok passes.refuseTrigonometric_eq_ok place
    have texts := passes.givenTexts_eq
    obtain ⟨checked, named, built⟩ := passes
    simp only [prepareAt, texts, passing, checked, named, built, ok_bind, Except.mapError]
    rfl

/-- What is refused without the filter is refused with it, if not for the same reason. -/
theorem exists_refusal_prepareAt
    {cause : RequestError}
    (place : Option FilterPlace)
    (refused : request.prepareAt none = .error cause) :
    ∃ other,
      request.prepareAt place = .error other ∧ (other = cause ∨ IsFiltered other) := by
  rcases prepareAt_sameOrFiltered place request with same | ⟨other, failed, isFiltered⟩
  · exact ⟨cause, same.trans refused, .inl rfl⟩
  · exact ⟨other, failed, .inr isFiltered⟩

/-- A request is accepted for solving if something is prepared for it. -/
theorem refused_iff_not_prepared (polls : PollAnswers) :
    (∃ cause, (request.answer polls).outcome = .error (.request cause)) ↔
      ¬∃ prepared, request.prepare = .ok prepared := by
  unfold answer
  cases outcome : request.prepare with
  | error cause => simp
  | ok prepared =>
      simp only [Except.ok.injEq, exists_eq', not_true_eq_false, iff_false, not_exists, Run.answer]
      intro cause
      split <;> simp

end Places

/--
The filter refuses no system that can be read. So a request is accepted for solving exactly if it
passes the other checks, in whatever place the filter stands, and where a request is refused
without the filter, the filter can only come first and report its own error.
-/
theorem filter_changes_only_error :
    (∀ {n : Nat} {equations : Vector String n} {system : ExpressionSystem Float n n},
        ExpressionSystem.ofEquations equations = .ok system →
          refuseTrigonometric equations.toList = .ok ()) ∧
      ∀ request : SolveRequest,
        (∀ polls,
            (∃ cause, (request.answer polls).outcome = .error (.request cause)) ↔
              ¬∃ prepared, request.PassesOthers prepared) ∧
          ∀ place,
            (∀ prepared,
                request.prepareAt place = .ok prepared ↔ request.PassesOthers prepared) ∧
              ∀ cause, request.prepareAt none = .error cause →
                ∃ other,
                  request.prepareAt place = .error other ∧
                    (other = cause ∨ IsFiltered other) := by
  refine ⟨refuseTrigonometric_of_ofEquations, fun request => ⟨fun polls => ?_, fun place => ?_⟩⟩
  · rw [refused_iff_not_prepared, prepare_eq_prepareAt]
    simp only [prepareAt_eq_ok_iff]
  · exact ⟨fun prepared => prepareAt_eq_ok_iff place,
      fun cause refused => exists_refusal_prepareAt place refused⟩

/-- A zero may be spelled with the mark of an exponent, blanks and underscores. -/
theorem spelledZero_not_filtered :
    (∃ system : ExpressionSystem Float 1 1,
        ExpressionSystem.ofEquations #v["x1 - 1 = -0_0 .0 E+5"] = .ok system) ∧
      refuseTrigonometric (#v["x1 - 1 = -0_0 .0 E+5"] : Vector String 1).toList = .ok () := by
  have built :
      ∃ system : ExpressionSystem Float 1 1,
        ExpressionSystem.ofEquations #v["x1 - 1 = -0_0 .0 E+5"] = .ok system :=
    exists_of_isOk (by decide +kernel)
  obtain ⟨system, built⟩ := built
  exact ⟨⟨system, built⟩, filter_changes_only_error.1 built⟩

end SolveRequest

end RootFinding
