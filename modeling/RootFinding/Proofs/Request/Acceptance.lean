import RootFinding.Proofs.Outcome
import RootFinding.Request

/-!
# What an accepted request passed

A request is checked one test after the other, so an accepted one passed all of them.
-/

namespace RootFinding

namespace SolveRequest

open Outcome

variable {request : SolveRequest}

/-- The strings of a list are found if there is nothing else in it. -/
theorem texts?_eq_some_iff
    {values : List JsonValue}
    {texts : List String} :
    texts? values = some texts ↔ values = texts.map .text := by
  unfold texts?
  induction values generalizing texts with
  | nil =>
      cases texts <;> simp
  | cons value values inductionHypothesis =>
      rw [List.mapM_cons]
      cases value with
      | text first =>
          cases texts with
          | nil =>
              simp [Option.bind_eq_some_iff]
          | cons text texts =>
              simpa [Option.bind_eq_some_iff, inductionHypothesis] using and_comm
      | _ =>
          cases texts <;> simp

/-- Every part of checked inputs is what one test made of one part of the request. -/
theorem checkedInputs_cases
    {inputs : CheckedInputs}
    (checked : request.checkedInputs = .ok inputs) :
    texts? (items request.equations) = some inputs.equations.toList ∧
      (items request.guess).mapM coordinate = .ok inputs.guess.toList ∧
      inputs.guess.toList.all Float.isFinite = true ∧
      checkedEpsilon request.epsilon = .ok inputs.epsilon ∧
      checkedLimit request.limit = .ok ⟨inputs.limit, inputs.limit_pos⟩ := by
  simp only [checkedInputs, unless_eq_ok_iff] at checked
  obtain ⟨_, _, _, _, _, checked⟩ := checked
  cases found : texts? (items request.equations) with
  | none =>
      rw [found] at checked
      cases checked
  | some texts =>
      rw [found] at checked
      simp only [bind_eq_ok_iff, unless_eq_ok_iff, mapError_eq_ok_iff] at checked
      obtain ⟨values, read, finite, epsilon, epsilonChecked, limit, limitChecked, checked⟩ := checked
      split at checked
      · cases checked
        refine ⟨rfl, read, ?_, epsilonChecked, limitChecked⟩
        simpa using finite
      · cases checked

theorem length_items_equations
    {inputs : CheckedInputs}
    (checked : request.checkedInputs = .ok inputs) :
    (items request.equations).length = inputs.size := by
  obtain ⟨found, _⟩ := checkedInputs_cases checked
  rw [texts?_eq_some_iff.mp found]
  simp

theorem limit_eq_integer
    {inputs : CheckedInputs}
    (checked : request.checkedInputs = .ok inputs) :
    request.limit = .integer inputs.limit := by
  obtain ⟨_, _, _, _, limitChecked⟩ := checkedInputs_cases checked
  unfold checkedLimit at limitChecked
  split at limitChecked
  · rename_i value limit
    split at limitChecked
    · rename_i inside
      have lower : (10 : Int) ≤ value := inside.1
      simp only [Except.ok.injEq, Subtype.mk.injEq] at limitChecked
      rw [limit, ← limitChecked, Int.toNat_of_nonneg (by omega)]
    · cases limitChecked
  · cases limitChecked

/-- The method is the one whose key the request names. -/
theorem exists_key_of_checkedMethod
    {value : JsonValue}
    {method : Method}
    (checked : checkedMethod value = .ok method) :
    ∃ word, value = .text word ∧ Text.lowered (Text.trimmed word) = method.key := by
  unfold checkedMethod at checked
  split at checked
  · rename_i word
    refine ⟨word, rfl, ?_⟩
    dsimp only at checked
    split at checked
    · rename_i named
      cases checked
      exact named
    · split at checked
      · rename_i named
        cases checked
        exact named
      · cases checked
  · cases checked

/-- A request is prepared exactly when its inputs, its method, its names and its equations pass. -/
theorem prepare_eq_ok_iff
    {prepared : PreparedSolve} :
    request.prepare = .ok prepared ↔
      request.checkedInputs = .ok prepared.toCheckedInputs ∧
        checkedMethod request.method = .ok prepared.method ∧
        refuseTrigonometric prepared.equations.toList = .ok () ∧
        ExpressionSystem.ofEquations prepared.equations = .ok prepared.system := by
  simp only [prepare, bind_eq_ok_iff, mapError_eq_ok_iff]
  constructor
  · rintro ⟨inputs, checked, method, named, _, allowed, system, read, same⟩
    cases same
    exact ⟨checked, named, allowed, read⟩
  · rintro ⟨checked, named, allowed, read⟩
    exact ⟨_, checked, _, named, (), allowed, _, read, rfl⟩

end SolveRequest

end RootFinding
