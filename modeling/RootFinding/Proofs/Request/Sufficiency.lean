import RootFinding.Proofs.Request.Acceptance

/-!
# What is enough for a request

Texts in which no name of a function can begin are never refused for one, and texts and finite
numbers of one admissible count pass the checks on sizes, kinds and ranges.
-/

namespace RootFinding

open Outcome

namespace Text

/-- A small letter with which the name of a trigonometric function begins. -/
def beginsName (c : Char) : Bool :=
  ['a', 'c', 's', 't'].contains c

/-- A part of a text has its characters. -/
theorem mem_of_occursIn
    {word text : List Char}
    (occurs : occursIn word text = true)
    {c : Char}
    (member : c ∈ word) :
    c ∈ text := by
  induction text with
  | nil =>
      rw [occursIn, List.isEmpty_iff] at occurs
      rw [occurs] at member
      cases member
  | cons first rest inductionHypothesis =>
      rw [occursIn, Bool.or_eq_true] at occurs
      rcases occurs with begins | later
      · have leading := List.isPrefixOf_iff_prefix.mp begins
        exact leading.subset member
      · exact List.mem_cons_of_mem _ (inductionHypothesis later)

end Text

namespace SolveRequest

/-- Every name that is looked for has such a letter. -/
theorem exists_letter_of_mem_trigonometricNames
    {name : String}
    (member : name ∈ trigonometricNames) :
    ∃ c ∈ name.toList, Text.beginsName c = true := by
  have every :
      trigonometricNames.all fun name =>
        name.toList.any Text.beginsName := by
    decide +kernel
  simpa only [List.any_eq_true] using List.all_eq_true.mp every name member

/-- A text without these letters, large or small, holds none of the names. -/
theorem trigonometricName?_eq_none
    {equation : String}
    (plain : ∀ c ∈ equation.toList, Text.beginsName c.toLower = false) :
    trigonometricName? equation = none := by
  rw [trigonometricName?, List.find?_eq_none]
  intro name member occurs
  obtain ⟨c, inName, letter⟩ := exists_letter_of_mem_trigonometricNames member
  have inText := Text.mem_of_occursIn occurs inName
  rw [Text.lowered, String.toList_ofList, List.mem_map] at inText
  obtain ⟨source, sourceMember, rfl⟩ := inText
  rw [plain source sourceMember] at letter
  cases letter

/-- Equations without a forbidden name pass the filter. -/
theorem refuseTrigonometric_eq_ok
    {equations : List String}
    (none : ∀ equation ∈ equations, trigonometricName? equation = none) :
    refuseTrigonometric equations = .ok () := by
  rw [refuseTrigonometric, List.forM_eq_forM]
  induction equations with
  | nil => rfl
  | cons equation rest inductionHypothesis =>
      rw [List.forM_cons, none equation List.mem_cons_self]
      exact inductionHypothesis fun other member => none other (List.mem_cons_of_mem _ member)

/-- Texts and finite numbers of one admissible count pass the checks on sizes, kinds and ranges. -/
theorem exists_checkedInputs
    {texts : List String}
    {point : List Float}
    (sameLength : point.length = texts.length)
    (enough : equationMinimum ≤ texts.length)
    (notMany : texts.length ≤ equationMaximum)
    (finite : ∀ entry ∈ point, Arithmetic.isFinite entry = true)
    {epsilon limit : JsonValue}
    {tolerance : Float}
    {count : { limit : Nat // 0 < limit }}
    (tolerable : checkedEpsilon epsilon = .ok tolerance)
    (limited : checkedLimit limit = .ok count)
    (method : JsonValue) :
    ∃ inputs,
      checkedInputs
          { equations := .list (texts.map .text)
            guess := .list (point.map .number)
            epsilon, method, limit } = .ok inputs ∧
        inputs.equations.toList = texts ∧ inputs.guess.toList = point ∧
        inputs.epsilon = tolerance ∧ inputs.limit = count.val := by
  have found : texts? (texts.map .text) = some texts := texts?_eq_some_iff.mpr rfl
  have read : (point.map JsonValue.number).mapM coordinate = .ok point := by
    rw [mapM_eq_ok_iff, List.forall₂_map_left_iff]
    exact List.forall₂_same.mpr fun _ _ => rfl
  have allFinite : (!point.all Float.isFinite) = false := by
    rw [Bool.not_eq_false', List.all_eq_true]
    exact finite
  have least : equationMinimum = 2 := rfl
  have nonempty : texts ≠ [] := by
    rintro rfl
    simp [least] at enough
  have pointNonempty : point ≠ [] := by
    rintro rfl
    simp [← sameLength, least] at enough
  obtain ⟨count, positive⟩ := count
  have sizes :
      point.length = texts.length ∧ equationMinimum ≤ texts.length ∧
        texts.length ≤ equationMaximum := ⟨sameLength, enough, notMany⟩
  refine ⟨?_, ?_, ?_⟩
  · exact {
      size := texts.length
      equations := ⟨texts.toArray, by simp⟩
      guess := ⟨point.toArray, by simp [sameLength]⟩
      epsilon := tolerance
      limit := count
      equationMinimum_le := enough
      le_equationMaximum := notMany
      limit_pos := positive }
  · simp only [checkedInputs, items, unless_eq_ok_iff, found, bind_eq_ok_iff, mapError_eq_ok_iff]
    refine ⟨?_, ?_, ?_, ?_, ?_, point, read, ?_, tolerance, tolerable, ⟨count, positive⟩, limited, ?_⟩
    · simpa using nonempty
    · simpa using pointNonempty
    · simp [sameLength]
    · simpa using enough
    · simpa using notMany
    · simp [allFinite]
    · rw [dif_pos sizes]
      rfl
  · exact ⟨by simp, by simp, rfl, rfl⟩

end SolveRequest

end RootFinding
