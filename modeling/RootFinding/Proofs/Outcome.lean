import Mathlib.Data.List.Forall2

/-!
# Computations that may fail

What it takes for a computation to come to a value: every step of it came to one. Errors that are
only renamed on the way out make no difference to that.
-/

namespace RootFinding

namespace Outcome

variable {ε δ α β : Type}

theorem ok_bind
    (value : α)
    (next : α → Except ε β) :
    ((.ok value : Except ε α) >>= next) = next value :=
  rfl

theorem exists_of_isOk
    {outcome : Except ε α}
    (isOk : outcome.isOk = true) :
    ∃ value, outcome = .ok value := by
  cases outcome with
  | error cause => cases isOk
  | ok value => exact ⟨value, rfl⟩

/-- A sequence succeeds where both parts do. -/
theorem bind_eq_ok_iff
    {first : Except ε α}
    {next : α → Except ε β}
    {result : β} :
    (first >>= next) = .ok result ↔
      ∃ value, first = .ok value ∧ next value = .ok result := by
  cases first with
  | error cause =>
      constructor
      · intro failed
        cases failed
      · rintro ⟨value, failed, _⟩
        cases failed
  | ok value =>
      constructor
      · intro later
        exact ⟨value, rfl, later⟩
      · rintro ⟨_, same, later⟩
        cases same
        exact later

/-- A sequence fails in its first part or, behind it, in its second. -/
theorem bind_eq_error_iff
    {first : Except ε α}
    {next : α → Except ε β}
    {cause : ε} :
    (first >>= next) = .error cause ↔
      first = .error cause ∨ ∃ value, first = .ok value ∧ next value = .error cause := by
  cases first with
  | error other =>
      constructor
      · intro failed
        cases failed
        exact .inl rfl
      · rintro (failed | ⟨value, done, _⟩)
        · cases failed
          rfl
        · cases done
  | ok value =>
      constructor
      · intro failed
        exact .inr ⟨value, rfl, failed⟩
      · rintro (failed | ⟨_, same, failed⟩)
        · cases failed
        · cases same
          exact failed

theorem mapError_eq_ok_iff
    {first : Except ε α}
    {rename : ε → δ}
    {result : α} :
    first.mapError rename = .ok result ↔ first = .ok result := by
  cases first with
  | error cause =>
      constructor <;> intro failed <;> cases failed
  | ok value =>
      constructor <;> intro same <;> cases same <;> rfl

/-- A renamed error has an original. -/
theorem mapError_eq_error_iff
    {first : Except ε α}
    {rename : ε → δ}
    {cause : δ} :
    first.mapError rename = .error cause ↔
      ∃ original, first = .error original ∧ rename original = cause := by
  cases first with
  | error other =>
      constructor
      · intro same
        cases same
        exact ⟨other, rfl, rfl⟩
      · rintro ⟨_, same, renamed⟩
        cases same
        rw [← renamed]
        rfl
  | ok value =>
      constructor
      · intro failed
        cases failed
      · rintro ⟨_, failed, _⟩
        cases failed

/-- A test that refuses a case lets the others pass. -/
theorem unless_eq_ok_iff
    {refused : Prop}
    [Decidable refused]
    {cause : ε}
    {rest : Except ε α}
    {result : α} :
    (if refused then (do throw cause; rest) else rest) = .ok result ↔
      ¬refused ∧ rest = .ok result := by
  by_cases holds : refused
  · rw [if_pos holds]
    constructor
    · intro failed
      cases failed
    · rintro ⟨passed, _⟩
      exact absurd holds passed
  · rw [if_neg holds]
    exact (and_iff_right holds).symm

/-- What fails behind a test fails at the test or after it. -/
theorem unless_eq_error_iff
    {refused : Prop}
    [Decidable refused]
    {cause other : ε}
    {rest : Except ε α} :
    (if refused then (do throw cause; rest) else rest) = .error other ↔
      (refused ∧ cause = other) ∨ (¬refused ∧ rest = .error other) := by
  by_cases holds : refused
  · rw [if_pos holds]
    constructor
    · intro failed
      cases failed
      exact .inl ⟨holds, rfl⟩
    · rintro (⟨_, rfl⟩ | ⟨passed, _⟩)
      · rfl
      · exact absurd holds passed
  · rw [if_neg holds]
    constructor
    · exact fun failed => .inr ⟨holds, failed⟩
    · rintro (⟨refused, _⟩ | ⟨_, failed⟩)
      · exact absurd refused holds
      · exact failed

/-- A traversal comes to a list if every item comes to the entry at its place. -/
theorem mapM_eq_ok_iff
    {compute : α → Except ε β}
    {items : List α}
    {results : List β} :
    items.mapM compute = .ok results ↔
      List.Forall₂ (fun item result => compute item = .ok result) items results := by
  induction items generalizing results with
  | nil =>
      rw [List.mapM_nil, List.forall₂_nil_left_iff]
      constructor
      · intro same
        cases same
        rfl
      · intro same
        subst results
        rfl
  | cons item items inductionHypothesis =>
      rw [List.mapM_cons, bind_eq_ok_iff]
      constructor
      · rintro ⟨value, first, later⟩
        obtain ⟨values, others, same⟩ := bind_eq_ok_iff.mp later
        cases same
        exact .cons first (inductionHypothesis.mp others)
      · intro related
        cases related with
        | cons first others =>
            refine ⟨_, first, ?_⟩
            rw [inductionHypothesis.mpr others]
            rfl

/-- A traversal that fails does so at one of the items. -/
theorem exists_error_of_mapM
    {compute : α → Except ε β}
    {items : List α}
    {cause : ε}
    (failed : items.mapM compute = .error cause) :
    ∃ item ∈ items, compute item = .error cause := by
  induction items with
  | nil =>
      cases failed
  | cons item items inductionHypothesis =>
      rw [List.mapM_cons, bind_eq_error_iff] at failed
      rcases failed with first | ⟨value, _, failed⟩
      · exact ⟨item, List.mem_cons_self, first⟩
      · rcases bind_eq_error_iff.mp failed with later | ⟨_, _, failed⟩
        · obtain ⟨other, member, failedThere⟩ := inductionHypothesis later
          exact ⟨other, List.mem_cons_of_mem _ member, failedThere⟩
        · cases failed

/-- A traversal that comes to a list came to a value at each of the items. -/
theorem exists_ok_of_mapM
    {compute : α → Except ε β}
    {items : List α}
    {results : List β}
    (computed : items.mapM compute = .ok results)
    {item : α}
    (member : item ∈ items) :
    ∃ value, compute item = .ok value := by
  have related := mapM_eq_ok_iff.mp computed
  clear computed
  induction related with
  | nil =>
      cases member
  | cons first _ inductionHypothesis =>
      rcases List.mem_cons.mp member with rfl | member
      · exact ⟨_, first⟩
      · exact inductionHypothesis member

/-- A pass over a vector that succeeds is a pass over its list. -/
theorem toList_mapM_eq_ok
    {n : Nat}
    {compute : α → Except ε β}
    {items : Vector α n}
    {results : Vector β n}
    (computed : items.mapM compute = .ok results) :
    items.toList.mapM compute = .ok results.toList := by
  have arrays : items.toArray.mapM compute = .ok results.toArray := by
    rw [← Vector.toArray_mapM, computed]
    rfl
  rw [← Vector.toList_toArray, ← Array.toList_mapM, arrays]
  rfl

theorem toList_mapM_eq_error
    {n : Nat}
    {compute : α → Except ε β}
    {items : Vector α n}
    {cause : ε}
    (failed : items.mapM compute = .error cause) :
    items.toList.mapM compute = .error cause := by
  have arrays : items.toArray.mapM compute = .error cause := by
    rw [← Vector.toArray_mapM, failed]
    rfl
  rw [← Vector.toList_toArray, ← Array.toList_mapM, arrays]
  rfl

/-- A traversal of the entries in their order comes to a vector of as many results. -/
theorem mapM_eq_ok_of_toList
    {n : Nat}
    {compute : α → Except ε β}
    {items : Vector α n}
    {results : Vector β n}
    (computed : items.toList.mapM compute = .ok results.toList) :
    items.mapM compute = .ok results := by
  have lists :
      Array.toList <$> (Vector.toArray <$> items.mapM compute) = items.toList.mapM compute := by
    rw [Vector.toArray_mapM, Array.toList_mapM, Vector.toList_toArray]
  rw [computed] at lists
  cases outcome : items.mapM compute with
  | error cause =>
      rw [outcome] at lists
      cases lists
  | ok found =>
      rw [outcome] at lists
      have same : found.toList = results.toList := Except.ok.inj lists
      rw [Vector.toList_inj.mp same]

/-- The reason why a computation has no value. -/
def failure? : Except ε α → Option ε
  | .ok _ => none
  | .error cause => some cause

theorem failure?_eq_none_iff {outcome : Except ε α} :
    failure? outcome = none ↔ ∃ value, outcome = .ok value := by
  cases outcome <;> simp [failure?]

theorem failure?_eq_some_iff {outcome : Except ε α} {cause : ε} :
    failure? outcome = some cause ↔ outcome = .error cause := by
  cases outcome <;> simp [failure?]

/-- A last step that cannot fail adds no failure. -/
theorem failure?_bind_pure (first : Except ε α) (change : α → β) :
    failure? (do return change (← first)) = failure? first := by
  cases first <;> rfl

/-- Of two computations in a row the first failure counts. -/
theorem failure?_pair
    (first : Except ε α)
    (second : Except ε β)
    (combine : α → β → δ) :
    failure? (do return combine (← first) (← second)) =
      (failure? first).or (failure? second) := by
  cases first <;> cases second <;> rfl

/-- A pass over a list fails as its first failing entry does. -/
theorem failure?_mapM
    (compute : α → Except ε β)
    (items : List α) :
    failure? (items.mapM compute) = items.findSome? fun item => failure? (compute item) := by
  induction items with
  | nil => rfl
  | cons item items inductionHypothesis =>
      rw [List.mapM_cons, failure?_pair, inductionHypothesis, List.findSome?_cons]
      cases failure? (compute item) <;> rfl

end Outcome

end RootFinding
