import Mathlib.Data.List.Nodup
import RootFinding.Json.Value

/-!
# Records

The members of a record as a map from keys to values. A record in which no key comes twice is known
by its keys in their order and by the value of each, and members laid over a record win over those
that were there.
-/

namespace RootFinding

namespace JsonValue

variable {key : String} {value : JsonValue} {members upper : List (String × JsonValue)}

theorem member?_cons (key : String) (first : String × JsonValue) :
    member? key (first :: members) =
      if first.1 = key then some first.2 else member? key members := by
  by_cases same : first.1 = key <;> simp [member?, same]

/-- A key is found unless no member has it. -/
theorem member?_eq_none_iff : member? key members = none ↔ key ∉ members.map (·.1) := by
  induction members with
  | nil => simp [member?]
  | cons first rest inductionHypothesis =>
      rw [member?_cons, List.map_cons, List.mem_cons, not_or]
      split
      · rename_i same
        simp [same]
      · rename_i different
        simp [inductionHypothesis, Ne.symm different]

theorem mem_of_member?_eq_some (found : member? key members = some value) :
    (key, value) ∈ members := by
  induction members with
  | nil => simp [member?] at found
  | cons first rest inductionHypothesis =>
      rw [member?_cons] at found
      split at found
      · rename_i same
        obtain rfl := Option.some.inj found
        exact same ▸ List.mem_cons_self
      · exact List.mem_cons_of_mem _ (inductionHypothesis found)

/-- Two records with the same keys in the same order are equal if each key has the same value. -/
theorem eq_of_member?_eq
    {others : List (String × JsonValue)}
    (sameKeys : members.map (·.1) = others.map (·.1))
    (distinct : (members.map (·.1)).Nodup)
    (sameValues : ∀ key ∈ members.map (·.1), member? key members = member? key others) :
    members = others := by
  induction members generalizing others with
  | nil => simpa using sameKeys.symm
  | cons first rest inductionHypothesis =>
      cases others with
      | nil => simp at sameKeys
      | cons other later =>
          obtain ⟨sameKey, sameLater⟩ := List.cons.inj sameKeys
          obtain ⟨fresh, distinct⟩ := List.nodup_cons.mp distinct
          have sameValue : first.2 = other.2 := by
            have same := sameValues first.1 List.mem_cons_self
            rw [member?_cons, if_pos rfl, member?_cons, if_pos sameKey.symm] at same
            exact Option.some.inj same
          have sameRest : rest = later := by
            refine inductionHypothesis sameLater distinct fun key member => ?_
            have same := sameValues key (List.mem_cons_of_mem _ member)
            have different : first.1 ≠ key := by
              rintro rfl
              exact fresh member
            have otherDifferent : other.1 ≠ key :=
              fun otherSame => different (sameKey.trans otherSame)
            rwa [member?_cons, if_neg different, member?_cons, if_neg otherDifferent] at same
          rw [sameRest, Prod.ext sameKey sameValue]

/-! ## Setting one member -/

/-- Inserting adds one member and no other. -/
theorem mem_insertMember
    {entry : String × JsonValue}
    (member : entry ∈ insertMember key value members) :
    entry = (key, value) ∨ entry ∈ members := by
  induction members with
  | nil => exact .inl (List.mem_singleton.mp member)
  | cons first rest inductionHypothesis =>
      obtain ⟨other, old⟩ := first
      rw [insertMember] at member
      split at member
      · rcases List.mem_cons.mp member with same | later
        · exact .inl same
        · exact .inr (List.mem_cons_of_mem _ later)
      · rcases List.mem_cons.mp member with same | later
        · exact .inr (same ▸ List.mem_cons_self)
        · exact (inductionHypothesis later).imp_right (List.mem_cons_of_mem _)

/-- A key that is not there is set at the end. -/
theorem insertMember_of_not_mem
    (fresh : key ∉ members.map (·.1))
    (value : JsonValue) :
    insertMember key value members = members ++ [(key, value)] := by
  induction members with
  | nil => rfl
  | cons first rest inductionHypothesis =>
      obtain ⟨other, old⟩ := first
      rw [List.map_cons, List.mem_cons, not_or] at fresh
      rw [insertMember, if_neg (Ne.symm fresh.1), inductionHypothesis fresh.2, List.cons_append]

/-- Inserting keeps the keys distinct. -/
theorem nodup_insertMember
    (distinct : (members.map (·.1)).Nodup)
    (key : String)
    (value : JsonValue) :
    ((insertMember key value members).map (·.1)).Nodup := by
  by_cases present : key ∈ members.map (·.1)
  · rwa [map_fst_insertMember present]
  · rw [insertMember_of_not_mem present, List.map_append, List.map_singleton, List.nodup_middle,
      List.append_nil, List.nodup_cons]
    exact ⟨present, distinct⟩

/-! ## Members laid over others -/

/-- The members of both records, with the upper values for the keys that both have. -/
def laidOver (lower upper : List (String × JsonValue)) : List (String × JsonValue) :=
  upper.foldl (fun members (key, value) => insertMember key value members) lower

theorem laidOver_cons (lower : List (String × JsonValue)) (first : String × JsonValue) :
    laidOver lower (first :: upper) = laidOver (insertMember first.1 first.2 lower) upper :=
  rfl

/-- Of two records, the upper one is asked first. -/
theorem member?_laidOver
    (distinct : (upper.map (·.1)).Nodup)
    (key : String)
    (lower : List (String × JsonValue)) :
    member? key (laidOver lower upper) = (member? key upper).or (member? key lower) := by
  induction upper generalizing lower with
  | nil => rfl
  | cons first rest inductionHypothesis =>
      obtain ⟨fresh, distinct⟩ := List.nodup_cons.mp distinct
      rw [laidOver_cons, inductionHypothesis distinct, member?_cons]
      by_cases same : first.1 = key
      · rw [if_pos same, member?_eq_none_iff.mpr (same ▸ fresh), Option.none_or, Option.some_or,
          same, member?_insertMember_self]
      · rw [if_neg same, member?_insertMember_of_ne (Ne.symm same)]

/-- Laying one record over another makes no new members. -/
theorem mem_laidOver
    {lower : List (String × JsonValue)}
    {entry : String × JsonValue}
    (member : entry ∈ laidOver lower upper) :
    entry ∈ lower ∨ entry ∈ upper := by
  induction upper generalizing lower with
  | nil => exact .inl member
  | cons first rest inductionHypothesis =>
      rw [laidOver_cons] at member
      rcases inductionHypothesis member with before | later
      · rcases mem_insertMember before with rfl | before
        · exact .inr List.mem_cons_self
        · exact .inl before
      · exact .inr (List.mem_cons_of_mem _ later)

/-- Laying one record over another keeps the keys distinct. -/
theorem nodup_laidOver
    {lower : List (String × JsonValue)}
    (distinct : (lower.map (·.1)).Nodup)
    (upper : List (String × JsonValue)) :
    ((laidOver lower upper).map (·.1)).Nodup := by
  induction upper generalizing lower with
  | nil => exact distinct
  | cons first rest inductionHypothesis =>
      exact inductionHypothesis (nodup_insertMember distinct first.1 first.2)

end JsonValue

end RootFinding
