import RootFinding.Proofs.Json.RoundTrip

/-!
# Documents that go out piece by piece

Whatever becomes of a writing, it is a beginning of the text that the value has as a whole. A value
that can be stored goes out to its end where there is room for its nesting, and breaks off for no
other reason than its nesting where there is none. Both are by induction on the value, with the text
before it and the room that is left to it general.
-/

namespace RootFinding

namespace JsonValue

namespace Writing

/-- What went out is a beginning of a text, and all of it unless the writing broke off. -/
structure IsOf (writing : Writing) (text : String) : Prop where
  isBeginning : ∃ rest, text = writing.text ++ rest
  ends : writing.failure = none → writing.text = text

variable {first next : Writing} {before behind : String}

/-- What is complete is carried on by what comes next. -/
theorem append_of_none
    (complete : first.failure = none)
    (next : Writing) :
    first ++ next = { next with text := first.text ++ next.text } := by
  change first.andThen next = _
  rw [andThen, complete]

/-- What is broken off stays as it is. -/
theorem append_of_some
    {cause : WriteError}
    (broken : first.failure = some cause)
    (next : Writing) :
    first ++ next = first := by
  change first.andThen next = _
  rw [andThen, broken]

/-- A writing after another breaks off where the first of them does, or else where the second does. -/
theorem failure_append (first next : Writing) :
    (first ++ next).failure = first.failure.or next.failure := by
  cases ends : first.failure with
  | none => rw [append_of_none ends, Option.none_or]
  | some cause => rw [append_of_some ends, ends, Option.some_or]

theorem isOf_whole (text : String) : (whole text).IsOf text where
  isBeginning := ⟨"", by simp [whole]⟩
  ends _ := rfl

/-- Nothing is a beginning of every text. -/
theorem isOf_brokenOff (cause : WriteError) (text : String) : (brokenOff cause).IsOf text where
  isBeginning := ⟨text, by simp [brokenOff]⟩
  ends complete := by cases complete

/-- Writings one after another go out as the texts one after another. -/
theorem IsOf.append
    (isOf : first.IsOf before)
    (nextIsOf : next.IsOf behind) :
    (first ++ next).IsOf (before ++ behind) := by
  cases ends : first.failure with
  | none =>
      rw [append_of_none ends, ← isOf.ends ends]
      obtain ⟨rest, text_eq⟩ := nextIsOf.isBeginning
      refine ⟨⟨rest, ?_⟩, fun complete => ?_⟩
      · rw [text_eq, String.append_assoc]
      · rw [nextIsOf.ends complete]
  | some cause =>
      rw [append_of_some ends]
      obtain ⟨rest, text_eq⟩ := isOf.isBeginning
      refine ⟨⟨rest ++ behind, ?_⟩, fun complete => ?_⟩
      · rw [text_eq, String.append_assoc]
      · rw [ends] at complete
        cases complete

end Writing

open Writing

/-! ## What goes out -/

/-- A value that holds no others goes out as a whole or not at all. -/
theorem isOf_writeScalarBehind (before : String) (value : JsonValue) :
    (writeScalarBehind before value).IsOf (before ++ writtenScalar value) := by
  rw [writeScalarBehind]
  split
  · exact isOf_brokenOff _ _
  · exact isOf_whole _

mutual

/-- What goes out of a value is a beginning of its text. -/
theorem isOf_writeWithin (before : String) (level : Nat) :
    ∀ (room : Nat) (value : JsonValue),
      (writeWithin before level room value).IsOf (before ++ writeIndented level value)
  | 0, list _ | 0, record _ => by
      rw [writeWithin]
      exact (isOf_whole before).append (isOf_brokenOff _ _)
  | room + 1, list (first :: rest) => by
      have text_eq :
          before ++ writeIndented level (list (first :: rest)) =
            before ++ (("[" ++ newLine (level + 1)) ++ writeIndented (level + 1) first) ++
              writeItems (level + 1) rest ++ (newLine level ++ "]") := by
        simp only [writeIndented, String.append_assoc]
      rw [writeWithin, text_eq]
      exact (((isOf_whole before).append (isOf_writeWithin _ (level + 1) room first)).append
        (isOf_writeItemsWithin (level + 1) room rest)).append (isOf_whole _)
  | room + 1, record (first :: rest) => by
      have text_eq :
          before ++ writeIndented level (record (first :: rest)) =
            (before ++ "\x7b" ++ newLine (level + 1)) ++ writeMember (level + 1) first ++
              writeMembers (level + 1) rest ++ (newLine level ++ "\x7d") := by
        simp only [writeIndented, String.append_assoc]
      rw [writeWithin, text_eq]
      exact (((isOf_whole _).append (isOf_writeMemberWithin (level + 1) room first)).append
        (isOf_writeMembersWithin (level + 1) room rest)).append (isOf_whole _)
  | _ + 1, list [] | _ + 1, record [] => by
      simp only [writeWithin, writeIndented]
      exact isOf_writeScalarBehind before _
  | _, null | _, boolean _ | _, integer _ | _, number _ | _, text _ | _, brokenText _ => by
      simp only [writeWithin, writeIndented]
      exact isOf_writeScalarBehind before _

/-- Writing items within a room gives the beginning of the items. -/
theorem isOf_writeItemsWithin (level room : Nat) :
    ∀ items : List JsonValue, (writeItemsWithin level room items).IsOf (writeItems level items)
  | [] => isOf_whole ""
  | item :: rest => by
      rw [writeItemsWithin, writeItems]
      exact (isOf_writeWithin _ level room item).append (isOf_writeItemsWithin level room rest)

theorem isOf_writeMemberWithin (level room : Nat) :
    ∀ entry : String × JsonValue,
      (writeMemberWithin level room entry).IsOf (writeMember level entry)
  | (key, value) => by
      have valueIsOf := isOf_writeWithin "" level room value
      rw [String.empty_append] at valueIsOf
      rw [writeMemberWithin, writeMember]
      exact (isOf_whole _).append valueIsOf

theorem isOf_writeMembersWithin (level room : Nat) :
    ∀ members : List (String × JsonValue),
      (writeMembersWithin level room members).IsOf (writeMembers level members)
  | [] => isOf_whole ""
  | entry :: rest => by
      rw [writeMembersWithin, writeMembers]
      exact ((isOf_whole _).append (isOf_writeMemberWithin level room entry)).append
        (isOf_writeMembersWithin level room rest)

end

/-! ## Why it breaks off -/

/-- What becomes of a writing that can fail for its nesting alone. -/
def nestingFailure? (nests : Bool) : Option WriteError :=
  if nests then none else some .tooDeep

/-- Two writings fail for their nesting unless both have the room. -/
theorem or_nestingFailure? (nests others : Bool) :
    (nestingFailure? nests).or (nestingFailure? others) = nestingFailure? (nests && others) := by
  cases nests <;> rfl

mutual

/-- A value that can be stored breaks off for its nesting or not at all. -/
theorem failure_writeWithin (before : String) (level : Nat) :
    ∀ (room : Nat) (value : JsonValue),
      value.isStorable = true →
        (writeWithin before level room value).failure = nestingFailure? (value.nestsWithin room)
  | 0, list _, _ | 0, record _, _ => by
      rw [writeWithin, nestsWithin]
      rfl
  | room + 1, list (first :: rest), storable => by
      rw [isStorable, itemsStorable, Bool.and_eq_true] at storable
      rw [writeWithin, nestsWithin, itemsNestWithin, ← or_nestingFailure?,
        ← failure_writeWithin ("[" ++ newLine (level + 1)) (level + 1) room first storable.1,
        ← failure_writeItemsWithin (level + 1) room rest storable.2]
      simp [failure_append, whole]
  | room + 1, record (first :: rest), storable => by
      rw [isStorable, membersStorable, Bool.and_eq_true, Bool.and_eq_true] at storable
      rw [writeWithin, nestsWithin, membersNestWithin, ← or_nestingFailure?,
        ← failure_writeMemberWithin (level + 1) room first storable.2.1,
        ← failure_writeMembersWithin (level + 1) room rest storable.2.2]
      simp [failure_append, whole]
  | _ + 1, list [], _ | _ + 1, record [], _ => by
      simp [writeWithin, writeScalarBehind, scalarFailure?, whole, nestsWithin, itemsNestWithin,
        membersNestWithin, nestingFailure?]
  | room, integer value, storable => by
      rw [isStorable, decide_eq_true_eq, ← Nat.not_lt] at storable
      cases room <;>
        simp [writeWithin, writeScalarBehind, scalarFailure?, storable, whole, nestsWithin,
          nestingFailure?]
  | _, brokenText _, storable => by
      simp [isStorable] at storable
  | room, null, _ | room, boolean _, _ | room, number _, _ | room, text _, _ => by
      cases room <;>
        simp [writeWithin, writeScalarBehind, scalarFailure?, whole, nestsWithin, nestingFailure?]

/-- Writing storable items fails exactly where one of them nests too deep. -/
theorem failure_writeItemsWithin (level room : Nat) :
    ∀ items : List JsonValue,
      itemsStorable items = true →
        (writeItemsWithin level room items).failure = nestingFailure? (itemsNestWithin room items)
  | [], _ => by
      rw [writeItemsWithin, itemsNestWithin]
      rfl
  | item :: rest, storable => by
      rw [itemsStorable, Bool.and_eq_true] at storable
      rw [writeItemsWithin, failure_append, itemsNestWithin, ← or_nestingFailure?,
        failure_writeWithin _ level room item storable.1,
        failure_writeItemsWithin level room rest storable.2]

/-- Writing a storable member fails exactly where its value nests too deep. -/
theorem failure_writeMemberWithin (level room : Nat) :
    ∀ entry : String × JsonValue,
      entry.2.isStorable = true →
        (writeMemberWithin level room entry).failure =
          nestingFailure? (entry.2.nestsWithin room)
  | (key, value), storable => by
      rw [writeMemberWithin, failure_append, failure_writeWithin _ level room value storable]
      rfl

/-- Writing storable members fails exactly where one of them nests too deep. -/
theorem failure_writeMembersWithin (level room : Nat) :
    ∀ members : List (String × JsonValue),
      membersStorable members = true →
        (writeMembersWithin level room members).failure =
          nestingFailure? (membersNestWithin room members)
  | [], _ => by
      rw [writeMembersWithin, membersNestWithin]
      rfl
  | entry :: rest, storable => by
      rw [membersStorable, Bool.and_eq_true] at storable
      rw [writeMembersWithin, failure_append, failure_append, membersNestWithin,
        ← or_nestingFailure?, failure_writeMemberWithin level room entry storable.1,
        failure_writeMembersWithin level room rest storable.2]
      rfl

end

/-- A value that fits goes out to its end. -/
theorem writeWithin_of_fits
    {room : Nat}
    {value : JsonValue}
    (fits : Fits room value)
    (before : String)
    (level : Nat) :
    writeWithin before level room value = .whole (before ++ writeIndented level value) := by
  have complete : (writeWithin before level room value).failure = none := by
    rw [failure_writeWithin before level room value fits.storable, fits.nests]
    rfl
  have text_eq := (isOf_writeWithin before level room value).ends complete
  rw [← text_eq, whole, ← complete]

end JsonValue

end RootFinding
