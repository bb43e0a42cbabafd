import RootFinding.Proofs.Json.Number
import RootFinding.Proofs.Json.Record
import RootFinding.Proofs.Json.Text

/-!
# Documents read back

A value that can be stored is read back from the text in which it is written on many lines, as long
as it is nested no deeper than the reader goes. The induction is on the fuel of the reader, which
every step uses up with a character at least, and carries the text behind a value along.
-/

namespace RootFinding

namespace JsonValue

/-! ## Values that can be stored -/

mutual

/--
A value that is read back as it was: its integers are short enough to be read, no string holds half
of a surrogate pair, and no record has a key twice.
-/
def isStorable : JsonValue → Bool
  | integer value => (Nat.toDigits 10 value.natAbs).length ≤ integerDigitLimit
  | brokenText _ => false
  | list items => itemsStorable items
  | record members => (members.map (·.1)).Nodup && membersStorable members
  | null | boolean _ | number _ | text _ => true

/-- The same for each item of a list. -/
def itemsStorable : List JsonValue → Bool
  | [] => true
  | item :: rest => item.isStorable && itemsStorable rest

/-- The same for the value of each member of a record. -/
def membersStorable : List (String × JsonValue) → Bool
  | [] => true
  | (_, value) :: rest => value.isStorable && membersStorable rest

end

mutual

theorem isEncodable_of_isStorable :
    ∀ value : JsonValue, value.isStorable = true → value.isEncodable = true
  | null, _ | boolean _, _ | integer _, _ | number _, _ | text _, _ => by
      simp [isEncodable, allParts]
  | brokenText _, storable => by
      simp [isStorable] at storable
  | list items, storable => by
      rw [isEncodable, allParts]
      exact allItems_of_itemsStorable items (by simpa [isStorable] using storable)
  | record members, storable => by
      simp only [isStorable, Bool.and_eq_true] at storable
      rw [isEncodable, allParts]
      exact allMembers_of_membersStorable members storable.2

theorem allItems_of_itemsStorable :
    ∀ items : List JsonValue,
      itemsStorable items = true →
        allItems (fun | brokenText _ => false | _ => true) (fun _ => true) items = true
  | [], _ => by
      rw [allItems]
  | item :: rest, storable => by
      rw [itemsStorable, Bool.and_eq_true] at storable
      rw [allItems, Bool.and_eq_true]
      exact ⟨isEncodable_of_isStorable item storable.1, allItems_of_itemsStorable rest storable.2⟩

theorem allMembers_of_membersStorable :
    ∀ members : List (String × JsonValue),
      membersStorable members = true →
        allMembers (fun | brokenText _ => false | _ => true) (fun _ => true) members = true
  | [], _ => by
      rw [allMembers]
  | (_, value) :: rest, storable => by
      rw [membersStorable, Bool.and_eq_true] at storable
      rw [allMembers, Bool.true_and, Bool.and_eq_true]
      exact ⟨isEncodable_of_isStorable value storable.1,
        allMembers_of_membersStorable rest storable.2⟩

end

/-- A value that can be stored, nested no deeper than the room that is left. -/
structure Fits (room : Nat) (value : JsonValue) : Prop where
  storable : value.isStorable = true
  nests : value.nestsWithin room = true

section Fitting

variable {room : Nat} {items : List JsonValue} {members : List (String × JsonValue)}

/-- Items are storable one by one. -/
theorem itemsStorable_iff :
    itemsStorable items = true ↔ ∀ item ∈ items, item.isStorable = true := by
  induction items with
  | nil => simp [itemsStorable]
  | cons item rest inductionHypothesis => simp [itemsStorable, inductionHypothesis]

theorem membersStorable_iff :
    membersStorable members = true ↔ ∀ entry ∈ members, entry.2.isStorable = true := by
  induction members with
  | nil => simp [membersStorable]
  | cons entry rest inductionHypothesis =>
      rw [membersStorable, Bool.and_eq_true, inductionHypothesis, List.forall_mem_cons]

theorem itemsNestWithin_iff :
    itemsNestWithin room items = true ↔ ∀ item ∈ items, item.nestsWithin room = true := by
  induction items with
  | nil => simp [itemsNestWithin]
  | cons item rest inductionHypothesis => simp [itemsNestWithin, inductionHypothesis]

theorem membersNestWithin_iff :
    membersNestWithin room members = true ↔ ∀ entry ∈ members, entry.2.nestsWithin room = true := by
  induction members with
  | nil => simp [membersNestWithin]
  | cons entry rest inductionHypothesis =>
      rw [membersNestWithin, Bool.and_eq_true, inductionHypothesis, List.forall_mem_cons]

/-- A list fits where there is room for one level more than each of its items takes. -/
theorem fits_list_iff :
    Fits room (list items) ↔ ∃ inner, room = inner + 1 ∧ ∀ item ∈ items, Fits inner item := by
  constructor
  · rintro ⟨storable, nests⟩
    cases room with
    | zero => simp [nestsWithin] at nests
    | succ inner =>
        rw [isStorable, itemsStorable_iff] at storable
        rw [nestsWithin, itemsNestWithin_iff] at nests
        exact ⟨inner, rfl, fun item member => ⟨storable item member, nests item member⟩⟩
  · rintro ⟨inner, rfl, fits⟩
    constructor
    · rw [isStorable, itemsStorable_iff]
      exact fun item member => (fits item member).storable
    · rw [nestsWithin, itemsNestWithin_iff]
      exact fun item member => (fits item member).nests

/-- A record fits likewise if it has no key twice. -/
theorem fits_record_iff :
    Fits room (record members) ↔
      ∃ inner,
        room = inner + 1 ∧
          (members.map (·.1)).Nodup ∧
          ∀ entry ∈ members, Fits inner entry.2 := by
  constructor
  · rintro ⟨storable, nests⟩
    cases room with
    | zero => simp [nestsWithin] at nests
    | succ inner =>
        rw [isStorable, Bool.and_eq_true, decide_eq_true_eq, membersStorable_iff] at storable
        rw [nestsWithin, membersNestWithin_iff] at nests
        exact ⟨inner, rfl, storable.1,
          fun entry member => ⟨storable.2 entry member, nests entry member⟩⟩
  · rintro ⟨inner, rfl, distinct, fits⟩
    constructor
    · rw [isStorable, Bool.and_eq_true, decide_eq_true_eq, membersStorable_iff]
      exact ⟨distinct, fun entry member => (fits entry member).storable⟩
    · rw [nestsWithin, membersNestWithin_iff]
      exact fun entry member => (fits entry member).nests

end Fitting

mutual

/-- More room does no harm. -/
theorem nestsWithin_of_le :
    ∀ {levels room : Nat} (value : JsonValue),
      levels ≤ room → value.nestsWithin levels = true → value.nestsWithin room = true
  | 0, _, list _, _, nests | 0, _, record _, _, nests => by
      simp [nestsWithin] at nests
  | levels + 1, room + 1, list items, le, nests => by
      rw [nestsWithin] at nests ⊢
      exact itemsNestWithin_of_le items (Nat.le_of_succ_le_succ le) nests
  | levels + 1, room + 1, record members, le, nests => by
      rw [nestsWithin] at nests ⊢
      exact membersNestWithin_of_le members (Nat.le_of_succ_le_succ le) nests
  | _, room, null, _, _ | _, room, boolean _, _, _ | _, room, integer _, _, _
  | _, room, number _, _, _ | _, room, text _, _, _ | _, room, brokenText _, _, _ => by
      cases room <;> rfl

theorem itemsNestWithin_of_le :
    ∀ {levels room : Nat} (items : List JsonValue),
      levels ≤ room → itemsNestWithin levels items = true → itemsNestWithin room items = true
  | _, _, [], _, _ => by
      rw [itemsNestWithin]
  | _, _, item :: rest, le, nests => by
      rw [itemsNestWithin, Bool.and_eq_true] at nests ⊢
      exact ⟨nestsWithin_of_le item le nests.1, itemsNestWithin_of_le rest le nests.2⟩

theorem membersNestWithin_of_le :
    ∀ {levels room : Nat} (members : List (String × JsonValue)),
      levels ≤ room →
        membersNestWithin levels members = true → membersNestWithin room members = true
  | _, _, [], _, _ => by
      rw [membersNestWithin]
  | _, _, (_, value) :: rest, le, nests => by
      rw [membersNestWithin, Bool.and_eq_true] at nests ⊢
      exact ⟨nestsWithin_of_le value le nests.1, membersNestWithin_of_le rest le nests.2⟩

end

/-- What fits into some levels fits into more. -/
theorem Fits.mono
    {levels room : Nat}
    {value : JsonValue}
    (fits : Fits levels value)
    (le : levels ≤ room) :
    Fits room value where
  storable := fits.storable
  nests := nestsWithin_of_le value le fits.nests

/-! ## Written texts -/

section Texts

variable {level : Nat} {after : List Char}

/-- Blanks in front are skipped, up to a character that is none. -/
theorem skipSpace_newLine (level : Nat) (text : List Char) :
    skipSpace ((newLine level).toList ++ text) = skipSpace text := by
  have blanks : ∀ c ∈ (newLine level).toList, isSpace c = true := by
    intro c member
    rw [newLine, String.toList_ofList] at member
    rcases List.mem_cons.mp member with rfl | blank
    · rfl
    · rw [List.eq_of_mem_replicate blank]
      rfl
  rw [skipSpace, List.dropWhile_append_of_pos blanks, skipSpace]

theorem skipSpace_cons
    {c : Char}
    (notSpace : isSpace c = false)
    (rest : List Char) :
    skipSpace (c :: rest) = c :: rest :=
  List.dropWhile_cons_of_neg (by simp [notSpace])

theorem endsValue_newLine (level : Nat) (text : List Char) :
    EndsValue ((newLine level).toList ++ text) := by
  rw [newLine, String.toList_ofList]
  intro c first
  exact .inr (Option.some.inj first).symm

theorem endsValue_comma (text : List Char) : EndsValue (',' :: text) := by
  intro c first
  exact .inl (Option.some.inj first).symm

theorem toList_writeIndented_list (level : Nat) (first : JsonValue) (rest : List JsonValue) :
    (writeIndented level (list (first :: rest))).toList =
      '[' :: ((newLine (level + 1)).toList ++
        ((writeIndented (level + 1) first).toList ++
          ((writeItems (level + 1) rest).toList ++ ((newLine level).toList ++ [']'])))) := by
  simp [writeIndented]

theorem toList_writeIndented_record
    (level : Nat)
    (first : String × JsonValue)
    (rest : List (String × JsonValue)) :
    (writeIndented level (record (first :: rest))).toList =
      '\x7b' :: ((newLine (level + 1)).toList ++
        ((writeMember (level + 1) first).toList ++
          ((writeMembers (level + 1) rest).toList ++ ((newLine level).toList ++ ['\x7d'])))) := by
  simp [writeIndented]

theorem toList_writeItems_cons (level : Nat) (item : JsonValue) (rest : List JsonValue) :
    (writeItems level (item :: rest)).toList =
      ',' :: ((newLine level).toList ++
        ((writeIndented level item).toList ++ (writeItems level rest).toList)) := by
  simp [writeItems]

theorem toList_writeMembers_cons
    (level : Nat)
    (entry : String × JsonValue)
    (rest : List (String × JsonValue)) :
    (writeMembers level (entry :: rest)).toList =
      ',' :: ((newLine level).toList ++
        ((writeMember level entry).toList ++ (writeMembers level rest).toList)) := by
  simp [writeMembers]

theorem toList_writeMember (level : Nat) (entry : String × JsonValue) :
    (writeMember level entry).toList =
      (writtenText entry.1).toList ++ ':' :: ' ' :: (writeIndented level entry.2).toList := by
  obtain ⟨key, value⟩ := entry
  simp [writeMember]

/-- Whatever items follow, a value in front of them is ended. -/
theorem endsValue_writeItems (level outer : Nat) (items : List JsonValue) (text : List Char) :
    EndsValue ((writeItems level items).toList ++ ((newLine outer).toList ++ text)) := by
  cases items with
  | nil => exact endsValue_newLine outer text
  | cons item rest =>
      rw [toList_writeItems_cons]
      exact endsValue_comma _

/-- Whatever members follow, a value in front of them is ended. -/
theorem endsValue_writeMembers
    (level outer : Nat)
    (members : List (String × JsonValue))
    (text : List Char) :
    EndsValue ((writeMembers level members).toList ++ ((newLine outer).toList ++ text)) := by
  cases members with
  | nil => exact endsValue_newLine outer text
  | cons entry rest =>
      rw [toList_writeMembers_cons]
      exact endsValue_comma _

/-- What the text of a value that holds no others and is no string may start with. -/
def startsScalar (c : Char) : Bool :=
  c.isDigit || "-ntfNI".toList.contains c

/-- It is no blank and opens or closes nothing. -/
theorem not_bracket_of_startsScalar
    {c : Char}
    (starts : startsScalar c = true) :
    isSpace c = false ∧ c ≠ '"' ∧ c ≠ '[' ∧ c ≠ '\x7b' ∧ c ≠ ']' := by
  have other (d : Char) (none : startsScalar d = false) : c ≠ d := by
    rintro rfl
    rw [starts] at none
    cases none
  have notSpace : c ≠ ' ' ∧ c ≠ '\t' ∧ c ≠ '\n' ∧ c ≠ '\r' :=
    ⟨other ' ' rfl, other '\t' rfl, other '\n' rfl, other '\r' rfl⟩
  refine ⟨?_, other '"' rfl, other '[' rfl, other '\x7b' rfl, other ']' rfl⟩
  simp [isSpace, notSpace]

theorem starts_signed
    {text : List Char}
    (starts : ∃ c rest, c.isDigit = true ∧ text ++ [] = c :: rest)
    (negative : Bool) :
    ∃ c rest, (Decimal.signed negative text).toList = c :: rest ∧ startsScalar c = true := by
  obtain ⟨c, rest, digit, text_eq⟩ := starts
  rw [List.append_nil] at text_eq
  rw [Decimal.signed, String.toList_ofList, text_eq]
  cases negative with
  | false => exact ⟨c, rest, rfl, by simp [startsScalar, digit]⟩
  | true => exact ⟨'-', c :: rest, rfl, rfl⟩

theorem starts_integer (integer : Int) :
    ∃ c rest, (toString integer).toList = c :: rest ∧ startsScalar c = true := by
  rw [toString_integer]
  exact starts_signed ((isWhole_toDigits _).starts []) _

theorem starts_writtenNumber (double : Float) :
    ∃ c rest, (writtenNumber double).toList = c :: rest ∧ startsScalar c = true := by
  rcases writtenNumber_cases double with
    ⟨written, _⟩ | ⟨written, _⟩ | ⟨written, _⟩ | ⟨written, finite⟩
  · exact written ▸ ⟨_, _, rfl, rfl⟩
  · exact written ▸ ⟨_, _, rfl, rfl⟩
  · exact written ▸ ⟨_, _, rfl, rfl⟩
  · obtain ⟨negative, _, _, _, shortest_eq, readsAs, _⟩ := exists_readsAs_shortest finite
    rw [written, shortest_eq]
    exact starts_signed (readsAs.starts []) negative

/-- The text of a value starts with no blank and closes no list. -/
theorem starts_writeIndented
    {value : JsonValue}
    (storable : value.isStorable = true)
    (level : Nat) :
    ∃ c rest, (writeIndented level value).toList = c :: rest ∧ isSpace c = false ∧ c ≠ ']' := by
  have ofScalar
      {text : String}
      (starts : ∃ c rest, text.toList = c :: rest ∧ startsScalar c = true) :
      ∃ c rest, text.toList = c :: rest ∧ isSpace c = false ∧ c ≠ ']' := by
    obtain ⟨c, rest, text_eq, starts⟩ := starts
    obtain ⟨notSpace, _, _, _, notClosing⟩ := not_bracket_of_startsScalar starts
    exact ⟨c, rest, text_eq, notSpace, notClosing⟩
  cases value with
  | null =>
      simp only [writeIndented, writtenScalar]
      exact ⟨'n', _, rfl, rfl, by decide⟩
  | boolean value =>
      simp only [writeIndented, writtenScalar]
      cases value
      · exact ⟨'f', _, rfl, rfl, by decide⟩
      · exact ⟨'t', _, rfl, rfl, by decide⟩
  | integer value =>
      simp only [writeIndented, writtenScalar]
      exact ofScalar (starts_integer value)
  | number value =>
      simp only [writeIndented, writtenScalar]
      exact ofScalar (starts_writtenNumber value)
  | text value =>
      obtain ⟨rest, text_eq, _⟩ := readUnits_writtenText value []
      rw [List.append_nil] at text_eq
      simp only [writeIndented, writtenScalar]
      exact ⟨'"', rest, text_eq, rfl, by decide⟩
  | brokenText points => simp [isStorable] at storable
  | list items =>
      cases items with
      | nil =>
          simp only [writeIndented, writtenScalar]
          exact ⟨'[', _, rfl, rfl, by decide⟩
      | cons first rest => exact ⟨_, _, toList_writeIndented_list level first rest, rfl, by decide⟩
  | record members =>
      cases members with
      | nil =>
          simp only [writeIndented, writtenScalar]
          exact ⟨'\x7b', _, rfl, rfl, by decide⟩
      | cons first rest =>
          exact ⟨_, _, toList_writeIndented_record level first rest, rfl, by decide⟩

/-- What is written starts without blanks. -/
theorem skipSpace_writeIndented
    {value : JsonValue}
    (storable : value.isStorable = true)
    (level : Nat)
    (text : List Char) :
    skipSpace ((writeIndented level value).toList ++ text) =
      (writeIndented level value).toList ++ text := by
  obtain ⟨c, rest, text_eq, notSpace, _⟩ := starts_writeIndented storable level
  rw [text_eq]
  exact skipSpace_cons notSpace _

theorem exists_writeMember (level : Nat) (entry : String × JsonValue) :
    ∃ rest, (writeMember level entry).toList = '"' :: rest := by
  obtain ⟨rest, text_eq, _⟩ := readUnits_writtenText entry.1 []
  rw [List.append_nil] at text_eq
  rw [toList_writeMember, text_eq]
  exact ⟨_, rfl⟩

end Texts

/-! ## Reading -/

section Reading

open Outcome

variable {fuel room level : Nat} {after : List Char}

/-- What starts like a number or a word is read as one. -/
theorem readValue_of_startsScalar
    {text : List Char}
    {value : JsonValue}
    (starts : ∃ c rest, text = c :: rest ∧ startsScalar c = true)
    (reads : readScalar (text ++ after) = .ok (value, after)) :
    readValue (fuel + 1) room (text ++ after) = .ok (value, after) := by
  obtain ⟨c, rest, rfl, starts⟩ := starts
  obtain ⟨_, notQuote, notBracket, notBrace, _⟩ := not_bracket_of_startsScalar starts
  rw [List.cons_append] at reads ⊢
  rw [readValue.eq_def]
  simp [notQuote, notBracket, notBrace, reads]

/-- A written text is read back. -/
theorem readValue_writtenText (text : String) :
    readValue (fuel + 1) room ((writtenText text).toList ++ after) = .ok (.text text, after) := by
  obtain ⟨rest, text_eq, reads⟩ := readUnits_writtenText text after
  rw [text_eq, readValue, reads, ok_bind, ← ofPoints_toNat]
  rfl

/-- Behind an opening bracket a list is read from its first item on. -/
theorem readValue_list
    {c : Char}
    {rest items : List Char}
    (skipped : skipSpace rest = c :: items)
    (notClosing : c ≠ ']') :
    readValue (fuel + 1) (room + 1) ('[' :: rest) = readItems fuel room [] (c :: items) := by
  rw [readValue.eq_def]
  simp [skipped, notClosing]

/-- A record that is not empty is read member by member. -/
theorem readValue_record
    {rest members : List Char}
    (skipped : skipSpace rest = '"' :: members) :
    readValue (fuel + 1) (room + 1) ('\x7b' :: rest) =
      readMembers fuel room [] ('"' :: members) := by
  rw [readValue.eq_def]
  simp [skipped]

/-- What a reader with some fuel reads back: values, and the rest of lists and of records. -/
structure ReadsBack (fuel : Nat) : Prop where
  value :
    ∀ {room level value after},
      Fits room value →
      (writeIndented level value).toList.length ≤ fuel →
      EndsValue after →
        readValue fuel room ((writeIndented level value).toList ++ after) = .ok (value, after)
  items :
    ∀ {room level first rest seen after} (outer : Nat),
      (∀ item ∈ first :: rest, Fits room item) →
      (writeIndented level first).toList.length + (writeItems level rest).toList.length < fuel →
        readItems fuel room seen
            ((writeIndented level first).toList ++
              ((writeItems level rest).toList ++ ((newLine outer).toList ++ ']' :: after))) =
          .ok (.list (seen.reverse ++ first :: rest), after)
  members :
    ∀ {room level first rest seen after} (outer : Nat),
      (∀ entry ∈ first :: rest, Fits room entry.2) →
      ((seen ++ first :: rest).map (·.1)).Nodup →
      (writeMember level first).toList.length + (writeMembers level rest).toList.length < fuel →
        readMembers fuel room seen
            ((writeMember level first).toList ++
              ((writeMembers level rest).toList ++ ((newLine outer).toList ++ '\x7d' :: after))) =
          .ok (.record (seen ++ first :: rest), after)

/-- A list with items is read back if the items behind its opening bracket are. -/
theorem ReadsBack.list_succ
    (readsBack : ReadsBack fuel)
    {first : JsonValue}
    {rest : List JsonValue}
    (fits : ∀ item ∈ first :: rest, Fits room item)
    (enough : (writeIndented level (.list (first :: rest))).toList.length ≤ fuel + 1) :
    readValue (fuel + 1) (room + 1)
        ((writeIndented level (.list (first :: rest))).toList ++ after) =
      .ok (.list (first :: rest), after) := by
  obtain ⟨c, tail, text_eq, notSpace, notClosing⟩ :=
    starts_writeIndented (fits first List.mem_cons_self).storable (level + 1)
  rw [toList_writeIndented_list] at enough ⊢
  simp only [List.length_cons, List.length_append, List.length_nil] at enough
  have read :=
    @ReadsBack.items _ readsBack room (level + 1) first rest [] after level fits (by omega)
  rw [text_eq] at read ⊢
  simp only [List.cons_append, List.append_assoc, List.nil_append] at read ⊢
  rw [readValue_list ((skipSpace_newLine _ _).trans (skipSpace_cons notSpace _)) notClosing]
  exact read

/-- A written record is read back when its members are, with one level more. -/
theorem ReadsBack.record_succ
    (readsBack : ReadsBack fuel)
    {first : String × JsonValue}
    {rest : List (String × JsonValue)}
    (fits : ∀ entry ∈ first :: rest, Fits room entry.2)
    (distinct : ((first :: rest).map (·.1)).Nodup)
    (enough : (writeIndented level (.record (first :: rest))).toList.length ≤ fuel + 1) :
    readValue (fuel + 1) (room + 1)
        ((writeIndented level (.record (first :: rest))).toList ++ after) =
      .ok (.record (first :: rest), after) := by
  obtain ⟨tail, text_eq⟩ := exists_writeMember (level + 1) first
  rw [toList_writeIndented_record] at enough ⊢
  simp only [List.length_cons, List.length_append, List.length_nil] at enough
  have read :=
    @ReadsBack.members _ readsBack room (level + 1) first rest [] after level fits distinct
      (by omega)
  rw [text_eq] at read ⊢
  simp only [List.cons_append, List.append_assoc, List.nil_append] at read ⊢
  rw [readValue_record ((skipSpace_newLine _ _).trans (skipSpace_cons rfl _))]
  exact read

/-- A value is read back if the rest of lists and records are read back with less fuel. -/
theorem ReadsBack.value_succ
    (readsBack : ReadsBack fuel)
    {value : JsonValue}
    (fits : Fits room value)
    (enough : (writeIndented level value).toList.length ≤ fuel + 1)
    (ends : EndsValue after) :
    readValue (fuel + 1) room ((writeIndented level value).toList ++ after) =
      .ok (value, after) := by
  cases value with
  | null =>
      simp only [writeIndented, writtenScalar]
      exact readValue_of_startsScalar ⟨'n', _, rfl, rfl⟩ rfl
  | boolean value =>
      simp only [writeIndented, writtenScalar]
      cases value
      · exact readValue_of_startsScalar ⟨'f', _, rfl, rfl⟩ rfl
      · exact readValue_of_startsScalar ⟨'t', _, rfl, rfl⟩ rfl
  | integer value =>
      have short := fits.storable
      rw [isStorable, decide_eq_true_eq] at short
      simp only [writeIndented, writtenScalar]
      exact readValue_of_startsScalar (starts_integer value) (readScalar_integer short ends)
  | number value =>
      simp only [writeIndented, writtenScalar]
      exact readValue_of_startsScalar (starts_writtenNumber value)
        (readScalar_writtenNumber value ends)
  | text value =>
      simp only [writeIndented, writtenScalar]
      exact readValue_writtenText value
  | brokenText points => simpa [isStorable] using fits.storable
  | list items =>
      obtain ⟨inner, rfl, itemsFit⟩ := fits_list_iff.mp fits
      cases items with
      | nil =>
          simp only [writeIndented, writtenScalar]
          rfl
      | cons first rest => exact readsBack.list_succ itemsFit enough
  | record members =>
      obtain ⟨inner, rfl, distinct, membersFit⟩ := fits_record_iff.mp fits
      cases members with
      | nil =>
          simp only [writeIndented, writtenScalar]
          rfl
      | cons first rest => exact readsBack.record_succ membersFit distinct enough

/-- The rest of a list is read back if its first item and the rest behind it are. -/
theorem ReadsBack.items_succ
    (readsBack : ReadsBack fuel)
    {first : JsonValue}
    {rest seen : List JsonValue}
    (outer : Nat)
    (fits : ∀ item ∈ first :: rest, Fits room item)
    (enough :
      (writeIndented level first).toList.length + (writeItems level rest).toList.length <
        fuel + 1) :
    readItems (fuel + 1) room seen
        ((writeIndented level first).toList ++
          ((writeItems level rest).toList ++ ((newLine outer).toList ++ ']' :: after))) =
      .ok (.list (seen.reverse ++ first :: rest), after) := by
  have firstEnough : (writeIndented level first).toList.length ≤ fuel := by omega
  have read :=
    readsBack.value (fits first List.mem_cons_self) firstEnough
      (endsValue_writeItems level outer rest (']' :: after))
  rw [readItems, read, ok_bind]
  dsimp only
  cases rest with
  | nil =>
      have closed :
          skipSpace ((writeItems level []).toList ++ ((newLine outer).toList ++ ']' :: after)) =
            ']' :: after := by
        rw [writeItems]
        exact (skipSpace_newLine outer _).trans (skipSpace_cons rfl after)
      rw [closed, List.reverse_cons]
      rfl
  | cons second others =>
      rw [toList_writeItems_cons] at enough ⊢
      simp only [List.length_cons, List.length_append] at enough
      have read :=
        @ReadsBack.items _ readsBack room level second others (first :: seen) after outer
          (fun item member => fits item (List.mem_cons_of_mem _ member)) (by omega)
      rw [List.cons_append, skipSpace_cons rfl]
      change readItems fuel room (first :: seen) (skipSpace _) = _
      rw [List.append_assoc, skipSpace_newLine, List.append_assoc,
        skipSpace_writeIndented (fits second (by simp)).storable, read, List.reverse_cons,
        List.append_assoc]
      rfl

/-- The same for the rest of a record, whose keys are all different. -/
theorem ReadsBack.members_succ
    (readsBack : ReadsBack fuel)
    {first : String × JsonValue}
    {rest seen : List (String × JsonValue)}
    (outer : Nat)
    (fits : ∀ entry ∈ first :: rest, Fits room entry.2)
    (distinct : ((seen ++ first :: rest).map (·.1)).Nodup)
    (enough :
      (writeMember level first).toList.length + (writeMembers level rest).toList.length <
        fuel + 1) :
    readMembers (fuel + 1) room seen
        ((writeMember level first).toList ++
          ((writeMembers level rest).toList ++ ((newLine outer).toList ++ '\x7d' :: after))) =
      .ok (.record (seen ++ first :: rest), after) := by
  have firstFits := fits first List.mem_cons_self
  have fresh : first.1 ∉ seen.map (·.1) := by
    rw [List.map_append, List.map_cons, List.nodup_middle, List.nodup_cons, List.mem_append,
      not_or] at distinct
    exact distinct.1.1
  rw [toList_writeMember] at enough ⊢
  simp only [List.length_cons, List.length_append] at enough
  have firstEnough : (writeIndented level first.2).toList.length ≤ fuel := by omega
  have read :=
    readsBack.value firstFits firstEnough
      (endsValue_writeMembers level outer rest ('\x7d' :: after))
  simp only [List.append_assoc, List.cons_append]
  obtain ⟨name, text_eq, named⟩ := readUnits_writtenText first.1 _
  rw [text_eq, readMembers, named, ok_bind]
  dsimp only
  rw [skipSpace_cons rfl]
  change (readValue fuel room (skipSpace ((writeIndented level first.2).toList ++ _)) >>= _) = _
  rw [skipSpace_writeIndented firstFits.storable, read, ok_bind]
  dsimp only
  rw [pointsText_toNat, insertMember_of_not_mem fresh]
  cases rest with
  | nil =>
      have closed :
          skipSpace
              ((writeMembers level []).toList ++ ((newLine outer).toList ++ '\x7d' :: after)) =
            '\x7d' :: after := by
        rw [writeMembers]
        exact (skipSpace_newLine outer _).trans (skipSpace_cons rfl after)
      rw [closed]
      rfl
  | cons second others =>
      rw [toList_writeMembers_cons] at enough ⊢
      simp only [List.length_cons, List.length_append] at enough
      have read :=
        @ReadsBack.members _ readsBack room level second others (seen ++ [first]) after outer
          (fun entry member => fits entry (List.mem_cons_of_mem _ member)) (by simpa using distinct)
          (by omega)
      obtain ⟨tail, starts⟩ := exists_writeMember level second
      rw [List.cons_append, skipSpace_cons rfl]
      change readMembers fuel room (seen ++ [first]) (skipSpace _) = _
      rw [List.append_assoc, skipSpace_newLine, List.append_assoc]
      rw [starts] at read ⊢
      rw [List.cons_append, skipSpace_cons rfl]
      simpa using read

/-- Everything written is read back, whatever stands around it. -/
theorem readsBack (fuel : Nat) : ReadsBack fuel := by
  induction fuel with
  | zero =>
      constructor
      · intro room level value after fits enough _
        obtain ⟨c, rest, text_eq, _⟩ := starts_writeIndented fits.storable level
        rw [text_eq] at enough
        exact absurd enough (Nat.not_succ_le_zero _)
      · intro room level first rest seen after outer _ enough
        exact absurd enough (Nat.not_lt_zero _)
      · intro room level first rest seen after outer _ _ enough
        exact absurd enough (Nat.not_lt_zero _)
  | succ fuel inductionHypothesis =>
      exact {
        value := inductionHypothesis.value_succ
        items := inductionHypothesis.items_succ
        members := inductionHypothesis.members_succ }

/-- A document that was written is read back, if it can be stored and fits the reader. -/
theorem read_writeIndented
    {value : JsonValue}
    {levels : Nat}
    (fits : Fits levels value) :
    read levels (writeIndented 0 value).toList = .ok value := by
  have ends : EndsValue [] := by
    intro c first
    cases first
  generalize text_eq : (writeIndented 0 value).toList = text
  have enough : (writeIndented 0 value).toList.length ≤ 2 * text.length + 2 := by
    rw [text_eq]
    omega
  have reads := (readsBack _).value fits enough ends
  have skipped := skipSpace_writeIndented fits.storable 0 []
  rw [text_eq, List.append_nil] at reads skipped
  rw [read, skipped, reads, ok_bind]
  rfl

end Reading

end JsonValue

end RootFinding
