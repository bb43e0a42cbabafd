import RootFinding.Proofs.Json.Recognition
import RootFinding.Proofs.Json.RoundTrip

/-!
# What is spelled is read

A text that spells a value is read as that value, unless the reader refuses it for too many digits
or for too much nesting; its form is never the reason. So with its converse, a text that is read
spells one value, the one that is read. What follows a number must not continue it, which is all
that a value asks of the rest.
-/

namespace RootFinding

namespace JsonValue

open Grammar Outcome

/-- The outcome is the reading, or a refusal for another reason than the form of the text. -/
def Admits (reading : JsonValue × List Char) :
    Except ReadError (JsonValue × List Char) → Prop
  | .ok other => other = reading
  | .error cause => cause ≠ .malformed

/-- The text continues no number. -/
def EndsNumber (after : List Char) : Prop :=
  ∀ c ∈ after.head?, c.isDigit = false ∧ c ≠ '.' ∧ c ≠ 'e' ∧ c ≠ 'E'

/-- A step that is admitted leaves what follows it to be admitted. -/
theorem Admits.bind
    {first reading : JsonValue × List Char}
    {outcome : Except ReadError (JsonValue × List Char)}
    {next : JsonValue × List Char → Except ReadError (JsonValue × List Char)}
    (admits : Admits first outcome)
    (later : Admits reading (next first)) :
    Admits reading (outcome >>= next) := by
  cases outcome with
  | error cause => exact admits
  | ok other =>
      obtain rfl : other = first := admits
      exact later

section Numbers

variable {after : List Char} {negative : Bool}

theorem endsNumber_nil : EndsNumber [] := by
  rintro c ⟨⟩

/-- Whatever may follow a value in a text ends a number. -/
theorem endsNumber_of_mark
    {mark : Char}
    (isMark : mark ∈ [',', ']', '\x7d', ' ', '\t', '\n', '\r'])
    (rest : List Char) :
    EndsNumber (mark :: rest) := by
  rintro c ⟨⟩
  simp only [List.mem_cons, List.not_mem_nil, or_false] at isMark
  rcases isMark with rfl | rfl | rfl | rfl | rfl | rfl | rfl <;> decide

/-- Blanks and a mark behind them continue no number. -/
theorem endsNumber_behind_blank
    {blank : List Char}
    (isBlank : IsBlank blank)
    (ends : EndsNumber after) :
    EndsNumber (blank ++ after) := by
  cases blank with
  | nil => exact ends
  | cons c rest =>
      have space := isBlank c List.mem_cons_self
      simp only [isSpace, Bool.or_eq_true, decide_eq_true_eq] at space
      exact endsNumber_of_mark (by simp; tauto) (rest ++ after)

theorem EndsNumber.no_digit (ends : EndsNumber after) : ∀ c ∈ after.head?, c.isDigit = false :=
  fun c first => (ends c first).1

theorem EndsNumber.fraction? (ends : EndsNumber after) : fraction? after = none := by
  cases after with
  | nil => rfl
  | cons c rest => simp [JsonValue.fraction?, (ends c rfl).2.1]

theorem EndsNumber.power? (ends : EndsNumber after) : power? after = none := by
  cases after with
  | nil => rfl
  | cons c rest => simp [JsonValue.power?, (ends c rfl).2.2.1, (ends c rfl).2.2.2]

theorem splitSign_digits
    {text : List Char}
    (digits : IsDigits text)
    (rest : List Char) :
    Numeral.splitSign (text ++ rest) = (false, text ++ rest) := by
  cases text with
  | nil => exact absurd rfl digits.nonempty
  | cons c tail =>
      have isDigit := digits.plain c List.mem_cons_self
      rw [List.cons_append, Numeral.splitSign.eq_def]
      split
      · rename_i same
        obtain rfl := (List.cons.inj same).1
        exact absurd isDigit (by decide)
      · rename_i same
        obtain rfl := (List.cons.inj same).1
        exact absurd isDigit (by decide)
      · rfl

/-- A spelled exponent is read with its value, and a missing one is not. -/
theorem power?_of_spellsPower
    {mark : List Char}
    {exponent : Int}
    (spelled : SpellsPower mark exponent)
    (ends : EndsNumber after) :
    (power? (mark ++ after)).getD (0, mark ++ after) = (exponent, after) ∧
      ((power? (mark ++ after)).isNone = true ↔ mark = []) := by
  cases spelled with
  | absent => simp [ends.power?]
  | @unsigned mark text isMark digits =>
      obtain ⟨taken, dropped⟩ := takeWhile_dropWhile_of_run digits.plain ends.no_digit
      simp [power?, splitSign_digits digits, taken, dropped, isMark, digits.nonempty]
  | @positive mark text isMark digits =>
      obtain ⟨taken, dropped⟩ := takeWhile_dropWhile_of_run digits.plain ends.no_digit
      simp [power?, Numeral.splitSign, taken, dropped, isMark, digits.nonempty]
  | @negative mark text isMark digits =>
      obtain ⟨taken, dropped⟩ := takeWhile_dropWhile_of_run digits.plain ends.no_digit
      simp [power?, Numeral.splitSign, taken, dropped, isMark, digits.nonempty]

/-- A number ends where an exponent mark begins. -/
theorem no_digit_of_spellsPower
    {mark : List Char}
    {exponent : Int}
    (spelled : SpellsPower mark exponent)
    (ends : EndsNumber after) :
    ∀ c ∈ (mark ++ after).head?, c.isDigit = false ∧ c ≠ '.' := by
  cases spelled with
  | absent => exact fun c first => ⟨(ends c first).1, (ends c first).2.1⟩
  | unsigned isMark _ | positive isMark _ | negative isMark _ =>
      rintro c ⟨⟩
      rcases isMark with rfl | rfl <;> decide

/-- A spelled fraction is read with its digits, and a missing one is not. -/
theorem fraction?_of_spellsFraction
    {fraction decimals : List Char}
    (spelled : SpellsFraction fraction decimals)
    (ends : ∀ c ∈ after.head?, c.isDigit = false ∧ c ≠ '.') :
    (fraction? (fraction ++ after)).getD ([], fraction ++ after) = (decimals, after) ∧
      (decimals = [] ↔ fraction = []) ∧
      ∀ c ∈ (fraction ++ after).head?, c.isDigit = false := by
  cases spelled with
  | absent =>
      have none : fraction? after = none := by
        cases after with
        | nil => rfl
        | cons c rest => simp [fraction?, (ends c rfl).2]
      simpa [none] using fun c first => (ends c first).1
  | present digits =>
      have read := fraction?_point digits fun c first => (ends c first).1
      refine ⟨by rw [List.cons_append, read]; rfl, by simp [digits.nonempty], ?_⟩
      rintro c ⟨⟩
      rfl

/-- A spelled number is read behind its sign, unless it is an integer of too many digits. -/
theorem admits_readNumber
    {text : List Char}
    {value : JsonValue}
    (spelled : SpellsNumber negative text value)
    (ends : EndsNumber after) :
    Admits (value, after) (readNumber negative (text ++ after)) := by
  cases spelled with
  | integer isWhole =>
      have nonempty : text.isEmpty = false := by simpa using isWhole.digits.nonempty
      unfold readNumber
      simp only [whole_eq_of_isWhole isWhole ends.no_digit, nonempty, List.drop_left,
        ends.fraction?, ends.power?, Option.getD_none, List.isEmpty_nil, Option.isNone_none,
        Bool.and_self, Bool.false_eq_true, ↓reduceIte]
      by_cases long : integerDigitLimit < text.length
      · rw [if_pos long]
        exact (by decide : ReadError.tooManyDigits ≠ .malformed)
      · rw [if_neg long]
        rfl
  | @double whole fraction decimals mark exponent isWhole spelledFraction spelledPower scaled =>
      obtain ⟨power, powered⟩ := power?_of_spellsPower spelledPower ends
      obtain ⟨read, pointed, noDigit⟩ :=
        fraction?_of_spellsFraction spelledFraction (no_digit_of_spellsPower spelledPower ends)
      have double :
          decimals.isEmpty = false ∨ (power? (mark ++ after)).isNone = false := by
        by_cases empty : decimals = []
        · refine .inr (Bool.eq_false_iff.mpr fun missing => scaled ?_)
          rw [pointed.mp empty, powered.mp missing, List.append_nil]
        · exact .inl (by simpa using empty)
      have reads :
          readNumber negative (whole ++ (fraction ++ (mark ++ after))) = _ :=
        readNumber_double isWhole noDigit read power double
      simp only [List.append_assoc]
      rw [reads]
      rfl

end Numbers

section Scalars

variable {after : List Char}

/-- What a spelled number starts with. -/
theorem SpellsNumber.starts
    {negative : Bool}
    {text : List Char}
    {value : JsonValue}
    (spelled : SpellsNumber negative text value) :
    ∃ c rest, c.isDigit = true ∧ text = c :: rest := by
  cases spelled with
  | integer isWhole => simpa using isWhole.starts []
  | double isWhole _ _ _ => exact isWhole.starts _

/-- Every scalar can be told by its first character. -/
theorem SpellsScalar.starts
    {text : List Char}
    {value : JsonValue}
    (spelled : SpellsScalar text value) :
    ∃ c rest, text = c :: rest ∧ startsScalar c = true := by
  cases spelled with
  | null | isTrue | isFalse | undefined | infinite | negativeInfinite => exact ⟨_, _, rfl, rfl⟩
  | number unsigned =>
      obtain ⟨c, rest, digit, rfl⟩ := unsigned.starts
      exact ⟨c, rest, rfl, by simp [startsScalar, digit]⟩
  | negated unsigned => exact ⟨_, _, rfl, rfl⟩

/-- A spelled word or number is read, unless it is an integer of too many digits. -/
theorem admits_readScalar
    {text : List Char}
    {value : JsonValue}
    (spelled : SpellsScalar text value)
    (ends : EndsNumber after) :
    Admits (value, after) (readScalar (text ++ after)) := by
  cases spelled with
  | null | isTrue | isFalse | undefined | infinite | negativeInfinite => rfl
  | number unsigned =>
      have admits := admits_readNumber unsigned ends
      obtain ⟨c, rest, digit, rfl⟩ := unsigned.starts
      rwa [List.cons_append, (readScalar_of_digit digit _).1]
  | negated unsigned =>
      have admits := admits_readNumber unsigned ends
      obtain ⟨c, rest, digit, rfl⟩ := unsigned.starts
      rwa [List.cons_append, List.cons_append, (readScalar_of_digit digit _).2]

/-- A spelled string is read up to its closing quote. -/
theorem readUnits_of_spellsUnits
    {body rest : List Char}
    {units : List Nat}
    (spelled : SpellsUnits body units)
    (seen : List Nat) :
    readUnits seen (body ++ '"' :: rest) = .ok (joinedPairs (seen.reverse ++ units), rest) := by
  induction spelled generalizing seen with
  | nil => rw [List.append_nil]; rfl
  | cons first later inductionHypothesis =>
      rw [List.append_assoc]
      cases first with
      | plain printable notQuote notBackslash =>
          rw [List.singleton_append, readUnits_plain seen _ (Nat.not_lt.mpr printable) (by tauto),
            inductionHypothesis]
          simp
      | escaped known =>
          rw [List.cons_append, List.cons_append, List.nil_append, readUnits_escape seen _ known,
            inductionHypothesis]
          simp
      | coded known =>
          simp only [List.cons_append, List.nil_append, readUnits, known]
          rw [inductionHypothesis]
          simp

end Scalars

/-! ## Lists and records -/

/-- The text begins with a character that is no blank and closes no list. -/
def StartsValue (text : List Char) : Prop :=
  ∃ c rest, text = c :: rest ∧ isSpace c = false ∧ c ≠ ']'

section Starts

variable {text after blank : List Char}

/-- Blanks in front are skipped. -/
theorem skipSpace_behind_blank
    (isBlank : IsBlank blank)
    (text : List Char) :
    skipSpace (blank ++ text) = skipSpace text := by
  rw [skipSpace, List.dropWhile_append_of_pos isBlank, skipSpace]

/-- A value starts without blanks. -/
theorem StartsValue.skipSpace (starts : StartsValue text) :
    skipSpace (text ++ after) = text ++ after := by
  obtain ⟨c, rest, rfl, notSpace, _⟩ := starts
  exact skipSpace_cons notSpace (rest ++ after)

theorem Spells.starts
    {value : JsonValue}
    (spelled : Spells text value) :
    StartsValue text := by
  cases spelled with
  | scalar scalar =>
      obtain ⟨c, rest, rfl, starts⟩ := scalar.starts
      obtain ⟨notSpace, _, _, _, notClosing⟩ := not_bracket_of_startsScalar starts
      exact ⟨c, rest, rfl, notSpace, notClosing⟩
  | text _ | emptyList _ | list _ _ | emptyRecord _ | record _ _ =>
      exact ⟨_, _, rfl, rfl, by decide⟩

theorem SpellsItems.starts
    {items : List JsonValue}
    (spelled : SpellsItems text items) :
    StartsValue text := by
  cases spelled with
  | last first _ | more first _ _ _ =>
      obtain ⟨c, rest, rfl, solid⟩ := first.starts
      exact ⟨c, _, rfl, solid⟩

theorem SpellsMember.starts
    {member : String × JsonValue}
    (spelled : SpellsMember text member) :
    ∃ rest, text = '"' :: rest := by
  cases spelled with
  | entry _ _ _ _ => exact ⟨_, rfl⟩

theorem SpellsMembers.starts
    {members : List (String × JsonValue)}
    (spelled : SpellsMembers text members) :
    ∃ rest, text = '"' :: rest := by
  cases spelled with
  | last first _ | more first _ _ _ =>
      obtain ⟨rest, rfl⟩ := first.starts
      exact ⟨_, rfl⟩

end Starts

/-- What a reader with some fuel admits: values, and the rest of lists and of records. -/
structure AdmitsAll (fuel : Nat) : Prop where
  value :
    ∀ {room text value after},
      Spells text value →
      text.length ≤ fuel →
      EndsNumber after →
        Admits (value, after) (readValue fuel room (text ++ after))
  items :
    ∀ {room seen text items after},
      SpellsItems text items →
      text.length < fuel →
        Admits (.list (seen.reverse ++ items), after)
          (readItems fuel room seen (text ++ ']' :: after))
  members :
    ∀ {room seen text members after},
      SpellsMembers text members →
      text.length < fuel →
        Admits (.record (laidOver seen members), after)
          (readMembers fuel room seen (text ++ '\x7d' :: after))

section Steps

variable {fuel room : Nat} {after : List Char}

/-- A value that starts as a scalar is read as one. -/
theorem readValue_scalar
    {text : List Char}
    (starts : ∃ c rest, text = c :: rest ∧ startsScalar c = true) :
    readValue (fuel + 1) room (text ++ after) = readScalar (text ++ after) := by
  obtain ⟨c, rest, rfl, starts⟩ := starts
  obtain ⟨_, notQuote, notBracket, notBrace, _⟩ := not_bracket_of_startsScalar starts
  rw [List.cons_append, readValue.eq_def]
  simp [notQuote, notBracket, notBrace]

/-- A list with items is admitted if the items behind its opening bracket are. -/
theorem AdmitsAll.list_succ
    (admitsAll : AdmitsAll fuel)
    {blank body : List Char}
    {items : List JsonValue}
    (isBlank : IsBlank blank)
    (spelled : SpellsItems body items)
    (enough : body.length < fuel) :
    Admits (.list items, after)
      (readValue (fuel + 1) (room + 1) ('[' :: (blank ++ (body ++ ']' :: after)))) := by
  have admits : Admits (.list items, after) (readItems fuel room [] (body ++ ']' :: after)) :=
    admitsAll.items spelled enough
  obtain ⟨c, rest, rfl, notSpace, notClosing⟩ := spelled.starts
  have skipped :
      skipSpace (blank ++ (c :: rest ++ ']' :: after)) = c :: (rest ++ ']' :: after) := by
    rw [skipSpace_behind_blank isBlank]
    exact skipSpace_cons notSpace _
  rwa [readValue_list skipped notClosing]

/-- A spelled record is admitted when its members are, with one level more. -/
theorem AdmitsAll.record_succ
    (admitsAll : AdmitsAll fuel)
    {blank body : List Char}
    {members : List (String × JsonValue)}
    (isBlank : IsBlank blank)
    (spelled : SpellsMembers body members)
    (enough : body.length < fuel) :
    Admits (.record (laidOver [] members), after)
      (readValue (fuel + 1) (room + 1) ('\x7b' :: (blank ++ (body ++ '\x7d' :: after)))) := by
  have admits :
      Admits (.record (laidOver [] members), after)
        (readMembers fuel room [] (body ++ '\x7d' :: after)) :=
    admitsAll.members spelled enough
  obtain ⟨rest, rfl⟩ := spelled.starts
  have skipped :
      skipSpace (blank ++ ('"' :: rest ++ '\x7d' :: after)) = '"' :: (rest ++ '\x7d' :: after) := by
    rw [skipSpace_behind_blank isBlank]
    exact skipSpace_cons rfl _
  rwa [readValue_record skipped]

/-- A value is admitted if the rest of lists and of records is with less fuel. -/
theorem AdmitsAll.value_succ
    (admitsAll : AdmitsAll fuel)
    {text : List Char}
    {value : JsonValue}
    (spelled : Spells text value)
    (enough : text.length ≤ fuel + 1)
    (ends : EndsNumber after) :
    Admits (value, after) (readValue (fuel + 1) room (text ++ after)) := by
  cases spelled with
  | scalar scalar =>
      rw [readValue_scalar scalar.starts]
      exact admits_readScalar scalar ends
  | text units =>
      simp only [List.cons_append, List.append_assoc, List.nil_append, readValue,
        readUnits_of_spellsUnits units []]
      rfl
  | emptyList isBlank | emptyRecord isBlank =>
      cases room with
      | zero => exact (by decide : ReadError.tooDeep ≠ .malformed)
      | succ inner =>
          simp only [List.cons_append, List.append_assoc, List.nil_append, readValue,
            skipSpace_behind_blank isBlank]
          rfl
  | list isBlank items =>
      cases room with
      | zero => exact (by decide : ReadError.tooDeep ≠ .malformed)
      | succ inner => simpa using admitsAll.list_succ isBlank items (by simp at enough; omega)
  | record isBlank members =>
      cases room with
      | zero => exact (by decide : ReadError.tooDeep ≠ .malformed)
      | succ inner => simpa using admitsAll.record_succ isBlank members (by simp at enough; omega)

/-- The rest of a list is admitted if its first item and the rest behind it are. -/
theorem AdmitsAll.items_succ
    (admitsAll : AdmitsAll fuel)
    {seen items : List JsonValue}
    {text : List Char}
    (spelled : SpellsItems text items)
    (enough : text.length < fuel + 1) :
    Admits (.list (seen.reverse ++ items), after)
      (readItems (fuel + 1) room seen (text ++ ']' :: after)) := by
  cases spelled with
  | @last text behind item spelled isBlank =>
      have ends : EndsNumber (behind ++ ']' :: after) :=
        endsNumber_behind_blank isBlank (endsNumber_of_mark (by decide) after)
      rw [readItems, List.append_assoc]
      refine (admitsAll.value spelled (by simp at enough; omega) ends).bind ?_
      dsimp only
      rw [skipSpace_behind_blank isBlank, skipSpace_cons rfl]
      simp [Admits, pure, Except.pure]
  | @more text behind between rest item items spelled isBlank isBlankBetween later =>
      have ends :
          EndsNumber (behind ++ ',' :: (between ++ (rest ++ ']' :: after))) :=
        endsNumber_behind_blank isBlank (endsNumber_of_mark (by decide) _)
      have admits :
          Admits (.list ((item :: seen).reverse ++ items), after)
            (readItems fuel room (item :: seen) (rest ++ ']' :: after)) :=
        admitsAll.items later (by simp at enough; omega)
      simp only [List.append_assoc, List.cons_append]
      rw [readItems]
      refine (admitsAll.value spelled (by simp at enough; omega) ends).bind ?_
      dsimp only
      rw [skipSpace_behind_blank isBlank, skipSpace_cons rfl]
      change Admits _ (readItems fuel room (item :: seen) (skipSpace (between ++ (rest ++ _))))
      rw [skipSpace_behind_blank isBlankBetween, later.starts.skipSpace]
      simpa using admits

/-- A first member is admitted if its value is, and what follows it is admitted then. -/
theorem AdmitsAll.member
    (admitsAll : AdmitsAll fuel)
    {seen : List (String × JsonValue)}
    {member : String × JsonValue}
    {reading : JsonValue × List Char}
    {text behind : List Char}
    (spelled : SpellsMember text member)
    (enough : text.length ≤ fuel + 1)
    (ends : EndsNumber behind)
    (later :
      Admits reading
        (match skipSpace behind with
        | ',' :: next =>
            readMembers fuel room (insertMember member.1 member.2 seen) (skipSpace next)
        | '\x7d' :: next => .ok (.record (insertMember member.1 member.2 seen), next)
        | _ => .error .malformed)) :
    Admits reading (readMembers (fuel + 1) room seen (text ++ behind)) := by
  cases spelled with
  | @entry body beforeColon between text units value key isBlank isBlankBetween spelled =>
      have read :
          readUnits [] (body ++ '"' :: (beforeColon ++ ':' :: (between ++ (text ++ behind)))) =
            .ok (joinedPairs units, beforeColon ++ ':' :: (between ++ (text ++ behind))) :=
        readUnits_of_spellsUnits key []
      simp only [List.append_assoc, List.cons_append]
      rw [readMembers.eq_def]
      simp only [read, ok_bind, skipSpace_behind_blank isBlank]
      change Admits _ (readValue fuel room (skipSpace (between ++ (text ++ behind))) >>= _)
      rw [skipSpace_behind_blank isBlankBetween, spelled.starts.skipSpace]
      exact (admitsAll.value spelled (by simp at enough; omega) ends).bind later

/-- The rest of a record is admitted if its first member and the rest behind it are. -/
theorem AdmitsAll.members_succ
    (admitsAll : AdmitsAll fuel)
    {seen members : List (String × JsonValue)}
    {text : List Char}
    (spelled : SpellsMembers text members)
    (enough : text.length < fuel + 1) :
    Admits (.record (laidOver seen members), after)
      (readMembers (fuel + 1) room seen (text ++ '\x7d' :: after)) := by
  cases spelled with
  | @last text behind member spelled isBlank =>
      rw [List.append_assoc]
      refine admitsAll.member spelled (by simp at enough; omega)
        (endsNumber_behind_blank isBlank (endsNumber_of_mark (by decide) after)) ?_
      rw [skipSpace_behind_blank isBlank, skipSpace_cons rfl]
      rfl
  | @more text behind between rest member members spelled isBlank isBlankBetween later =>
      simp only [List.append_assoc, List.cons_append]
      refine admitsAll.member spelled (by simp at enough; omega)
        (endsNumber_behind_blank isBlank (endsNumber_of_mark (by decide) _)) ?_
      rw [skipSpace_behind_blank isBlank, skipSpace_cons rfl]
      obtain ⟨tail, rfl⟩ := later.starts
      change Admits _ (readMembers fuel room _ (skipSpace (between ++ ('"' :: (tail ++ _)))))
      rw [skipSpace_behind_blank isBlankBetween, skipSpace_cons rfl]
      exact admitsAll.members later (by simp at enough ⊢; omega)

end Steps

/-- Whatever is spelled is read as it is spelled, or refused for its digits or its depth. -/
theorem admitsAll (fuel : Nat) : AdmitsAll fuel := by
  induction fuel with
  | zero =>
      constructor
      · intro _ _ _ _ spelled empty
        obtain ⟨c, rest, rfl, _⟩ := spelled.starts
        cases empty
      · exact fun _ short => (Nat.not_lt_zero _ short).elim
      · exact fun _ short => (Nat.not_lt_zero _ short).elim
  | succ fuel inductionHypothesis =>
      exact ⟨inductionHypothesis.value_succ, inductionHypothesis.items_succ,
        inductionHypothesis.members_succ⟩

/-- A document is read as what it spells, unless it is refused for another reason than its form. -/
theorem read_of_spellsDocument
    {text : List Char}
    {value : JsonValue}
    (spelled : SpellsDocument text value)
    (levels : Nat) :
    read levels text = .ok value ∨
      ∃ cause, cause ≠ .malformed ∧ read levels text = .error cause := by
  cases spelled with
  | @padded before text behind value isBlank spelled isBlankBehind =>
      have ends : EndsNumber behind := by
        simpa using endsNumber_behind_blank isBlankBehind endsNumber_nil
      have skipped : skipSpace behind = [] := by
        rw [← List.append_nil behind]
        exact skipSpace_behind_blank isBlankBehind []
      have admits :
          Admits (value, behind)
            (readValue (2 * (before ++ (text ++ behind)).length + 2) levels (text ++ behind)) :=
        (admitsAll _).value spelled (by simp; omega) ends
      unfold JsonValue.read
      rw [skipSpace_behind_blank isBlank, spelled.starts.skipSpace]
      cases reading :
          readValue (2 * (before ++ (text ++ behind)).length + 2) levels (text ++ behind) with
      | error cause =>
          rw [reading] at admits
          exact .inr ⟨cause, admits, rfl⟩
      | ok other =>
          rw [reading] at admits
          obtain rfl : other = (value, behind) := admits
          rw [ok_bind]
          simp only [skipped, List.isEmpty_nil, ↓reduceIte]
          exact .inl rfl

/-- A document that is read spells the value that is read, and no other. -/
theorem eq_of_read
    {levels : Nat}
    {text : List Char}
    {value other : JsonValue}
    (reads : read levels text = .ok value)
    (spelled : SpellsDocument text other) :
    value = other := by
  rcases read_of_spellsDocument spelled levels with same | ⟨cause, _, refused⟩
  · exact Except.ok.inj (reads.symm.trans same)
  · cases reads.symm.trans refused

/-- A document whose form is not accepted spells nothing. -/
theorem not_spellsDocument_of_malformed
    {levels : Nat}
    {text : List Char}
    (refused : read levels text = .error .malformed)
    (value : JsonValue) :
    ¬SpellsDocument text value := by
  intro spelled
  rcases read_of_spellsDocument spelled levels with reads | ⟨cause, formed, other⟩
  · cases refused.symm.trans reads
  · exact formed (Except.error.inj (other.symm.trans refused))

end JsonValue

end RootFinding
