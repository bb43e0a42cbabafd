import RootFinding.Proofs.Json.Derivation
import RootFinding.Proofs.Outcome

/-!
# What is read is what is spelled

Every value that is read is spelled by the text in front of the rest. A text that is refused for
more than its form has a run of too many digits, or more opening brackets than there is room for.
Both come from one induction on the steps that are left to the reader, with a statement for values,
for the items of a list and for the members of a record.
-/

namespace RootFinding

namespace JsonValue

open Grammar Outcome

/-- A character that opens a list or a record. -/
def isOpening (c : Char) : Bool :=
  c = '[' || c = '\x7b'

/-- More digits in a row than an integer may have. -/
def HasLongRun (text : List Char) : Prop :=
  ∃ run, run <:+: text ∧ IsDigits run ∧ integerDigitLimit < run.length

/-- What a refusal says of a text that was read with some room for lists and records. -/
def Refused (room : Nat) (text : List Char) : ReadError → Prop
  | .malformed => True
  | .tooManyDigits => HasLongRun text
  | .tooDeep => room < text.countP isOpening

/-- A reading accounts for its text: it spells what was read in front of the rest, or is refused. -/
def Explains
    (room : Nat)
    (text : List Char)
    (spells : List Char → JsonValue → Prop) :
    Except ReadError (JsonValue × List Char) → Prop
  | .ok (value, rest) => ∃ taken, text = taken ++ rest ∧ spells taken value
  | .error cause => Refused room text cause

section Refusals

variable {room : Nat} {text rest : List Char} {cause : ReadError}

/-- A refusal stays when something is put in front of the text. -/
theorem Refused.of_suffix
    (refused : Refused room rest cause)
    (suffix : rest <:+ text) :
    Refused room text cause := by
  cases cause with
  | malformed => trivial
  | tooManyDigits =>
      obtain ⟨run, inside, digits, long⟩ := refused
      exact ⟨run, inside.trans suffix.isInfix, digits, long⟩
  | tooDeep => exact Nat.lt_of_lt_of_le refused suffix.sublist.countP_le

/-- One more opening bracket makes up for one more level. -/
theorem Refused.opening
    {c : Char}
    (refused : Refused room rest cause)
    (opens : isOpening c = true) :
    Refused (room + 1) (c :: rest) cause := by
  cases cause with
  | malformed => trivial
  | tooManyDigits =>
      obtain ⟨run, inside, digits, long⟩ := refused
      exact ⟨run, inside.trans (List.suffix_cons c rest).isInfix, digits, long⟩
  | tooDeep =>
      change room + 1 < (c :: rest).countP isOpening
      rw [List.countP_cons_of_pos opens]
      exact Nat.succ_lt_succ refused

/-- What accounts for a text also does so behind another. -/
theorem Explains.behind
    {spells spells' : List Char → JsonValue → Prop}
    {reading : Except ReadError (JsonValue × List Char)}
    (explained : Explains room text spells reading)
    (front : List Char)
    (spelled : ∀ taken value, spells taken value → spells' (front ++ taken) value) :
    Explains room (front ++ text) spells' reading := by
  cases reading with
  | error cause => exact Refused.of_suffix explained (List.suffix_append front text)
  | ok result =>
      obtain ⟨taken, rfl, spellsTaken⟩ := explained
      exact ⟨front ++ taken, (List.append_assoc ..).symm, spelled taken _ spellsTaken⟩

end Refusals

/-! ## Blanks and strings -/

/-- What is skipped is blank. -/
theorem exists_blank (text : List Char) :
    ∃ blank, IsBlank blank ∧ text = blank ++ skipSpace text :=
  ⟨text.takeWhile isSpace, fun _ member => List.mem_takeWhile_imp member,
    List.takeWhile_append_dropWhile.symm⟩

theorem skipSpace_suffix (text : List Char) : skipSpace text <:+ text :=
  List.dropWhile_suffix _

/-- The blanks on both sides of a mark. -/
theorem exists_blanks
    {mark : Char}
    {text next : List Char}
    (skipped : skipSpace text = mark :: next) :
    ∃ behind between,
      IsBlank behind ∧ IsBlank between ∧ text = behind ++ mark :: (between ++ skipSpace next) := by
  obtain ⟨behind, isBlank, text_eq⟩ := exists_blank text
  obtain ⟨between, isBlankBetween, next_eq⟩ := exists_blank next
  exact ⟨behind, between, isBlank, isBlankBetween, by rw [← next_eq, ← skipped, ← text_eq]⟩

/-- A string is spelled up to its closing quote, or has a form that is not accepted. -/
theorem readUnits_cases (seen : List Nat) (text : List Char) :
    (∃ body units rest,
        text = body ++ '"' :: rest ∧
          SpellsUnits body units ∧
          readUnits seen text = .ok (joinedPairs (seen.reverse ++ units), rest)) ∨
      readUnits seen text = .error .malformed := by
  fun_induction readUnits seen text with
  | case1 seen rest => exact .inl ⟨[], [], rest, rfl, .nil, by rw [List.append_nil]⟩
  | case2 seen a b c d text unit known inductionHypothesis =>
      refine inductionHypothesis.imp_left ?_
      rintro ⟨body, units, rest, rfl, spelled, read⟩
      exact ⟨['\\', 'u', a, b, c, d] ++ body, unit :: units, rest, rfl,
        .cons (.coded known) spelled, by simpa using read⟩
  | case4 seen letter text notUnit character known inductionHypothesis =>
      refine inductionHypothesis.imp_left ?_
      rintro ⟨body, units, rest, rfl, spelled, read⟩
      exact ⟨['\\', letter] ++ body, character.toNat :: units, rest, rfl,
        .cons (.escaped known) spelled, by simpa using read⟩
  | case7 seen c text notQuote _ _ plain inductionHypothesis =>
      simp only [Bool.or_eq_true, decide_eq_true_eq, not_or, Nat.not_lt] at plain
      refine inductionHypothesis.imp_left ?_
      rintro ⟨body, units, rest, rfl, spelled, read⟩
      exact ⟨[c] ++ body, c.toNat :: units, rest, rfl,
        .cons (.plain plain.1 notQuote plain.2) spelled, by simpa using read⟩
  | case3 | case5 | case6 | case8 => exact .inr rfl

/-- A text that is read between quotes is spelled there. -/
theorem explains_text (room : Nat) (rest : List Char) :
    Explains room ('"' :: rest) Spells
      (readUnits [] rest >>= fun (points, after) => .ok (ofPoints points, after)) := by
  rcases readUnits_cases [] rest with ⟨body, units, after, rfl, spelled, read⟩ | read
  · rw [read]
    exact ⟨'"' :: (body ++ ['"']), by simp, .text spelled⟩
  · rw [read]
    trivial

/-! ## Numbers -/

theorem isDigits_takeWhile
    {text : List Char}
    (nonempty : text.takeWhile Char.isDigit ≠ []) :
    IsDigits (text.takeWhile Char.isDigit) where
  nonempty := nonempty
  plain _ member := List.mem_takeWhile_imp member

/-- What is read as a fraction is spelled in front of the rest, if anything is. -/
theorem exists_fraction (text : List Char) :
    ∃ fraction decimals rest,
      (fraction? text).getD ([], text) = (decimals, rest) ∧
        SpellsFraction fraction decimals ∧
        text = fraction ++ rest ∧
        (decimals ≠ [] → fraction ≠ []) := by
  cases read : fraction? text with
  | none => exact ⟨[], [], text, rfl, .absent, rfl, absurd rfl⟩
  | some reading =>
      obtain ⟨decimals, rest⟩ := reading
      unfold fraction? at read
      split at read
      · rename_i behind
        simp only [List.isEmpty_iff, Option.ite_none_left_eq_some, Option.some.injEq,
          Prod.mk.injEq] at read
        obtain ⟨nonempty, rfl, rfl⟩ := read
        exact ⟨_, _, _, rfl, .present (isDigits_takeWhile nonempty),
          by rw [List.cons_append, List.takeWhile_append_dropWhile],
          fun _ => List.cons_ne_nil _ _⟩
      · cases read

theorem splitSign_cases (text : List Char) :
    (∃ rest, text = '-' :: rest ∧ Numeral.splitSign text = (true, rest)) ∨
      (∃ rest, text = '+' :: rest ∧ Numeral.splitSign text = (false, rest)) ∨
        Numeral.splitSign text = (false, text) := by
  unfold Numeral.splitSign
  split
  · exact .inl ⟨_, rfl, rfl⟩
  · exact .inr (.inl ⟨_, rfl, rfl⟩)
  · exact .inr (.inr rfl)

/-- An exponent that is read is spelled in front of the rest. -/
theorem spellsPower_of_power?
    {text rest : List Char}
    {exponent : Int}
    (read : power? text = some (exponent, rest)) :
    ∃ mark, mark ≠ [] ∧ SpellsPower mark exponent ∧ text = mark ++ rest := by
  cases text with
  | nil => simp [power?] at read
  | cons letter behind =>
      simp only [power?, Option.ite_none_right_eq_some, Bool.and_eq_true, Bool.or_eq_true,
        decide_eq_true_eq, Bool.not_eq_true', List.isEmpty_eq_false_iff, Option.some.injEq,
        Prod.mk.injEq] at read
      obtain ⟨⟨isMark, nonempty⟩, rfl, rfl⟩ := read
      rcases splitSign_cases behind with
        ⟨unsigned, rfl, split⟩ | ⟨unsigned, rfl, split⟩ | split <;>
        rw [split] at nonempty ⊢
      · exact ⟨_, List.cons_ne_nil _ _, .negative isMark (isDigits_takeWhile nonempty), by simp⟩
      · exact ⟨_, List.cons_ne_nil _ _, .positive isMark (isDigits_takeWhile nonempty), by simp⟩
      · exact ⟨_, List.cons_ne_nil _ _, .unsigned isMark (isDigits_takeWhile nonempty), by simp⟩

/-- What is read as an exponent is spelled in front of the rest, if anything is. -/
theorem exists_power (text : List Char) :
    ∃ mark exponent rest,
      (power? text).getD (0, text) = (exponent, rest) ∧
        SpellsPower mark exponent ∧
        text = mark ++ rest ∧
        ((power? text).isNone = false → mark ≠ []) := by
  cases read : power? text with
  | none => exact ⟨[], 0, text, rfl, .absent, rfl, by simp⟩
  | some reading =>
      obtain ⟨exponent, rest⟩ := reading
      obtain ⟨mark, nonempty, spelled, text_eq⟩ := spellsPower_of_power? read
      exact ⟨mark, exponent, rest, rfl, spelled, text_eq, fun _ => nonempty⟩

/-- The whole part that a number is read with is what the text begins with. -/
theorem isWhole_prefix
    (text whole : List Char)
    (whole_eq :
      whole =
        if (text.takeWhile Char.isDigit).head? = some '0' then ['0']
        else text.takeWhile Char.isDigit)
    (nonempty : whole ≠ []) :
    IsWhole whole ∧ whole <+: text := by
  split at whole_eq <;> subst whole_eq
  · rename_i zero
    obtain ⟨tail, run_eq⟩ := List.head?_eq_some_iff.mp zero
    have begins : ['0'] <+: text.takeWhile Char.isDigit := ⟨tail, run_eq.symm⟩
    exact ⟨isWhole_zero, begins.trans (List.takeWhile_prefix _)⟩
  · rename_i significant
    exact ⟨isWhole_of_significant (isDigits_takeWhile nonempty) significant,
      List.takeWhile_prefix _⟩

/-- A number behind its sign is spelled in front of the rest, or has too many digits. -/
theorem explains_readNumber
    (room : Nat)
    (negative : Bool)
    (text : List Char) :
    Explains room text (SpellsNumber negative) (readNumber negative text) := by
  unfold readNumber
  extract_lets run whole afterWhole
  split
  · trivial
  · rename_i nonempty
    obtain ⟨isWhole, begins⟩ :=
      isWhole_prefix text whole rfl (by simpa using nonempty)
    have text_eq : text = whole ++ afterWhole := (List.prefix_iff_eq_append.mp begins).symm
    clear_value whole afterWhole
    obtain ⟨fraction, decimals, afterDecimals, read, spelledFraction, rfl, hasPoint⟩ :=
      exists_fraction afterWhole
    obtain ⟨mark, exponent, rest, readPower, spelledPower, rfl, hasMark⟩ :=
      exists_power afterDecimals
    simp only [read, readPower]
    split
    · rename_i unscaled
      split
      · rename_i long
        exact ⟨whole, begins.isInfix, isWhole.digits, long⟩
      · exact ⟨whole, text_eq, .integer isWhole⟩
    · rename_i scaled
      have marked : fraction ++ mark ≠ [] := by
        rw [Bool.and_eq_true, not_and_or, List.isEmpty_iff, Bool.not_eq_true] at scaled
        exact scaled.elim (fun pointed => List.append_ne_nil_of_left_ne_nil (hasPoint pointed) mark)
          fun powered => List.append_ne_nil_of_right_ne_nil fraction (hasMark powered)
      exact ⟨whole ++ (fraction ++ mark), by simpa using text_eq,
        .double isWhole spelledFraction spelledPower marked⟩

/-- A word that is found stands in front of the rest. -/
theorem eq_append_of_afterWord?
    {word text rest : List Char}
    (found : afterWord? word text = some rest) :
    text = word ++ rest := by
  unfold afterWord? at found
  split at found
  · rename_i begins
    cases found
    exact (List.prefix_iff_eq_append.mp (List.isPrefixOf_iff_prefix.mp begins)).symm
  · cases found

/-- A word or a number is spelled in front of the rest, or has too many digits. -/
theorem explains_readScalar (room : Nat) (text : List Char) :
    Explains room text SpellsScalar (readScalar text) := by
  unfold readScalar
  extract_lets words found
  cases read : found with
  | some reading =>
      obtain ⟨⟨word, value⟩, member, known⟩ := List.exists_of_findSome?_eq_some read
      obtain ⟨rest, behind, rfl⟩ := Option.map_eq_some_iff.mp known
      refine ⟨word.toList, eq_append_of_afterWord? behind, ?_⟩
      simp only [words, List.mem_cons, Prod.mk.injEq, List.not_mem_nil, or_false] at member
      rcases member with ⟨rfl, rfl⟩ | ⟨rfl, rfl⟩ | ⟨rfl, rfl⟩ | ⟨rfl, rfl⟩ | ⟨rfl, rfl⟩ | ⟨rfl, rfl⟩
      · exact .null
      · exact .isTrue
      · exact .isFalse
      · exact .undefined
      · exact .infinite
      · exact .negativeInfinite
  | none =>
      split
      · contradiction
      · rename_i rest _
        exact (explains_readNumber room true rest).behind ['-'] fun _ _ => .negated
      · exact (explains_readNumber room false _).behind [] fun _ _ => .number

/-! ## Lists and records -/

/-- The rest of a list with its bracket, behind items that were seen, last first. -/
def SpellsListRest (seen : List JsonValue) (text : List Char) (value : JsonValue) : Prop :=
  ∃ body items,
    text = body ++ [']'] ∧ SpellsItems body items ∧ value = .list (seen.reverse ++ items)

/-- The rest of a record with its bracket, behind members that were seen. -/
def SpellsRecordRest
    (seen : List (String × JsonValue))
    (text : List Char)
    (value : JsonValue) :
    Prop :=
  ∃ body members,
    text = body ++ ['\x7d'] ∧ SpellsMembers body members ∧ value = .record (laidOver seen members)

/-- What a reader with some fuel accounts for: values, and the rest of lists and of records. -/
structure ExplainsAll (fuel : Nat) : Prop where
  value :
    ∀ room text, Explains room text Spells (readValue fuel room text)
  items :
    ∀ room seen text, Explains room text (SpellsListRest seen) (readItems fuel room seen text)
  members :
    ∀ room seen text, Explains room text (SpellsRecordRest seen) (readMembers fuel room seen text)

section Steps

variable {fuel : Nat}

/-- What accounts for the inside of a list or a record accounts for it with its brackets. -/
theorem Explains.opened
    {room : Nat}
    {c : Char}
    {rest : List Char}
    {inner outer : List Char → JsonValue → Prop}
    {reading : Except ReadError (JsonValue × List Char)}
    (explained : Explains room (skipSpace rest) inner reading)
    (opens : isOpening c = true)
    (spelled :
      ∀ {blank taken value},
        IsBlank blank → inner taken value → outer (c :: (blank ++ taken)) value) :
    Explains (room + 1) (c :: rest) outer reading := by
  cases reading with
  | error cause => exact (Refused.of_suffix explained (skipSpace_suffix rest)).opening opens
  | ok result =>
      obtain ⟨blank, isBlank, rest_eq⟩ := exists_blank rest
      obtain ⟨taken, skipped, spellsTaken⟩ := explained
      refine ⟨c :: (blank ++ taken), ?_, spelled isBlank spellsTaken⟩
      rw [rest_eq, skipped]
      simp

/-- Brackets with nothing but blanks between them account for themselves. -/
theorem explains_empty
    {room : Nat}
    {opening closing : Char}
    {rest after : List Char}
    {value : JsonValue}
    {spells : List Char → JsonValue → Prop}
    (skipped : skipSpace rest = closing :: after)
    (spelled :
      ∀ {blank}, IsBlank blank → spells (opening :: (blank ++ [closing])) value) :
    Explains room (opening :: rest) spells (.ok (value, after)) := by
  obtain ⟨blank, isBlank, rest_eq⟩ := exists_blank rest
  refine ⟨opening :: (blank ++ [closing]), ?_, spelled isBlank⟩
  rw [rest_eq, skipped]
  simp

/-- A value is accounted for if the rest of lists and of records is with less fuel. -/
theorem ExplainsAll.value_succ
    (explainsAll : ExplainsAll fuel)
    (room : Nat)
    (text : List Char) :
    Explains room text Spells (readValue (fuel + 1) room text) := by
  rw [readValue.eq_def]
  dsimp only
  split
  · exact explains_text room _
  · simp [Explains, Refused, isOpening]
  · simp [Explains, Refused, isOpening]
  · rename_i rest inner
    split
    · rename_i after skipped
      exact explains_empty skipped .emptyList
    · refine (explainsAll.items inner [] (skipSpace rest)).opened rfl ?_
      rintro blank _ _ isBlank ⟨body, items, rfl, spelled, rfl⟩
      exact .list isBlank spelled
  · rename_i rest inner
    split
    · rename_i after skipped
      exact explains_empty skipped .emptyRecord
    · refine (explainsAll.members inner [] (skipSpace rest)).opened rfl ?_
      rintro blank _ _ isBlank ⟨body, members, rfl, spelled, rfl⟩
      exact .record isBlank spelled
  · exact (explains_readScalar room text).behind [] fun _ _ => .scalar

/-- The rest of a list is accounted for if its first item and the rest behind it are. -/
theorem ExplainsAll.items_succ
    (explainsAll : ExplainsAll fuel)
    (room : Nat)
    (seen : List JsonValue)
    (text : List Char) :
    Explains room text (SpellsListRest seen) (readItems (fuel + 1) room seen text) := by
  have first := explainsAll.value room text
  rw [readItems]
  cases read : readValue fuel room text with
  | error cause =>
      rw [read] at first
      exact first
  | ok result =>
      obtain ⟨item, after⟩ := result
      rw [read] at first
      obtain ⟨taken, rfl, spelled⟩ := first
      rw [ok_bind]
      dsimp only
      split
      · rename_i next skipped
        obtain ⟨behind, between, isBlank, isBlankBetween, after_eq⟩ := exists_blanks skipped
        have text_eq :
            taken ++ after = taken ++ (behind ++ ',' :: between) ++ skipSpace next := by
          simpa using after_eq
        rw [text_eq]
        refine (explainsAll.items room (item :: seen) (skipSpace next)).behind _ ?_
        rintro _ _ ⟨body, items, rfl, spelledLater, rfl⟩
        exact ⟨_, item :: items, by simp, .more spelled isBlank isBlankBetween spelledLater,
          by simp⟩
      · rename_i next skipped
        obtain ⟨behind, isBlank, after_eq⟩ := exists_blank after
        refine ⟨taken ++ (behind ++ [']']), by rw [after_eq, skipped]; simp, ?_⟩
        exact ⟨taken ++ behind, [item], by simp, .last spelled isBlank, by simp⟩
      · trivial

/-- A member is accounted for if its value is. -/
theorem ExplainsAll.member
    (explainsAll : ExplainsAll fuel)
    (room : Nat)
    {rest afterKey beforeValue : List Char}
    {key : List Nat}
    (readKey : readUnits [] rest = .ok (key, afterKey))
    (colon : skipSpace afterKey = ':' :: beforeValue) :
    Explains room ('"' :: rest) (fun taken value => SpellsMember taken (pointsText key, value))
      (readValue fuel room (skipSpace beforeValue)) := by
  rcases readUnits_cases [] rest with ⟨body, units, after, rfl, spelledKey, read⟩ | read
  · rw [readKey, List.reverse_nil, List.nil_append] at read
    cases read
    obtain ⟨behind, between, isBlank, isBlankBetween, afterKey_eq⟩ := exists_blanks colon
    have text_eq :
        '"' :: (body ++ '"' :: afterKey) =
          '"' :: (body ++ '"' :: (behind ++ ':' :: between)) ++ skipSpace beforeValue := by
      simpa using afterKey_eq
    rw [text_eq]
    refine (explainsAll.value room (skipSpace beforeValue)).behind _ fun taken value spelled => ?_
    have spelledMember := SpellsMember.entry spelledKey isBlank isBlankBetween spelled
    simpa using spelledMember
  · rw [readKey] at read
    cases read

/-- What stands behind a member that is spelled is accounted for if the members after it are. -/
theorem ExplainsAll.behind_member
    (explainsAll : ExplainsAll fuel)
    (room : Nat)
    (seen : List (String × JsonValue))
    {taken after : List Char}
    {member : String × JsonValue}
    (spelled : SpellsMember taken member) :
    Explains room (taken ++ after) (SpellsRecordRest seen)
      (match skipSpace after with
      | ',' :: next =>
          readMembers fuel room (insertMember member.1 member.2 seen) (skipSpace next)
      | '\x7d' :: next => .ok (.record (insertMember member.1 member.2 seen), next)
      | _ => .error .malformed) := by
  split
  · rename_i next skipped
    obtain ⟨behind, between, isBlank, isBlankBetween, after_eq⟩ := exists_blanks skipped
    have text_eq : taken ++ after = taken ++ (behind ++ ',' :: between) ++ skipSpace next := by
      simpa using after_eq
    rw [text_eq]
    refine (explainsAll.members room _ (skipSpace next)).behind _ ?_
    rintro _ _ ⟨body, members, rfl, spelledLater, rfl⟩
    exact ⟨_, member :: members, by simp, .more spelled isBlank isBlankBetween spelledLater, rfl⟩
  · rename_i next skipped
    obtain ⟨behind, isBlank, after_eq⟩ := exists_blank after
    refine ⟨taken ++ (behind ++ ['\x7d']), by rw [after_eq, skipped]; simp, ?_⟩
    exact ⟨taken ++ behind, [member], by simp, .last spelled isBlank, rfl⟩
  · trivial

/-- The rest of a record is accounted for if its first member and the rest behind it are. -/
theorem ExplainsAll.members_succ
    (explainsAll : ExplainsAll fuel)
    (room : Nat)
    (seen : List (String × JsonValue))
    (text : List Char) :
    Explains room text (SpellsRecordRest seen) (readMembers (fuel + 1) room seen text) := by
  rw [readMembers.eq_def]
  dsimp only
  split
  · rename_i rest
    cases readKey : readUnits [] rest with
    | error cause =>
        rcases readUnits_cases [] rest with ⟨_, _, _, _, _, read⟩ | read
        · rw [readKey] at read
          cases read
        · rw [readKey] at read
          cases read
          trivial
    | ok result =>
        obtain ⟨key, afterKey⟩ := result
        rw [ok_bind]
        dsimp only
        split
        · rename_i beforeValue colon
          have first := explainsAll.member room readKey colon
          cases readFirst : readValue fuel room (skipSpace beforeValue) with
          | error cause =>
              rw [readFirst] at first
              exact first
          | ok result =>
              obtain ⟨value, after⟩ := result
              rw [readFirst] at first
              obtain ⟨taken, text_eq, spelled⟩ := first
              rw [ok_bind, text_eq]
              exact explainsAll.behind_member room seen spelled
        · trivial
  · trivial

end Steps

/-- Whatever is read is spelled, and a refusal is for the spelling, the digits or the depth. -/
theorem explainsAll (fuel : Nat) : ExplainsAll fuel := by
  induction fuel with
  | zero =>
      constructor
      · exact fun _ _ => trivial
      · exact fun _ _ _ => trivial
      · exact fun _ _ _ => trivial
  | succ fuel inductionHypothesis =>
      exact ⟨inductionHypothesis.value_succ, inductionHypothesis.items_succ,
        inductionHypothesis.members_succ⟩

/--
A document that is read is spelled by its text. One that is refused for more than its form has too
many digits in a row or too many opening brackets.
-/
theorem read_cases (levels : Nat) (text : List Char) :
    (∃ value, read levels text = .ok value ∧ SpellsDocument text value) ∨
      ∃ cause, read levels text = .error cause ∧ Refused levels text cause := by
  obtain ⟨before, isBlank, text_eq⟩ := exists_blank text
  have explained := (explainsAll (2 * text.length + 2)).value levels (skipSpace text)
  unfold JsonValue.read
  cases reading : readValue (2 * text.length + 2) levels (skipSpace text) with
  | error cause =>
      rw [reading] at explained
      exact .inr ⟨cause, rfl, Refused.of_suffix explained (skipSpace_suffix text)⟩
  | ok result =>
      obtain ⟨value, rest⟩ := result
      rw [reading] at explained
      obtain ⟨taken, skipped, spelled⟩ := explained
      obtain ⟨behind, isBlankBehind, rest_eq⟩ := exists_blank rest
      rw [ok_bind]
      dsimp only
      split
      · rename_i ended
        refine .inl ⟨value, rfl, ?_⟩
        rw [List.isEmpty_iff.mp ended, List.append_nil] at rest_eq
        rw [text_eq, skipped, rest_eq]
        exact .padded isBlank spelled isBlankBehind
      · exact .inr ⟨.malformed, rfl, trivial⟩

end JsonValue

end RootFinding
