import RootFinding.Proofs.Json.Writing
import RootFinding.Settings

/-!
# Settings as a store

A settings file is a store in which the last save wins. The invariant of every run of saves and
resets is that the file reads as settings, that is as the known keys in their order, and that each
of their values can be written once more; a save keeps it because a written document is read back.
What each key then has follows from what a single call does to it.

How deep values may be nested is told by the calls: a number of levels is fixed for a run, values
are nested no deeper, and each call has room for more levels than that, the record of settings being
one itself. A call with less room refuses what is nested too deep for it.
-/

namespace RootFinding

open JsonValue

namespace Settings

variable {settings mentioned : Settings} {key : String}

theorem nodup_keys : keys.Nodup := by
  decide

/-- Known keys that are mentioned are laid over settings, and no others. -/
theorem overlaid_eq_laidOver (settings mentioned : Settings) :
    settings.overlaid mentioned =
      laidOver settings (mentioned.filter fun entry => keys.contains entry.1) := by
  rw [overlaid, laidOver, List.foldl_filter]

/-- Dropping the unknown keys keeps what is said of the known ones. -/
theorem member?_filter_keys
    (isKnown : key ∈ keys)
    (mentioned : Settings) :
    member? key (mentioned.filter fun entry => keys.contains entry.1) = member? key mentioned := by
  induction mentioned with
  | nil => rfl
  | cons first rest inductionHypothesis =>
      by_cases same : first.1 = key
      · rw [List.filter_cons_of_pos (by simpa [same] using isKnown), member?_cons, if_pos same,
          member?_cons, if_pos same]
      · rw [List.filter_cons]
        split
        · rw [member?_cons, if_neg same, member?_cons, if_neg same, inductionHypothesis]
        · rw [member?_cons, if_neg same, inductionHypothesis]

/-- A known key has the value that is mentioned, or else the one that it had. -/
theorem member?_overlaid
    (distinct : (mentioned.map (·.1)).Nodup)
    (isKnown : key ∈ keys)
    (settings : Settings) :
    member? key (settings.overlaid mentioned) =
      (member? key mentioned).or (member? key settings) := by
  have distinct : ((mentioned.filter fun entry => keys.contains entry.1).map (·.1)).Nodup :=
    distinct.sublist (List.filter_sublist.map _)
  rw [overlaid_eq_laidOver, member?_laidOver distinct, member?_filter_keys isKnown]

/-- What is overlaid comes from the settings or from a known key that is mentioned. -/
theorem mem_overlaid
    {entry : String × JsonValue}
    (member : entry ∈ settings.overlaid mentioned) :
    entry ∈ settings ∨ (entry ∈ mentioned ∧ entry.1 ∈ keys) := by
  rw [overlaid_eq_laidOver] at member
  exact (mem_laidOver member).imp_right fun upper => by simpa using upper

/-- Settings are known by the value of each known key. -/
theorem eq_of_member?_eq
    {others : Settings}
    (known : settings.map (·.1) = keys)
    (othersKnown : others.map (·.1) = keys)
    (sameValues : ∀ key ∈ keys, member? key settings = member? key others) :
    settings = others :=
  JsonValue.eq_of_member?_eq (known.trans othersKnown.symm) (known ▸ nodup_keys)
    (known ▸ sameValues)

/-- Settings laid over others take their place. -/
theorem overlaid_eq_of_known
    {others : Settings}
    (known : settings.map (·.1) = keys)
    (othersKnown : others.map (·.1) = keys) :
    settings.overlaid others = others := by
  refine eq_of_member?_eq (map_fst_overlaid known others) othersKnown fun key isKnown => ?_
  rw [member?_overlaid (othersKnown ▸ nodup_keys) isKnown]
  have present : member? key others ≠ none := by
    rw [ne_eq, member?_eq_none_iff, othersKnown]
    exact fun absent => absent isKnown
  exact Option.or_of_isSome (Option.isSome_iff_ne_none.mpr present)

/-- To lay one record after another over settings is to lay both at once. -/
theorem overlaid_laidOver
    {first second : Settings}
    (known : settings.map (·.1) = keys)
    (distinct : (first.map (·.1)).Nodup)
    (secondDistinct : (second.map (·.1)).Nodup) :
    settings.overlaid (laidOver first second) = (settings.overlaid first).overlaid second := by
  have firstKnown := map_fst_overlaid known first
  refine eq_of_member?_eq (map_fst_overlaid known _) (map_fst_overlaid firstKnown second) ?_
  intro key isKnown
  rw [member?_overlaid (nodup_laidOver distinct second) isKnown, member?_laidOver secondDistinct,
    member?_overlaid secondDistinct isKnown, member?_overlaid distinct isKnown, Option.or_assoc]

end Settings

/-- A call has room for settings with values that are nested so many levels deep. -/
structure NestingRoom.Takes (room : NestingRoom) (levels : Nat) : Prop where
  reading : levels < room.reading
  writing : levels < room.writing

namespace SettingsFile

/-! ## One call -/

/--
A record that can be saved: no key comes twice, and the values of known keys can be stored and are
nested no deeper than so many levels. What unknown keys have is of no concern.
-/
structure Savable (levels : Nat) (mentioned : Settings) : Prop where
  distinct : (mentioned.map (·.1)).Nodup
  fits : ∀ entry ∈ mentioned, entry.1 ∈ Settings.keys → Fits levels entry.2

/-- The file can be written and reads as settings, which can be saved once more. -/
structure Holds (levels : Nat) (file : SettingsFile) (settings : Settings) : Prop where
  isFile : file ≠ .directory
  reads : ∀ room, levels < room → file.settings room = .ok settings
  known : settings.map (·.1) = Settings.keys
  fits : ∀ entry ∈ settings, Fits levels entry.2

/-- Without a file the defaults hold, however little room there is. -/
theorem holds_absent (levels : Nat) : Holds levels .absent Settings.defaults where
  isFile := by simp
  reads _ _ := rfl
  known := rfl
  fits := by
    intro entry member
    simp only [Settings.defaults, List.mem_cons, List.not_mem_nil, or_false] at member
    rcases member with rfl | rfl | rfl | rfl | rfl <;> exact ⟨by decide, by cases levels <;> rfl⟩

section Saving

variable {levels : Nat} {file : SettingsFile} {settings mentioned : Settings} {room : NestingRoom}

/-- Settings fit where there is room for one level more than their values take. -/
theorem fits_record
    {enough : Nat}
    (known : settings.map (·.1) = Settings.keys)
    (fits : ∀ entry ∈ settings, Fits levels entry.2)
    (roomy : levels < enough) :
    Fits enough (.record settings) :=
  Fits.mono (fits_record_iff.mpr ⟨levels, rfl, known ▸ Settings.nodup_keys, fits⟩) roomy

/-- Settings are read back from the file that they were written to. -/
theorem holds_present
    (known : settings.map (·.1) = Settings.keys)
    (fits : ∀ entry ∈ settings, Fits levels entry.2) :
    Holds levels (.present (text settings).toUTF8) settings where
  isFile := by simp
  reads := by
    intro room roomy
    have decoded : String.fromUTF8? (text settings).toUTF8 = some (text settings) := by
      rw [String.fromUTF8?, dif_pos (by simpa using (text settings).isValidUTF8)]
      rfl
    have readBack : read room (text settings).toList = .ok (.record settings) :=
      read_writeIndented (fits_record known fits roomy)
    have overlaid := Settings.overlaid_eq_of_known (show _ = Settings.keys from rfl) known
    simp only [SettingsFile.settings, SettingsFile.mentioned, decoded, readBack]
    exact congrArg Except.ok overlaid
  known := known
  fits := fits

/--
A save lays what is mentioned over the settings. It succeeds if the outcome goes out whole, and fails
for the reason for which the writing broke off.
-/
theorem save_eq_of_reads
    (isFile : file ≠ .directory)
    (reads : file.settings room.reading = .ok settings) :
    file.save mentioned room =
      match (writing room.writing (settings.overlaid mentioned)).failure with
      | none => .ok (.present (writing room.writing (settings.overlaid mentioned)).text.toUTF8)
      | some cause => .error (.ofWriting cause) := by
  rw [save, reads]
  cases file with
  | directory => exact absurd rfl isFile
  | absent | present _ => rfl

/-- An attempt to save leaves a beginning of the text behind, all of it if the save succeeds. -/
theorem exists_afterSave
    (isFile : file ≠ .directory)
    (reads : file.settings room.reading = .ok settings)
    (mentioned : Settings) :
    ∃ out rest,
      file.afterSave mentioned room = .present out.toUTF8 ∧
        text (settings.overlaid mentioned) = out ++ rest ∧
        ((file.save mentioned room).isOk = true → rest = "") := by
  have isOf := isOf_writeWithin "" 0 room.writing (.record (settings.overlaid mentioned))
  rw [String.empty_append] at isOf
  obtain ⟨rest, text_eq⟩ := isOf.isBeginning
  refine ⟨_, rest, ?_, text_eq, fun succeeds => ?_⟩
  · cases file with
    | directory => exact absurd rfl isFile
    | absent | present _ =>
        simp only [afterSave, reads]
        rfl
  · cases ends : (writing room.writing (settings.overlaid mentioned)).failure with
    | none =>
        have whole := (isOf.ends ends).trans text_eq
        exact (String.append_right_inj _).mp (whole.symm.trans (String.append_empty).symm)
    | some cause =>
        rw [save_eq_of_reads isFile reads, ends] at succeeds
        cases succeeds

/-- What can be saved is written where there is room for it, and the file holds it then. -/
theorem Holds.save_eq
    (holds : Holds levels file settings)
    (takes : room.Takes levels)
    (savable : Savable levels mentioned) :
    file.save mentioned room = .ok (.present (text (settings.overlaid mentioned)).toUTF8) ∧
      Holds levels (.present (text (settings.overlaid mentioned)).toUTF8)
        (settings.overlaid mentioned) := by
  have known := Settings.map_fst_overlaid holds.known mentioned
  have fits : ∀ entry ∈ settings.overlaid mentioned, Fits levels entry.2 := by
    intro entry member
    rcases Settings.mem_overlaid member with before | ⟨upper, isKnown⟩
    · exact holds.fits entry before
    · exact savable.fits entry upper isKnown
  have writes :
      writing room.writing (settings.overlaid mentioned) =
        .whole (text (settings.overlaid mentioned)) := by
    rw [writing, writeWithin_of_fits (fits_record known fits takes.writing), String.empty_append]
    rfl
  refine ⟨?_, holds_present known fits⟩
  rw [save_eq_of_reads holds.isFile (holds.reads _ takes.reading), writes]
  rfl

/-- A value that is nested too deep for the room of a save spoils it. -/
theorem Holds.save_tooDeep
    (holds : Holds levels file settings)
    (reads : file.settings room.reading = .ok settings)
    (distinct : (mentioned.map (·.1)).Nodup)
    (storable : ∀ entry ∈ mentioned, entry.1 ∈ Settings.keys → entry.2.isStorable = true)
    {key : String}
    {value : JsonValue}
    (isKnown : key ∈ Settings.keys)
    (mentions : member? key mentioned = some value)
    (deep : value.nestsWithin (room.writing - 1) = false) :
    file.save mentioned room = .error .tooDeepToWrite := by
  have present : (key, value) ∈ settings.overlaid mentioned := by
    apply mem_of_member?_eq_some
    rw [Settings.member?_overlaid distinct isKnown, mentions, Option.some_or]
  have recordStorable : (JsonValue.record (settings.overlaid mentioned)).isStorable = true := by
    rw [isStorable, Bool.and_eq_true, decide_eq_true_eq, membersStorable_iff,
      Settings.map_fst_overlaid holds.known mentioned]
    refine ⟨Settings.nodup_keys, fun entry member => ?_⟩
    rcases Settings.mem_overlaid member with before | ⟨upper, upperKnown⟩
    · exact (holds.fits entry before).storable
    · exact storable entry upper upperKnown
  have tooDeep :
      (JsonValue.record (settings.overlaid mentioned)).nestsWithin room.writing = false := by
    cases levels_eq : room.writing with
    | zero => rw [nestsWithin]
    | succ inner =>
        rw [levels_eq, Nat.add_sub_cancel] at deep
        rw [← Bool.not_eq_true, nestsWithin, membersNestWithin_iff]
        intro nests
        exact Bool.false_ne_true (deep.symm.trans (nests _ present))
  have broken :
      (writing room.writing (settings.overlaid mentioned)).failure = some .tooDeep := by
    rw [writing, failure_writeWithin "" 0 room.writing _ recordStorable, tooDeep]
    rfl
  rw [save_eq_of_reads holds.isFile reads, broken]
  rfl

/-- What a file holds can be saved. -/
theorem Holds.savable (holds : Holds levels file settings) : Savable levels settings where
  distinct := holds.known ▸ Settings.nodup_keys
  fits entry member _ := holds.fits entry member

/-- Savable settings laid over each other are savable. -/
theorem savable_laidOver
    {lower upper : Settings}
    (lowerSavable : Savable levels lower)
    (upperSavable : Savable levels upper) :
    Savable levels (laidOver lower upper) where
  distinct := nodup_laidOver lowerSavable.distinct upper
  fits entry member isKnown := by
    rcases mem_laidOver member with below | above
    · exact lowerSavable.fits entry below isKnown
    · exact upperSavable.fits entry above isKnown

end Saving

/-- A call that changes the settings; a save has the room that the calls around it leave. -/
inductive Call where
  | save (room : NestingRoom) (mentioned : Settings)
  | reset

/-- The file after a call. -/
def Call.run (file : SettingsFile) : Call → Except SettingsError SettingsFile
  | .save room mentioned => file.save mentioned room
  | .reset => file.reset

/-- The value that a key has after a call, from the one that it had. -/
def Call.valueAfter (key : String) (before : Option JsonValue) : Call → Option JsonValue
  | .save _ mentioned => (member? key mentioned).or before
  | .reset => member? key Settings.defaults

/-- A save has room for so many levels, and what it saves is nested no deeper. -/
def Call.IsRoomy (levels : Nat) : Call → Prop
  | .save room mentioned => room.Takes levels ∧ Savable levels mentioned
  | .reset => True

/-- A call keeps the invariant and gives each known key the value that it tells. -/
theorem Holds.run
    {levels : Nat}
    {file : SettingsFile}
    {settings : Settings}
    (holds : Holds levels file settings)
    {call : Call}
    (roomy : call.IsRoomy levels) :
    ∃ next later,
      call.run file = .ok next ∧
        Holds levels next later ∧
        ∀ key ∈ Settings.keys,
          member? key later = call.valueAfter key (member? key settings) := by
  cases call with
  | save room mentioned =>
      obtain ⟨takes, savable⟩ := roomy
      obtain ⟨saved, later⟩ := holds.save_eq takes savable
      exact ⟨_, _, saved, later, fun key isKnown =>
        Settings.member?_overlaid savable.distinct isKnown settings⟩
  | reset =>
      refine ⟨.absent, Settings.defaults, ?_, holds_absent levels, fun key _ => rfl⟩
      cases file with
      | directory => exact absurd rfl holds.isFile
      | absent | present _ => rfl

/-! ## Runs -/

/-- The file after calls one after the other. -/
def after (file : SettingsFile) (calls : List Call) : Except SettingsError SettingsFile :=
  calls.foldlM Call.run file

/-- The value of a key in the last save that mentions it since the last reset; newest call first. -/
def lastMention? (key : String) : List Call → Option JsonValue
  | [] | .reset :: _ => none
  | .save _ mentioned :: earlier => (member? key mentioned).or (lastMention? key earlier)

/-- A run of calls keeps the invariant, and each known key has the value of its last mention. -/
theorem exists_holds_after
    (levels : Nat)
    (calls : List Call)
    (roomy : ∀ call ∈ calls, call.IsRoomy levels) :
    ∃ file settings,
      after .absent calls = .ok file ∧
        Holds levels file settings ∧
        ∀ key ∈ Settings.keys,
          member? key settings =
            (lastMention? key calls.reverse).or (member? key Settings.defaults) := by
  induction calls using List.reverseRecOn with
  | nil => exact ⟨.absent, Settings.defaults, rfl, holds_absent levels, fun key _ => rfl⟩
  | append_singleton earlier call inductionHypothesis =>
      obtain ⟨file, settings, reached, holds, values⟩ :=
        inductionHypothesis fun other member => roomy other (List.mem_append_left _ member)
      obtain ⟨next, later, ran, laterHolds, laterValues⟩ := holds.run (roomy call (by simp))
      refine ⟨next, later, ?_, laterHolds, fun key isKnown => ?_⟩
      · rw [after] at reached ⊢
        rw [List.foldlM_append, reached, Outcome.ok_bind, List.foldlM_cons, ran]
        rfl
      · rw [laterValues key isKnown, values key isKnown, List.reverse_append]
        cases call with
        | save _ mentioned => exact (Option.or_assoc).symm
        | reset => rfl

/--
Whatever was saved and given up before, from no file at all, the settings are the known keys, each
with the value that was last saved for it or its default, as long as each call had room for the
values that were saved. A later save keeps every key that it does not mention, two saves in a row
are one save of the second record laid over the first, and to save the settings that hold changes
nothing. A save of a value that is nested too deep for its room is refused.
-/
theorem lastMention_wins
    (levels : Nat)
    (calls : List Call)
    (roomy : ∀ call ∈ calls, call.IsRoomy levels) :
    ∃ file settings,
      after .absent calls = .ok file ∧
        (∀ reading, levels < reading → file.settings reading = .ok settings) ∧
        settings.map (·.1) = Settings.keys ∧
        (∀ key ∈ Settings.keys,
          member? key settings =
            (lastMention? key calls.reverse).or (member? key Settings.defaults)) ∧
        (∀ room mentioned,
          Call.IsRoomy levels (.save room mentioned) →
            ∃ next later,
              file.save mentioned room = .ok next ∧
                (∀ reading, levels < reading → next.settings reading = .ok later) ∧
                ∀ key ∈ Settings.keys,
                  member? key mentioned = none → member? key later = member? key settings) ∧
        (∀ (room between both : NestingRoom) (first second : Settings),
          Call.IsRoomy levels (.save room first) →
            Call.IsRoomy levels (.save between second) →
            both.Takes levels →
              ∃ next,
                (file.save first room >>= fun middle => middle.save second between) = .ok next ∧
                  file.save (laidOver first second) both = .ok next) ∧
        (∀ room : NestingRoom,
          room.Takes levels →
            ∃ next,
              file.save settings room = .ok next ∧
                ∀ reading, levels < reading → next.settings reading = .ok settings) ∧
        ∀ (room : NestingRoom) (mentioned : Settings),
          levels < room.reading →
            (mentioned.map (·.1)).Nodup →
            (∀ entry ∈ mentioned, entry.1 ∈ Settings.keys → entry.2.isStorable = true) →
            (∃ key ∈ Settings.keys, ∃ value,
              member? key mentioned = some value ∧
                value.nestsWithin (room.writing - 1) = false) →
              file.save mentioned room = .error .tooDeepToWrite := by
  obtain ⟨file, settings, reached, holds, values⟩ := exists_holds_after levels calls roomy
  refine ⟨file, settings, reached, holds.reads, holds.known, values, ?_, ?_, ?_, ?_⟩
  · rintro room mentioned ⟨takes, savable⟩
    obtain ⟨saved, later⟩ := holds.save_eq takes savable
    refine ⟨_, _, saved, later.reads, fun key isKnown absent => ?_⟩
    rw [Settings.member?_overlaid savable.distinct isKnown, absent, Option.none_or]
  · rintro room between both first second ⟨takes, firstSavable⟩ ⟨takesNext, secondSavable⟩ takesBoth
    obtain ⟨firstSaved, middle⟩ := holds.save_eq takes firstSavable
    obtain ⟨secondSaved, later⟩ := middle.save_eq takesNext secondSavable
    obtain ⟨bothSaved, _⟩ := holds.save_eq takesBoth (savable_laidOver firstSavable secondSavable)
    refine ⟨_, by rw [firstSaved, Outcome.ok_bind, secondSaved], ?_⟩
    rw [bothSaved, Settings.overlaid_laidOver holds.known firstSavable.distinct
      secondSavable.distinct]
  · intro room takes
    obtain ⟨saved, later⟩ := holds.save_eq takes holds.savable
    rw [Settings.overlaid_eq_of_known holds.known holds.known] at saved later
    exact ⟨_, saved, later.reads⟩
  · rintro room mentioned readable distinct storable ⟨key, isKnown, value, mentions, deep⟩
    exact holds.save_tooDeep (holds.reads _ readable) distinct storable isKnown mentions deep

/-- What was saved before a reset is gone, and what has no encoding is dropped with its key. -/
theorem methodSaved_afterReset :
    ∃ file settings,
      after .absent
          [.save ⟨7, 3⟩ [("epsilon", .null), ("method", .text "newton")], .reset,
            .save ⟨2, 5⟩ [("method", .list [.text "secant"]), ("colour", .brokenText [0xD800])]] =
          .ok file ∧
        file.settings 2 = .ok settings ∧
        member? "method" settings = some (.list [.text "secant"]) ∧
        member? "epsilon" settings = some (.number 1e-6) := by
  have first : Savable 1 [("epsilon", .null), ("method", .text "newton")] := by
    refine ⟨by decide, fun entry member _ => ?_⟩
    simp only [List.mem_cons, List.not_mem_nil, or_false] at member
    rcases member with rfl | rfl <;> exact ⟨rfl, rfl⟩
  have last :
      Savable 1 [("method", .list [.text "secant"]), ("colour", .brokenText [0xD800])] := by
    refine ⟨by decide, fun entry member isKnown => ?_⟩
    simp only [List.mem_cons, List.not_mem_nil, or_false] at member
    rcases member with rfl | rfl
    · exact ⟨rfl, rfl⟩
    · exact absurd isKnown (by decide)
  obtain ⟨file, settings, reached, reads, _, values, _⟩ :=
    lastMention_wins 1
      [.save ⟨7, 3⟩ [("epsilon", .null), ("method", .text "newton")], .reset,
        .save ⟨2, 5⟩ [("method", .list [.text "secant"]), ("colour", .brokenText [0xD800])]]
      (fun call member => by
        simp only [List.mem_cons, List.not_mem_nil, or_false] at member
        rcases member with rfl | rfl | rfl
        · exact ⟨⟨by decide, by decide⟩, first⟩
        · trivial
        · exact ⟨⟨by decide, by decide⟩, last⟩)
  exact ⟨file, settings, reached, reads 2 (by decide), values "method" (by decide),
    values "epsilon" (by decide)⟩

/-! ## Values that are nested too deep -/

/-- An empty list inside as many lists. -/
def nestedList : Nat → JsonValue
  | 0 => .list []
  | depth + 1 => .list [nestedList depth]

theorem isStorable_nestedList (depth : Nat) : (nestedList depth).isStorable = true := by
  induction depth with
  | zero => rfl
  | succ depth inductionHypothesis =>
      simp [nestedList, isStorable, itemsStorable, inductionHypothesis]

/-- A nested list needs a level more than its depth. -/
theorem nestsWithin_nestedList (depth levels : Nat) :
    (nestedList depth).nestsWithin levels = decide (depth < levels) := by
  induction depth generalizing levels with
  | zero => cases levels <;> simp [nestedList, nestsWithin, itemsNestWithin]
  | succ depth inductionHypothesis =>
      cases levels <;> simp [nestedList, nestsWithin, itemsNestWithin, inductionHypothesis]

/-- No call has room for a list that is nested as deep as calls may stand. -/
theorem deepList_notSaved :
    (nestedList callLimit).isStorable = true ∧
      ∀ room : NestingRoom,
        room.writing ≤ callLimit →
          after .absent [.save room [("epsilon", nestedList callLimit)]] =
            .error .tooDeepToWrite := by
  have storable := isStorable_nestedList callLimit
  refine ⟨storable, fun room small => ?_⟩
  have deep : (nestedList callLimit).nestsWithin (room.writing - 1) = false := by
    rw [nestsWithin_nestedList, decide_eq_false_iff_not]
    omega
  have failed : SettingsFile.absent.save [("epsilon", nestedList callLimit)] room =
      .error .tooDeepToWrite :=
    (holds_absent 0).save_tooDeep rfl (by simp) (by simpa using fun _ => storable)
      (show "epsilon" ∈ Settings.keys by decide) (by simp [member?]) deep
  rw [after, List.foldlM_cons, Call.run, failed]
  rfl

end SettingsFile

end RootFinding
