import RootFinding.Proofs.Json.Acceptance
import RootFinding.Proofs.Settings.Store

/-!
# Settings from a damaged file

A file that holds no record counts as empty, whatever else its text is: the settings are then the
defaults, else the defaults with the record laid over them. Three damages are not tolerated. Bytes
that are no text at all are refused before anything is read, and a text may have more digits in a
row or more opening brackets than the reader takes, however much room it has for nesting.
-/

namespace RootFinding

open JsonValue

namespace SettingsFile

variable {content : ByteArray} {text : String}

/-- Bytes that are no text are refused before anything is read. -/
theorem settings_of_not_text
    (room : Nat)
    (notText : String.fromUTF8? content = none) :
    (SettingsFile.present content).settings room = .error .invalidEncoding := by
  simp only [settings, mentioned, notText]
  rfl

/-- The members that a text mentions are those of the record that it spells, or none. -/
theorem mentioned_cases
    (room : Nat)
    (decoded : String.fromUTF8? content = some text) :
    (∃ members,
        (SettingsFile.present content).mentioned room = .ok members ∧
          (∀ spelled, SpellsDocument text.toList (.record spelled) → members = spelled) ∧
          ((∀ spelled, ¬SpellsDocument text.toList (.record spelled)) → members = [])) ∨
      (HasLongRun text.toList ∧
        (SettingsFile.present content).mentioned room = .error .tooManyDigits) ∨
      (room < text.toList.countP isOpening ∧
        (SettingsFile.present content).mentioned room = .error .tooDeepToRead) := by
  simp only [mentioned, decoded]
  rcases read_cases room text.toList with ⟨value, read, spelled⟩ | ⟨cause, read, refused⟩
  · refine .inl ?_
    have only := fun members => @eq_of_read room text.toList value (.record members) read
    rw [read]
    cases value with
    | record members =>
        exact ⟨members, rfl, fun other spelledOther => JsonValue.record.inj (only other spelledOther),
          fun none => absurd spelled (none members)⟩
    | _ =>
        refine ⟨[], rfl, fun other spelledOther => ?_, fun _ => rfl⟩
        cases only other spelledOther
  · rw [read]
    cases cause with
    | malformed =>
        exact .inl ⟨[], rfl,
          fun other spelled => absurd spelled (not_spellsDocument_of_malformed read _),
          fun _ => rfl⟩
    | tooManyDigits => exact .inr (.inl ⟨refused, rfl⟩)
    | tooDeep => exact .inr (.inr ⟨refused, rfl⟩)

/--
Settings are read from every text but one with too many digits in a row or more opening brackets
than there is room for levels of nesting. They have the known keys: the defaults with the record
laid over them that the text spells, or the defaults alone where it spells none.
-/
theorem settings_tolerant (content : ByteArray) (room : Nat) :
    match String.fromUTF8? content with
    | none => (SettingsFile.present content).settings room = .error .invalidEncoding
    | some text =>
        (∃ settings,
            (SettingsFile.present content).settings room = .ok settings ∧
              settings.map (·.1) = Settings.keys ∧
              (∀ members, SpellsDocument text.toList (.record members) →
                settings = Settings.defaults.overlaid members) ∧
              ((∀ members, ¬SpellsDocument text.toList (.record members)) →
                settings = Settings.defaults)) ∨
          (HasLongRun text.toList ∧
            (SettingsFile.present content).settings room = .error .tooManyDigits) ∨
          (room < text.toList.countP isOpening ∧
            (SettingsFile.present content).settings room = .error .tooDeepToRead) := by
  split
  · rename_i notText
    exact settings_of_not_text room notText
  · rename_i text decoded
    rcases mentioned_cases room decoded with ⟨members, mentions, spelled, empty⟩ | ⟨long, mentions⟩ |
      ⟨deep, mentions⟩ <;>
      simp only [settings, mentions]
    · refine .inl ⟨Settings.defaults.overlaid members, rfl, Settings.map_fst_overlaid rfl members,
        fun other spelledOther => ?_, fun noRecord => ?_⟩
      · rw [spelled other spelledOther]
      · rw [empty noRecord]
        rfl
    · exact .inr (.inl ⟨long, rfl⟩)
    · exact .inr (.inr ⟨deep, rfl⟩)

/-- A single byte that no text has is not tolerated, however much room there is. -/
theorem loneByte_not_tolerated :
    ¬∃ room settings, (SettingsFile.present ⟨#[0xFF]⟩).settings room = .ok settings := by
  rintro ⟨room, settings, read⟩
  rw [settings_of_not_text room (by decide)] at read
  cases read

end SettingsFile

end RootFinding
