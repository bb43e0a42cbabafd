import RootFinding.Json.Reader
import RootFinding.Json.Writer

/-!
# Settings

The parameters that a request may leave out, kept in one file as a JSON record. Known keys that the
file mentions win over the defaults, unknown keys are dropped, and a file that holds no record
counts as empty. How deep values may be nested depends on the call: reading and writing take a call
for every level, and the calls around them leave room for so many.
-/

namespace RootFinding

/-- Settings as a record of the known keys. -/
abbrev Settings : Type :=
  List (String × JsonValue)

/-- What stands where the settings file belongs. -/
inductive SettingsFile where
  | absent
  | present (content : ByteArray)
  | directory

/-- Why settings cannot be read or written. -/
inductive SettingsError where
  | invalidEncoding
  | tooManyDigits
  | tooDeepToRead
  | tooDeepToWrite
  | unencodable
  | isDirectory
  deriving Repr, DecidableEq

def SettingsError.ofWriting : JsonValue.WriteError → SettingsError
  | .tooDeep => .tooDeepToWrite
  | .tooManyDigits => .tooManyDigits
  | .unencodable => .unencodable

/-- How many levels of nesting a call has room for in what it reads and in what it writes. -/
structure NestingRoom where
  reading : Nat := JsonValue.usualRoom
  writing : Nat := JsonValue.usualRoom
  deriving Repr, DecidableEq

namespace Settings

/-- The settings that hold where nothing else is said, in the order in which they are written. -/
def defaults : Settings :=
  [("epsilon", .number 1e-6), ("method", .text "newton"), ("max_iterations", .integer 1000),
    ("timeout_seconds", .number 120.0), ("update_period", .integer 5)]

def keys : List String :=
  defaults.map (·.1)

/-- Set every known key that is mentioned. -/
def overlaid (settings mentioned : Settings) : Settings :=
  mentioned.foldl
    (fun current (key, value) =>
      if keys.contains key then JsonValue.insertMember key value current else current)
    settings

/-- Overlaying known settings leaves the known keys as they are. -/
theorem map_fst_overlaid
    {settings : Settings}
    (known : settings.map (·.1) = keys)
    (mentioned : Settings) :
    (settings.overlaid mentioned).map (·.1) = keys := by
  induction mentioned generalizing settings with
  | nil => exact known
  | cons first rest inductionHypothesis =>
      obtain ⟨key, value⟩ := first
      by_cases isKnown : keys.contains key = true
      · have member : key ∈ settings.map (·.1) := by
          rw [known]
          simpa using isKnown
        have kept : (JsonValue.insertMember key value settings).map (·.1) = keys :=
          (JsonValue.map_fst_insertMember member value).trans known
        simpa only [overlaid, List.foldl_cons, isKnown, ↓reduceIte] using inductionHypothesis kept
      · simpa only [overlaid, List.foldl_cons, isKnown, Bool.false_eq_true, ↓reduceIte]
          using inductionHypothesis known

def get (settings : Settings) (key : String) : JsonValue :=
  (JsonValue.member? key settings).getD .null

end Settings

namespace SettingsFile

/-- The members that a file mentions, with room for so many levels of nesting in its text. -/
def mentioned (room : Nat) : SettingsFile → Except SettingsError Settings
  | .absent | .directory => .ok []
  | .present content =>
      match String.fromUTF8? content with
      | none => .error .invalidEncoding
      | some text =>
          match JsonValue.read room text.toList with
          | .ok (.record members) => .ok members
          | .ok _ | .error .malformed => .ok []
          | .error .tooManyDigits => .error .tooManyDigits
          | .error .tooDeep => .error .tooDeepToRead

/-- The settings of a file, merged over the defaults. -/
def settings (file : SettingsFile) (room : Nat := JsonValue.usualRoom) :
    Except SettingsError Settings := do
  return Settings.defaults.overlaid (← file.mentioned room)

def text (settings : Settings) : String :=
  (JsonValue.record settings).writeIndented 0

/-- What goes out of settings as they are written. -/
def writing (room : Nat) (settings : Settings) : JsonValue.Writing :=
  (JsonValue.record settings).writeWithin "" 0 room

/-- The file after known keys were set. -/
def save (file : SettingsFile) (mentioned : Settings) (room : NestingRoom := {}) :
    Except SettingsError SettingsFile := do
  let current := (← file.settings room.reading).overlaid mentioned
  match file with
  | .directory => throw .isDirectory
  | .absent | .present _ =>
      let writing := writing room.writing current
      match writing.failure with
      | none => return .present writing.text.toUTF8
      | some cause => throw (.ofWriting cause)

/-- The file after an attempt to save; where writing broke off, it holds what had gone out. -/
def afterSave (file : SettingsFile) (mentioned : Settings) (room : NestingRoom := {}) :
    SettingsFile :=
  match file, file.settings room.reading with
  | .directory, _ | _, .error _ => file
  | .absent, .ok current | .present _, .ok current =>
      .present (writing room.writing (current.overlaid mentioned)).text.toUTF8

/-- The file after the settings were given up. -/
def reset : SettingsFile → Except SettingsError SettingsFile
  | .directory => .error .isDirectory
  | _ => .ok .absent

end SettingsFile

end RootFinding
