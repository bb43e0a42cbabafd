import RootFinding.Decimal.Numeral
import RootFinding.Decimal.Shortest
import RootFinding.Json.Value
import RootFinding.Text.Quoted

/-!
# Writing JSON

Strings escape the quote, the backslash, the control characters and halves of surrogate pairs, and
nothing else. Doubles are written with the fewest digits that read back. Two layouts share these: on
one line without blanks, and on many lines where every level of nesting is indented by two blanks
more. A document on many lines goes out piece by piece, so where a piece cannot be written those
before it have gone out.
-/

namespace RootFinding

namespace JsonValue

/-- The letter for a control character that has one. -/
def controlLetter? (c : Char) : Option Char :=
  if c.toNat = 0x08 then some 'b'
  else if c.toNat = 0x0C then some 'f'
  else Text.layoutLetter? c

def escaped (c : Char) : List Char :=
  match controlLetter? c with
  | some letter => ['\\', letter]
  | none =>
      if c.toNat < 0x20 then '\\' :: 'u' :: Text.hexDigits 4 c.toNat
      else if c = '"' || c = '\\' then ['\\', c]
      else [c]

def writtenText (text : String) : String :=
  String.ofList ('"' :: text.toList.flatMap escaped ++ ['"'])

def escapedPoint (point : Nat) : List Char :=
  if isHalf point then '\\' :: 'u' :: Text.hexDigits 4 point else escaped (Char.ofNat point)

/-- A string of code points between its quotes. -/
def writtenPoints (points : List Nat) : String :=
  String.ofList ('"' :: points.flatMap escapedPoint ++ ['"'])

/-- A double; the three that are no numbers are words. -/
def writtenNumber (value : Float) : String :=
  if value.isNaN then "NaN"
  else if value.isInf then (if value.lt 0.0 then "-Infinity" else "Infinity")
  else Decimal.shortest value

/-- A value that holds no others. -/
def writtenScalar : JsonValue → String
  | null => "null"
  | boolean value => if value then "true" else "false"
  | integer value => toString value
  | number value => writtenNumber value
  | text value => writtenText value
  | brokenText points => writtenPoints points
  | list _ => "[]"
  | record _ => "\x7b\x7d"

/-- A new line at a level of nesting. -/
def newLine (level : Nat) : String :=
  String.ofList ('\n' :: List.replicate (2 * level) ' ')

mutual

/-- A value on many lines, whose own level of nesting is `level`. -/
def writeIndented (level : Nat) : JsonValue → String
  | list (first :: rest) =>
      "[" ++ newLine (level + 1) ++ writeIndented (level + 1) first ++
        writeItems (level + 1) rest ++ newLine level ++ "]"
  | record (first :: rest) =>
      "\x7b" ++ newLine (level + 1) ++ writeMember (level + 1) first ++
        writeMembers (level + 1) rest ++ newLine level ++ "\x7d"
  | value => writtenScalar value

/-- The items of a list after its first. -/
def writeItems (level : Nat) : List JsonValue → String
  | [] => ""
  | item :: rest => "," ++ newLine level ++ writeIndented level item ++ writeItems level rest

def writeMember (level : Nat) : String × JsonValue → String
  | (key, value) => writtenText key ++ ": " ++ writeIndented level value

/-- The members of a record after its first. -/
def writeMembers (level : Nat) : List (String × JsonValue) → String
  | [] => ""
  | entry :: rest => "," ++ newLine level ++ writeMember level entry ++ writeMembers level rest

end

/-- Why a document cannot be written to its end. -/
inductive WriteError where
  | tooDeep
  | tooManyDigits
  | unencodable
  deriving Repr, DecidableEq

/-- What has gone out of a document and, if the writing broke off behind it, why. -/
structure Writing where
  text : String
  failure : Option WriteError
  deriving Repr, DecidableEq

namespace Writing

/-- A text that goes out as a whole. -/
def whole (text : String) : Writing where
  text
  failure := none

def brokenOff (cause : WriteError) : Writing where
  text := ""
  failure := some cause

/-- One writing after another, which does not begin where the first has broken off. -/
def andThen (first next : Writing) : Writing :=
  match first.failure with
  | none => { next with text := first.text ++ next.text }
  | some _ => first

instance : Append Writing where
  append := andThen

end Writing

/-- Why a value that holds no others cannot be written, if it cannot. -/
def scalarFailure? : JsonValue → Option WriteError
  | integer value =>
      if integerDigitLimit < (Nat.toDigits 10 value.natAbs).length then some .tooManyDigits
      else none
  | brokenText _ => some .unencodable
  | _ => none

/-- A value that holds no others, in one piece with the text before it. -/
def writeScalarBehind (before : String) (value : JsonValue) : Writing :=
  match scalarFailure? value with
  | some cause => .brokenOff cause
  | none => .whole (before ++ writtenScalar value)

mutual

/-- Write a value on many lines behind a text, with room for so many levels of nesting. -/
def writeWithin (before : String) (level : Nat) : (room : Nat) → JsonValue → Writing
  | 0, list _ | 0, record _ => .whole before ++ .brokenOff .tooDeep
  | room + 1, list (first :: rest) =>
      .whole before ++ writeWithin ("[" ++ newLine (level + 1)) (level + 1) room first ++
        writeItemsWithin (level + 1) room rest ++ .whole (newLine level ++ "]")
  | room + 1, record (first :: rest) =>
      .whole (before ++ "\x7b" ++ newLine (level + 1)) ++
        writeMemberWithin (level + 1) room first ++
        writeMembersWithin (level + 1) room rest ++ .whole (newLine level ++ "\x7d")
  | _, value => writeScalarBehind before value

/-- The items of a list after its first. -/
def writeItemsWithin (level room : Nat) : List JsonValue → Writing
  | [] => .whole ""
  | item :: rest =>
      writeWithin ("," ++ newLine level) level room item ++ writeItemsWithin level room rest

def writeMemberWithin (level room : Nat) : String × JsonValue → Writing
  | (key, value) => .whole (writtenText key ++ ": ") ++ writeWithin "" level room value

/-- The members of a record after its first. -/
def writeMembersWithin (level room : Nat) : List (String × JsonValue) → Writing
  | [] => .whole ""
  | entry :: rest =>
      .whole ("," ++ newLine level) ++ writeMemberWithin level room entry ++
        writeMembersWithin level room rest

end

mutual

/-- A value on one line without blanks. -/
def writeCompact : JsonValue → String
  | list (first :: rest) => "[" ++ writeCompact first ++ writeCompactItems rest ++ "]"
  | record (first :: rest) =>
      "\x7b" ++ writeCompactMember first ++ writeCompactMembers rest ++ "\x7d"
  | value => writtenScalar value

/-- The items of a list after its first. -/
def writeCompactItems : List JsonValue → String
  | [] => ""
  | item :: rest => "," ++ writeCompact item ++ writeCompactItems rest

def writeCompactMember : String × JsonValue → String
  | (key, value) => writtenText key ++ ":" ++ writeCompact value

/-- The members of a record after its first. -/
def writeCompactMembers : List (String × JsonValue) → String
  | [] => ""
  | entry :: rest => "," ++ writeCompactMember entry ++ writeCompactMembers rest

end

end JsonValue

end RootFinding
