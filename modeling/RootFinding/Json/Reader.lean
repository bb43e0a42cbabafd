import RootFinding.Decimal.Numeral
import RootFinding.Json.Value

/-!
# Reading JSON

The documents that are accepted: those of the standard, and the words `NaN`, `Infinity` and
`-Infinity` as numbers. A number with a point or an exponent is a double, any other an integer. The
last value of a repeated key wins. Nothing but blanks may follow the document. How deep lists and
records may be nested is for the caller to say.
-/

namespace RootFinding

namespace JsonValue

inductive ReadError where
  | malformed
  | tooManyDigits
  | tooDeep
  deriving Repr, DecidableEq

def isSpace (c : Char) : Bool :=
  c = ' ' || c = '\t' || c = '\n' || c = '\r'

def skipSpace (text : List Char) : List Char :=
  text.dropWhile isSpace

/-- The text behind a word that it starts with. -/
def afterWord? (word text : List Char) : Option (List Char) :=
  if word.isPrefixOf text then some (text.drop word.length) else none

def hexValue? (c : Char) : Option Nat :=
  if c.isDigit then some (c.toNat - '0'.toNat)
  else if 'a' ≤ c ∧ c ≤ 'f' then some (c.toNat - 'a'.toNat + 10)
  else if 'A' ≤ c ∧ c ≤ 'F' then some (c.toNat - 'A'.toNat + 10)
  else none

/-- The code unit that four hexadecimal digits spell. -/
def codeUnit? (a b c d : Char) : Option Nat := do
  let a ← hexValue? a
  let b ← hexValue? b
  let c ← hexValue? c
  let d ← hexValue? d
  return ((a * 16 + b) * 16 + c) * 16 + d

/-- The characters that a backslash and one letter stand for. -/
def escape? : Char → Option Char
  | '"' => some '"'
  | '\\' => some '\\'
  | '/' => some '/'
  | 'b' => some (Char.ofNat 0x08)
  | 'f' => some (Char.ofNat 0x0C)
  | 'n' => some '\n'
  | 'r' => some '\r'
  | 't' => some '\t'
  | _ => none

/-- The code point of a surrogate pair. -/
def pairPoint? (high low : Nat) : Option Nat :=
  if 0xD800 ≤ high && high ≤ 0xDBFF && 0xDC00 ≤ low && low ≤ 0xDFFF then
    some (0x10000 + (high - 0xD800) * 0x400 + (low - 0xDC00))
  else none

/-- The code points of code units, with every surrogate pair joined. -/
def joinedPairs : List Nat → List Nat
  | [] => []
  | [unit] => [unit]
  | unit :: next :: rest =>
      match pairPoint? unit next with
      | some point => point :: joinedPairs rest
      | none => unit :: joinedPairs (next :: rest)

/--
The code points of a string up to its closing quote; `seen` holds the units before, last first.
-/
def readUnits (seen : List Nat) : List Char → Except ReadError (List Nat × List Char)
  | '"' :: rest => .ok (joinedPairs seen.reverse, rest)
  | '\\' :: 'u' :: a :: b :: c :: d :: rest =>
      match codeUnit? a b c d with
      | some unit => readUnits (unit :: seen) rest
      | none => .error .malformed
  | '\\' :: letter :: rest =>
      match escape? letter with
      | some character => readUnits (character.toNat :: seen) rest
      | none => .error .malformed
  | c :: rest =>
      if c.toNat < 0x20 || c = '\\' then .error .malformed else readUnits (c.toNat :: seen) rest
  | [] => .error .malformed

/-- The digits of a fraction with its point, if one follows. -/
def fraction? : List Char → Option (List Char × List Char)
  | '.' :: rest =>
      let digits := rest.takeWhile Char.isDigit
      if digits.isEmpty then none else some (digits, rest.dropWhile Char.isDigit)
  | _ => none

/-- The power of ten of an exponent mark, if one follows. -/
def power? : List Char → Option (Int × List Char)
  | mark :: rest =>
      let (negative, unsigned) := Numeral.splitSign rest
      let digits := unsigned.takeWhile Char.isDigit
      if (mark = 'e' || mark = 'E') && !digits.isEmpty then
        let size : Int := Text.digitsValue digits
        some (if negative then -size else size, unsigned.dropWhile Char.isDigit)
      else none
  | [] => none

/-- A number behind its sign. -/
def readNumber (negative : Bool) (text : List Char) : Except ReadError (JsonValue × List Char) :=
  let run := text.takeWhile Char.isDigit
  let whole := if run.head? = some '0' then ['0'] else run
  let afterWhole := text.drop whole.length
  if whole.isEmpty then .error .malformed
  else
    let (decimals, afterDecimals) := (fraction? afterWhole).getD ([], afterWhole)
    let power := power? afterDecimals
    if decimals.isEmpty && power.isNone then
      if integerDigitLimit < whole.length then .error .tooManyDigits
      else
        let size : Int := Text.digitsValue whole
        .ok (.integer (if negative then -size else size), afterWhole)
    else
      let (exponent, rest) := power.getD (0, afterDecimals)
      let numeral := Numeral.finite negative (Text.digitsValue (whole ++ decimals))
        (exponent - decimals.length)
      .ok (.number numeral.toDouble, rest)

def readScalar (input : List Char) : Except ReadError (JsonValue × List Char) :=
  let words : List (String × JsonValue) :=
    [("null", .null), ("true", .boolean true), ("false", .boolean false),
      ("NaN", .number (0.0 / 0.0)), ("Infinity", .number (1.0 / 0.0)),
      ("-Infinity", .number (-(1.0 / 0.0)))]
  let found := words.findSome? fun (word, value) =>
    (afterWord? word.toList input).map fun rest => (value, rest)
  match found, input with
  | some reading, _ => .ok reading
  | none, '-' :: rest => readNumber true rest
  | none, _ => readNumber false input

mutual

/-- A value at the start of the text, nested at most `room` deep; `fuel` bounds the steps. -/
def readValue : (fuel room : Nat) → List Char → Except ReadError (JsonValue × List Char)
  | 0, _, _ => .error .malformed
  | fuel + 1, room, input =>
      match input, room with
      | '"' :: rest, _ => do
          let (points, after) ← readUnits [] rest
          return (ofPoints points, after)
      | '[' :: _, 0 | '\x7b' :: _, 0 => .error .tooDeep
      | '[' :: rest, room + 1 =>
          match skipSpace rest with
          | ']' :: after => .ok (.list [], after)
          | items => readItems fuel room [] items
      | '\x7b' :: rest, room + 1 =>
          match skipSpace rest with
          | '\x7d' :: after => .ok (.record [], after)
          | members => readMembers fuel room [] members
      | _, _ => readScalar input

/-- The items of a list from one that must follow; `seen` holds those before it, last first. -/
def readItems :
    (fuel room : Nat) → List JsonValue → List Char → Except ReadError (JsonValue × List Char)
  | 0, _, _, _ => .error .malformed
  | fuel + 1, room, seen, input => do
      let (item, after) ← readValue fuel room input
      match skipSpace after with
      | ',' :: rest => readItems fuel room (item :: seen) (skipSpace rest)
      | ']' :: rest => return (.list (item :: seen).reverse, rest)
      | _ => .error .malformed

/-- The members of a record from one that must follow; `seen` holds those before it. -/
def readMembers :
    (fuel room : Nat) → List (String × JsonValue) → List Char →
      Except ReadError (JsonValue × List Char)
  | 0, _, _, _ => .error .malformed
  | fuel + 1, room, seen, input =>
      match input with
      | '"' :: rest => do
          let (key, afterKey) ← readUnits [] rest
          match skipSpace afterKey with
          | ':' :: beforeValue =>
              let (value, after) ← readValue fuel room (skipSpace beforeValue)
              let members := insertMember (pointsText key) value seen
              match skipSpace after with
              | ',' :: next => readMembers fuel room members (skipSpace next)
              | '\x7d' :: next => return (.record members, next)
              | _ => .error .malformed
          | _ => .error .malformed
      | _ => .error .malformed

end

/-- The document that a text holds, with lists and records nested at most `levels` deep. -/
def read (levels : Nat) (document : List Char) : Except ReadError JsonValue := do
  let (value, rest) ← readValue (2 * document.length + 2) levels (skipSpace document)
  if (skipSpace rest).isEmpty then return value else .error .malformed

end JsonValue

end RootFinding
