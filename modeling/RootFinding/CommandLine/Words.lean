import RootFinding.Text.Blank
import RootFinding.Text.Digit

/-!
# Words of a command line

An argument is a value, an option, or the divider behind which everything is a value. An option may
be shortened as long as no other begins alike, and may carry its value behind an equals sign. What
starts like an option is a value all the same if it is a plain negative number or holds a blank.
-/

namespace RootFinding

inductive CommandOption where
  | help
  | guess
  | method
  | epsilon
  | limit
  | seed
  | verbose
  deriving Repr, DecidableEq

/-- An argument of the command line. -/
inductive CommandWord where
  | value (text : String)
  | divider
  | known (option : CommandOption) (isShort : Bool) (attached : Option (List Char))
  | unknown
  deriving Repr, DecidableEq

namespace CommandOption

def spellings : List (List Char × CommandOption) :=
  [("-h", help), ("--help", help), ("--x0", guess), ("--method", method), ("--epsilon", epsilon),
    ("--max-iterations", limit), ("--seed", seed), ("-v", verbose), ("--verbose", verbose)].map
    fun (spelling, option) => (spelling.toList, option)

/-- The option of an exact spelling. -/
def spelled? (spelling : List Char) : Option CommandOption :=
  spellings.lookup spelling

/-- The options whose spelling begins in a given way. -/
def beginning (start : List Char) : List CommandOption :=
  (spellings.filter fun entry => start.isPrefixOf entry.1).map (·.2)

end CommandOption

namespace CommandWord

/-- The text before the first equals sign and the text behind it. -/
def splitEquals? (text : List Char) : Option (List Char × List Char) :=
  if text.contains '=' then
    some (text.takeWhile (· ≠ '='), (text.dropWhile (· ≠ '=')).drop 1)
  else none

/--
A minus sign and digits, with at most one point that digits follow; a line end may stand behind
them.
-/
def isNegativeNumber (text : List Char) : Bool :=
  let isDigit := fun c => (Text.digitValue? c).isSome
  match Text.withoutLineEnd text with
  | '-' :: number =>
      match number.dropWhile isDigit with
      | [] => !number.isEmpty
      | '.' :: decimals => !decimals.isEmpty && decimals.all isDigit
      | _ => false
  | _ => false

/-- A long option by its beginning, if just one begins so; none is the error of more than one. -/
def shortened? (text : List Char) : Option (Option CommandWord) :=
  let (start, attached) :=
    match splitEquals? text with
    | some (start, attached) => (start, some attached)
    | none => (text, none)
  match CommandOption.beginning start with
  | [] => some none
  | [option] => some (some (.known option false attached))
  | _ => none

/-- A short option with what is written directly behind it. -/
def clustered? (text : List Char) : Option CommandWord :=
  (CommandOption.spelled? (text.take 2)).map fun option =>
    .known option true (some (text.drop 2))

/-- What an argument is that starts with a minus sign and is no exact spelling. -/
def ofDashed? (text : List Char) : Option CommandWord :=
  let isLong := (text.drop 1).head? = some '-'
  match if isLong then shortened? text else some (clustered? text) with
  | none => none
  | some (some word) => some word
  | some none =>
      if isNegativeNumber text || text.contains ' ' then some (.value (String.ofList text))
      else some .unknown

/-- What an argument before the divider is; none if it begins like several options. -/
def ofText? (argument : String) : Option CommandWord :=
  let text := argument.toList
  let attachedTo :=
    (splitEquals? text).bind fun (spelling, attached) =>
      (CommandOption.spelled? spelling).map fun option =>
        CommandWord.known option (spelling.length = 2) (some attached)
  match text with
  | '-' :: _ :: _ =>
      match CommandOption.spelled? text, attachedTo with
      | some option, _ => some (.known option (text.length = 2) none)
      | none, some word => some word
      | none, none => ofDashed? text
  | _ => some (.value argument)

/-- The words of a command line; behind the divider there are only values. -/
def ofArguments? : List String → Option (List CommandWord)
  | [] => some []
  | "--" :: rest => some (divider :: rest.map value)
  | argument :: rest => do
      let word ← ofText? argument
      return word :: (← ofArguments? rest)

/-- Neither an option nor anything that looks like one. -/
def isOperand : CommandWord → Bool
  | .value _ | .divider => true
  | _ => false

def value? : CommandWord → Option String
  | .value text => some text
  | _ => none

end CommandWord

end RootFinding
