import RootFinding.CommandLine.Words
import RootFinding.Request
import RootFinding.Settings

/-!
# Arguments of a command line

The equations are the first run of values; options may stand before and behind them, each with the
values that it takes. An option that comes again replaces what it said before. What no option and no
run of equations takes is left over, which is found wrong only at the end, so that a later wish for
help is still granted. Defaults come from the settings: one that is a string is converted as if it
had been typed.
-/

namespace RootFinding

/-- Why a command line is not run. -/
inductive UsageError where
  | rejected
  | helpWanted
  deriving Repr, DecidableEq

/-- What the options said so far. -/
structure Arguments where
  equations : Option (List String)
  guess : Option (List Float)
  method : Option String
  epsilon : Option Float
  limit : Option Int
  seed : Option Int
  verbose : Bool
  /-- Something stands on the line that nothing takes. -/
  leftOver : Bool

namespace Arguments

/-- Nothing said. -/
def empty : Arguments where
  equations := none
  guess := none
  method := none
  epsilon := none
  limit := none
  seed := none
  verbose := false
  leftOver := false

def readNumber (text : String) : Except UsageError Float :=
  match Numeral.ofText? text with
  | some numeral => .ok numeral.toDouble
  | none => .error .rejected

def readInteger (text : String) : Except UsageError Int :=
  match integerOfText? text with
  | some value => .ok value
  | none => .error .rejected

/-- The name of a method as typed. -/
def readMethod (text : String) : Except UsageError String :=
  if text = Method.newton.key || text = Method.secant.key then .ok text else .error .rejected

/-- The arguments after an option with its values. -/
def set (arguments : Arguments) : CommandOption → List String → Except UsageError Arguments
  | .help, [] => .error .helpWanted
  | .verbose, [] => .ok { arguments with verbose := true }
  | .guess, first :: rest => do
      return { arguments with guess := some (← (first :: rest).mapM readNumber) }
  | .method, [text] => do return { arguments with method := some (← readMethod text) }
  | .epsilon, [text] => do return { arguments with epsilon := some (← readNumber text) }
  | .limit, [text] => do return { arguments with limit := some (← readInteger text) }
  | .seed, [text] => do return { arguments with seed := some (← readInteger text) }
  | _, _ => .error .rejected

/-- How many of the values that follow an option it takes. -/
def taken : CommandOption → (values : List String) → List String
  | .help, _ | .verbose, _ => []
  | .guess, values => values
  | _, values => values.take 1

/-- The short options that letters written together stand for, if each of them is one. -/
def cluster? (letters : List Char) : Option (List CommandOption) :=
  letters.mapM fun letter => CommandOption.spelled? ['-', letter]

/-- The arguments after options that take no values. -/
def setFlags (arguments : Arguments) (flags : List CommandOption) :
    Except UsageError Arguments :=
  flags.foldlM (fun current flag => current.set flag []) arguments

/-- The arguments after an option that stands in front of some values, and how many it took. -/
def setOption
    (arguments : Arguments)
    (option : CommandOption)
    (isShort : Bool)
    (attached : Option (List Char))
    (values : List String) :
    Except UsageError (Arguments × Nat) :=
  match option, isShort, attached with
  | _, _, none => do
      let own := taken option values
      return (← arguments.set option own, own.length)
  | .help, _, some [] | .verbose, _, some [] => .error .rejected
  | _, true, some letters =>
      match cluster? letters with
      | some others => do return (← arguments.setFlags (option :: others), 0)
      | none => .error .rejected
  | _, false, some text => do
      return (← arguments.set option [String.ofList text], 0)

/-- The arguments after a run of operands; only the first run holds the equations. -/
def setOperands (arguments : Arguments) (run : List CommandWord) : Arguments :=
  let values := run.filterMap CommandWord.value?
  if arguments.equations.isSome || values.isEmpty then { arguments with leftOver := true }
  else { arguments with equations := some values }

/-- Read the words of a command line, at most `fuel` groups of them. -/
def readFrom : (fuel : Nat) → Arguments → List CommandWord → Except UsageError Arguments
  | 0, _, _ => .error .rejected
  | fuel + 1, arguments, words =>
      match words with
      | [] => .ok arguments
      | .unknown :: rest => readFrom fuel { arguments with leftOver := true } rest
      | .known option isShort attached :: rest => do
          let values := (rest.takeWhile fun word => word.value?.isSome).filterMap CommandWord.value?
          let (next, count) ← arguments.setOption option isShort attached values
          readFrom fuel next (rest.drop count)
      | _ =>
          readFrom fuel (arguments.setOperands (words.takeWhile CommandWord.isOperand))
            (words.dropWhile CommandWord.isOperand)

/-- The arguments of a command line; equations have to be among them and nothing left over. -/
def ofList (texts : List String) : Except UsageError Arguments :=
  match CommandWord.ofArguments? texts with
  | none => .error .rejected
  | some words => do
      let arguments ← readFrom (words.length + 1) empty words
      if arguments.equations.isSome && !arguments.leftOver then return arguments
      else .error .rejected

/-- A default; a string is converted as if it had been typed. -/
def converted {α : Type}
    (read : String → Except UsageError α)
    (shown : α → JsonValue) :
    JsonValue → Except UsageError JsonValue
  | .text text => do return shown (← read text)
  | value => .ok value

/-- The request of a command line and a starting point, with defaults from the settings. -/
def request (arguments : Arguments) (settings : Settings) (guess : List Float) :
    Except UsageError SolveRequest := do
  let epsilon ←
    match arguments.epsilon with
    | some value => pure (JsonValue.number value)
    | none => converted readNumber .number (settings.get "epsilon")
  let limit ←
    match arguments.limit with
    | some value => pure (JsonValue.integer value)
    | none => converted readInteger .integer (settings.get "max_iterations")
  return {
    equations := .list ((arguments.equations.getD []).map .text)
    guess := .list (guess.map .number)
    epsilon
    method := (arguments.method.map .text).getD (settings.get "method")
    limit }

end Arguments

end RootFinding
