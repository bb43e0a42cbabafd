import RootFinding.Decimal.Numeral

/-!
# Lexemes of formulas

Numerals with a point or an exponent, integers without needless leading zeros, names, operators and
parentheses. A blank ends a numeral or a name; an end of a line is a blank between parentheses only.
-/

namespace RootFinding

/-- One word of a formula. -/
inductive Lexeme where
  | numeral (digits : Nat) (exponent : Int)
  | name (characters : List Char)
  | plus
  | minus
  | times
  | divide
  | power
  | opening
  | closing
  deriving Repr, DecidableEq

namespace Lexeme

/-- Names start with a letter or an underscore. -/
def startsName (c : Char) : Bool :=
  c.isAlpha || c = '_'

/-- Names go on with letters, digits and underscores. -/
def continuesName (c : Char) : Bool :=
  c.isAlphanum || c = '_'

def isGap (c : Char) : Bool :=
  c = ' ' || c = '\t' || c.toNat = 0x0C

def endsLine (c : Char) : Bool :=
  c = '\n' || c = '\r'

/-- An exponent at the start of a text, and the text after it. -/
def exponent? : List Char → Option (Int × List Char)
  | mark :: rest =>
      let (negative, unsigned) := Numeral.splitSign rest
      let digits := unsigned.takeWhile Char.isDigit
      if (mark = 'e' || mark = 'E') && !digits.isEmpty then
        let size : Int := Text.digitsValue digits
        some (if negative then -size else size, unsigned.dropWhile Char.isDigit)
      else none
  | [] => none

/-- An integer is zero or starts with another digit, and it is not too long to be read. -/
def isPlainInteger (digits : List Char) : Bool :=
  (digits.head? ≠ some '0' || digits.all (· = '0')) && digits.length ≤ integerDigitLimit

/-- The numeral at the start of a text, and the text after it. -/
def numeral? (text : List Char) : Option (Lexeme × List Char) :=
  let whole := text.takeWhile Char.isDigit
  let afterWhole := text.dropWhile Char.isDigit
  let (pointed, decimals, afterDecimals) :=
    match afterWhole with
    | '.' :: rest => (true, rest.takeWhile Char.isDigit, rest.dropWhile Char.isDigit)
    | rest => (false, [], rest)
  if whole.isEmpty && decimals.isEmpty then none
  else
    match exponent? afterDecimals with
    | some (exponent, rest) =>
        some (.numeral (Text.digitsValue (whole ++ decimals)) (exponent - decimals.length), rest)
    | none =>
        if pointed || isPlainInteger whole then
          some (.numeral (Text.digitsValue (whole ++ decimals)) (-(decimals.length : Int)),
            afterDecimals)
        else none

/-- The operator or parenthesis at the start of a text, and the text after it. -/
def symbol? : List Char → Option (Lexeme × List Char)
  | '*' :: '*' :: rest => some (.power, rest)
  | '*' :: rest => some (.times, rest)
  | '+' :: rest => some (.plus, rest)
  | '-' :: rest => some (.minus, rest)
  | '/' :: rest => some (.divide, rest)
  | '(' :: rest => some (.opening, rest)
  | ')' :: rest => some (.closing, rest)
  | _ => none

/-- The lexeme at the start of a text, and the text after it. -/
def first? : List Char → Option (Lexeme × List Char)
  | [] => none
  | c :: rest =>
      if startsName c then
        some (.name (c :: rest.takeWhile continuesName), rest.dropWhile continuesName)
      else if c.isDigit || c = '.' then numeral? (c :: rest)
      else symbol? (c :: rest)

/-- The number of open parentheses after a lexeme. -/
def depthAfter (depth : Nat) : Lexeme → Nat
  | .opening => depth + 1
  | .closing => depth - 1
  | _ => depth

/-- Cut a text into lexemes; `fuel` bounds their number and the blanks between them. -/
def cut : (fuel depth : Nat) → List Char → Option (List Lexeme)
  | _, _, [] => some []
  | 0, _, _ => none
  | fuel + 1, depth, c :: rest =>
      if isGap c || (endsLine c && 0 < depth) then cut fuel depth rest
      else do
        let (lexeme, after) ← first? (c :: rest)
        let later ← cut fuel (depthAfter depth lexeme) after
        return lexeme :: later

def ofText? (text : List Char) : Option (List Lexeme) :=
  cut text.length 0 text

end Lexeme

end RootFinding
