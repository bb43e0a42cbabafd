import RootFinding.Decimal.Numeral

/-!
# Numbers given as strings

A field that holds a number may give it as a string in the digits 0 to 9, with blanks around it.
Underscores may group the digits, and an integer may start with zeros and end with a point and
zeros. Grouping is looked at last, so zeros in front may be grouped in any way.
-/

namespace RootFinding

namespace NumberText

/-- Why a string is no integer. -/
inductive IntegerFault where
  | unreadable
  | tooLong
  deriving Repr, DecidableEq

/-- The text from the first digit that is not a zero, or from the zero before a point or the end. -/
def fromLeadingDigit? (last : Char) : List Char → Option (List Char)
  | [] => some [last]
  | c :: rest =>
      if c = '0' || c = '_' then fromLeadingDigit? c rest
      else if c.isDigit then some (c :: rest)
      else if c = '.' then some (last :: c :: rest)
      else none

/-- The text without needless zeros in front; zeros behind a minus sign stay. -/
def withoutLeadingZeros? : List Char → Option (List Char)
  | '0' :: rest => fromLeadingDigit? '0' rest
  | c :: rest => if c.isDigit || c = '-' then some (c :: rest) else none
  | [] => none

def withoutPlus? : List Char → Option (List Char)
  | '+' :: '-' :: _ => none
  | '+' :: rest => some rest
  | text => some text

/-- The text without a point behind which there are only zeros. -/
def withoutZeroFraction (text : List Char) : List Char :=
  let behind := (text.dropWhile (· ≠ '.')).drop 1
  if behind.all (· = '0') then text.takeWhile (· ≠ '.') else text

def hasDoubleUnderscore : List Char → Bool
  | '_' :: '_' :: _ => true
  | _ :: rest => hasDoubleUnderscore rest
  | [] => false

/-- The text without its underscores, unless one is at an end or next to another. -/
def ungrouped? (text : List Char) : Option (List Char) :=
  if text.head? = some '_' || text.getLast? = some '_' || hasDoubleUnderscore text then none
  else some (text.filter (· ≠ '_'))

/-- An integer without needless zeros; its text may be only so long. -/
def plainInteger (text : List Char) : Except IntegerFault Int :=
  let (negative, unsigned) :=
    match text with
    | '-' :: rest => (true, rest)
    | rest => (false, rest)
  let digits := unsigned.takeWhile Char.isDigit
  let size : Int := Text.digitsValue digits
  match unsigned with
  | ['0'] => .ok 0
  | '0' :: _ => .error .unreadable
  | _ =>
      if digits.isEmpty then .error .unreadable
      else if integerDigitLimit < text.length - unsigned.length + digits.length then
        .error .tooLong
      else if digits ≠ unsigned then .error .unreadable
      else .ok (if negative then -size else size)

def integer (text : String) : Except IntegerFault Int :=
  let stripped := do
    let unsigned ← withoutPlus? (Text.trimmedBy Text.isNumeralBlank text.toList)
    return withoutZeroFraction (← withoutLeadingZeros? unsigned)
  match stripped with
  | none => .error .unreadable
  | some digits => plainInteger ((ungrouped? digits).getD digits)

/-- The numeral that a string gives; blanks may surround it unless underscores group it. -/
def numeral? (text : String) : Option Numeral :=
  match Numeral.ofPlain? (Text.trimmedBy Text.isNumeralBlank text.toList) with
  | some numeral => some numeral
  | none => (ungrouped? text.toList).bind Numeral.ofPlain?

end NumberText

end RootFinding
