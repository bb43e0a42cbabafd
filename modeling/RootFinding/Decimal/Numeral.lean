import RootFinding.Text.Blank
import RootFinding.Text.Digit

/-!
# Numerals

How numbers are read from free text. A numeral is a sign and digits of any script, grouped by
single underscores if at all, with at most one point and a power of ten; or one of the words for
infinity and for the undefined value, in any case. Blanks may surround it.
-/

namespace RootFinding

/-- A number as it is written: `digits · 10 ^ exponent` with a sign, or a word. -/
inductive Numeral where
  | finite (negative : Bool) (digits : Nat) (exponent : Int)
  | infinite (negative : Bool)
  | undefined
  deriving Repr, DecidableEq

namespace Numeral

/-- A leading sign and what follows it. -/
def splitSign : List Char → Bool × List Char
  | '-' :: rest => (true, rest)
  | '+' :: rest => (false, rest)
  | rest => (false, rest)

/-- The power of ten that ends a numeral, zero where there is none. -/
def exponent? : List Char → Option Int
  | [] => some 0
  | mark :: rest =>
      let (negative, digits) := splitSign rest
      if (mark = 'e' || mark = 'E') && !digits.isEmpty && digits.all Char.isDigit then
        let size : Int := Text.digitsValue digits
        some (if negative then -size else size)
      else none

/-- A numeral in the digits 0 to 9 without sign. -/
def magnitude? (text : List Char) : Option (Nat × Int) :=
  let whole := text.takeWhile Char.isDigit
  let afterWhole := text.dropWhile Char.isDigit
  let (decimals, afterDecimals) :=
    match afterWhole with
    | '.' :: rest => (rest.takeWhile Char.isDigit, rest.dropWhile Char.isDigit)
    | rest => ([], rest)
  if whole.isEmpty && decimals.isEmpty then none
  else
    (exponent? afterDecimals).map fun exponent =>
      (Text.digitsValue (whole ++ decimals), exponent - decimals.length)

/-- The text behind the sign, in digits 0 to 9 and small letters. -/
def ofUnsigned? (negative : Bool) (text : List Char) : Option Numeral :=
  let word := text.map Char.toLower
  if word = "inf".toList || word = "infinity".toList then some (.infinite negative)
  else if word = "nan".toList then some .undefined
  else
    (magnitude? text).map fun (digits, exponent) => .finite negative digits exponent

/-- Read a numeral that stands alone and is written in the digits 0 to 9 without grouping. -/
def ofPlain? (text : List Char) : Option Numeral :=
  let (negative, rest) := splitSign text
  ofUnsigned? negative rest

/-- The text of a numeral in plain digits and without the blanks around it. -/
def plainText (text : String) : List Char :=
  (Text.trimmedBy Text.isNumeralBlank text.toList).map Text.plainDigit

def ofText? (text : String) : Option Numeral :=
  (Text.ungrouped? none (plainText text)).bind ofPlain?

/-- The double nearest to a numeral. -/
def toDouble : Numeral → Float
  | .finite negative digits exponent =>
      let size : Float :=
        OfScientific.ofScientific digits (exponent < 0) exponent.natAbs
      if negative then -size else size
  | .infinite negative => if negative then -(1.0 / 0.0) else 1.0 / 0.0
  | .undefined => 0.0 / 0.0

/-- The double nearest to an integer, unless that is infinite. -/
def doubleOfInt? (value : Int) : Option Float :=
  let nearest := toDouble (.finite (value < 0) value.natAbs 0)
  if nearest.isFinite then some nearest else none

end Numeral

/-- Integers with more digits than this are neither read nor written. -/
def integerDigitLimit : Nat := 4300

/-- Read an integer: a sign and digits of any script, grouped by single underscores if at all. -/
def integerOfText? (text : String) : Option Int :=
  (Text.ungrouped? none (Numeral.plainText text)).bind fun characters =>
    let (negative, digits) := Numeral.splitSign characters
    if digits.isEmpty || !digits.all Char.isDigit || integerDigitLimit < digits.length then none
    else
      let size : Int := Text.digitsValue digits
      some (if negative then -size else size)

end RootFinding
