import RootFinding.Text.Printable

/-!
# Quoted text

Text is shown between single quotes, or between double quotes where it holds a single quote and no
double one. A backslash stands before the delimiter, before another backslash and in front of the
code of every character that does not print.
-/

namespace RootFinding

namespace Text

/-- The last `width` hexadecimal digits of a number, small letters, most significant first. -/
def hexDigits (width value : Nat) : List Char :=
  (List.range width).reverse.map fun place => Nat.digitChar ((value >>> (4 * place)) % 16)

/-- The letter for a tabulator or an end of a line. -/
def layoutLetter? : Char → Option Char
  | '\t' => some 't'
  | '\n' => some 'n'
  | '\r' => some 'r'
  | _ => none

/-- The code of a character, as short as it allows. -/
def codeLetters (point : Nat) : List Char :=
  if point < 0x100 then 'x' :: hexDigits 2 point
  else if point < 0x10000 then 'u' :: hexDigits 4 point
  else 'U' :: hexDigits 8 point

def quotedChar (delimiter c : Char) : List Char :=
  match layoutLetter? c with
  | some letter => ['\\', letter]
  | none =>
      if c = delimiter || c = '\\' then ['\\', c]
      else if isUnprinted c.toNat then '\\' :: codeLetters c.toNat
      else [c]

/-- The text between quotes. -/
def quoted (text : String) : String :=
  let delimiter :=
    if text.toList.contains '\'' && !text.toList.contains '"' then '"' else '\''
  String.ofList (delimiter :: text.toList.flatMap (quotedChar delimiter) ++ [delimiter])

end Text

end RootFinding
