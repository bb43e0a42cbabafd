/-!
# Decimal digits of all scripts

A numeral may be written in the decimal digits of any script of Unicode. The digits of one script
are ten code points in a row, so the table lists where each row starts.
-/

namespace RootFinding

namespace Text

/-- The code points of the digit zero. -/
def digitZeros : List Nat :=
  [0x30, 0x660, 0x6F0, 0x7C0, 0x966, 0x9E6, 0xA66, 0xAE6, 0xB66, 0xBE6, 0xC66, 0xCE6, 0xD66,
    0xDE6, 0xE50, 0xED0, 0xF20, 0x1040, 0x1090, 0x17E0, 0x1810, 0x1946, 0x19D0, 0x1A80, 0x1A90,
    0x1B50, 0x1BB0, 0x1C40, 0x1C50, 0xA620, 0xA8D0, 0xA900, 0xA9D0, 0xA9F0, 0xAA50, 0xABF0,
    0xFF10, 0x104A0, 0x10D30, 0x11066, 0x110F0, 0x11136, 0x111D0, 0x112F0, 0x11450, 0x114D0,
    0x11650, 0x116C0, 0x11730, 0x118E0, 0x11950, 0x11C50, 0x11D50, 0x11DA0, 0x16A60, 0x16AC0,
    0x16B50, 0x1D7CE, 0x1D7D8, 0x1D7E2, 0x1D7EC, 0x1D7F6, 0x1E140, 0x1E2F0, 0x1E950, 0x1FBF0]

/-- The value of a decimal digit of any script. -/
def digitValue? (c : Char) : Option Nat :=
  (digitZeros.find? fun start => start ≤ c.toNat && c.toNat < start + 10).map (c.toNat - ·)

/-- A digit of any script as the digit 0 to 9 of its value, all else as it is. -/
def plainDigit (c : Char) : Char :=
  match digitValue? c with
  | some value => Char.ofNat ('0'.toNat + value)
  | none => c

/-- The number that a run of the digits 0 to 9 spells. -/
def digitsValue (digits : List Char) : Nat :=
  digits.foldl (fun value c => value * 10 + (c.toNat - '0'.toNat)) 0

/--
The text without the underscores that group its digits, if each of them stands between two
digits.
-/
def ungrouped? : Option Char → List Char → Option (List Char)
  | _, [] => some []
  | before, '_' :: rest =>
      match before, rest with
      | some b, a :: _ =>
          if b.isDigit && a.isDigit then ungrouped? (some '_') rest else none
      | _, _ => none
  | _, c :: rest => (ungrouped? (some c) rest).map (c :: ·)

theorem code_of_isDigit
    {c : Char}
    (digit : c.isDigit = true) :
    48 ≤ c.toNat ∧ c.toNat ≤ 57 := by
  simp only [Char.isDigit, Bool.and_eq_true, decide_eq_true_eq] at digit
  exact digit

end Text

end RootFinding
