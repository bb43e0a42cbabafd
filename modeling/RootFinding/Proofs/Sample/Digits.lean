import Mathlib.Algebra.Order.Ring.Nat
import Mathlib.Data.List.Induction
import RootFinding.Decimal.Layout
import RootFinding.Proofs.Grammar.Derivation

/-!
# Written digits

The digits of a number spell the number, also with zeros in front of them, and digits that begin
with another one than zero are those of the number that they spell. The digits of a decimal with a
point between them are a number of the grammar of expressions. It stands for as many units of its
last place as were written.
-/

namespace RootFinding

namespace Text

open Grammar

theorem digitsValue_eq_ofDigitChars (digits : List Char) :
    digitsValue digits = Nat.ofDigitChars 10 digits 0 := by
  rw [digitsValue, Nat.ofDigitChars_eq_foldl]
  congr 1
  funext value c
  rw [Nat.mul_comm]

theorem digitsValue_toDigits (n : Nat) : digitsValue (Nat.toDigits 10 n) = n := by
  rw [digitsValue_eq_ofDigitChars, Nat.ofDigitChars_ten_toDigits]

theorem isDigits_toDigits (n : Nat) : IsDigits (Nat.toDigits 10 n) where
  nonempty := Nat.toDigits_ne_nil
  plain _ member := Nat.isDigit_of_mem_toDigits (by decide) (by decide) member

theorem digitsValue_concat (digits : List Char) (c : Char) :
    digitsValue (digits ++ [c]) = 10 * digitsValue digits + (c.toNat - '0'.toNat) := by
  simp only [digitsValue, List.foldl_append, List.foldl_cons, List.foldl_nil, Nat.mul_comm]

/-- Zeros in front of digits do not count. -/
theorem digitsValue_dropWhile_zero (digits : List Char) :
    digitsValue (digits.dropWhile (· = '0')) = digitsValue digits := by
  induction digits with
  | nil => rfl
  | cons c rest inductionHypothesis =>
      by_cases zero : c = '0'
      · subst c
        rw [List.dropWhile_cons_of_pos (by simp), inductionHypothesis]
        rfl
      · rw [List.dropWhile_cons_of_neg (by simpa using zero)]

theorem toDigits_digit
    {c : Char}
    (digit : c.isDigit = true) :
    c.toNat - '0'.toNat < 10 ∧ Nat.toDigits 10 (c.toNat - '0'.toNat) = [c] := by
  obtain ⟨above, below⟩ := code_of_isDigit digit
  have small : c.toNat - '0'.toNat < 10 := by
    change c.toNat - 48 < 10
    omega
  refine ⟨small, ?_⟩
  have code : (Nat.digitChar (c.toNat - '0'.toNat)).toNat = c.toNat := by
    rw [Nat.toNat_digitChar_of_lt_ten small]
    change 48 + (c.toNat - 48) = c.toNat
    omega
  rw [Nat.toDigits_of_lt_base small, Char.toNat_inj.mp code]

/-- Digits that begin with another one than zero are those of their value. -/
theorem toDigits_digitsValue
    {digits : List Char}
    (nonempty : digits ≠ [])
    (plain : ∀ c ∈ digits, c.isDigit = true)
    (significant : digits.head? ≠ some '0') :
    Nat.toDigits 10 (digitsValue digits) = digits := by
  induction digits using List.reverseRecOn with
  | nil => exact absurd rfl nonempty
  | append_singleton front c inductionHypothesis =>
      obtain ⟨small, single⟩ := toDigits_digit (plain c (by simp))
      rw [digitsValue_concat]
      cases front with
      | nil => simpa [digitsValue] using single
      | cons first more =>
          have same :=
            inductionHypothesis (List.cons_ne_nil _ _)
              (fun d member => plain d (List.mem_append_left _ member)) significant
          have positive : 0 < digitsValue (first :: more) := by
            refine Nat.pos_of_ne_zero fun zero => significant ?_
            rw [zero, Nat.toDigits_zero] at same
            rw [← same]
            rfl
          rw [← Nat.toDigits_append_toDigits (by decide) positive small, same, single]

/-- The digits of a positive number do not begin with a zero. -/
theorem head?_toDigits
    {n : Nat}
    (positive : 0 < n) :
    (Nat.toDigits 10 n).head? ≠ some '0' := by
  have plain := (isDigits_toDigits n).plain
  have spelled := digitsValue_toDigits n
  rw [← digitsValue_dropWhile_zero] at spelled
  generalize kept_eq : (Nat.toDigits 10 n).dropWhile (· = '0') = kept at spelled
  have significant : kept.head? ≠ some '0' := by
    intro zero
    rw [← kept_eq] at zero
    have stops := List.head?_dropWhile_not (· = '0') (Nat.toDigits 10 n)
    rw [zero] at stops
    simp at stops
  have nonempty : kept ≠ [] := by
    rintro rfl
    exact absurd spelled (Nat.ne_of_lt positive)
  have same : Nat.toDigits 10 n = kept := by
    rw [← spelled]
    refine toDigits_digitsValue nonempty ?_ significant
    intro c member
    rw [← kept_eq] at member
    exact plain c ((List.dropWhile_sublist _).subset member)
  rw [same]
  exact significant

theorem digitsValue_append_zeros (digits : List Char) (zeros : Nat) :
    digitsValue (digits ++ List.replicate zeros '0') = digitsValue digits * 10 ^ zeros := by
  rw [digitsValue_eq_ofDigitChars, digitsValue_eq_ofDigitChars, Nat.ofDigitChars_append,
    Nat.ofDigitChars_replicate_zero, Nat.mul_comm]

/-- Zeros in front of digits are worth nothing. -/
theorem digitsValue_zeros_append (zeros : Nat) (digits : List Char) :
    digitsValue (List.replicate zeros '0' ++ digits) = digitsValue digits := by
  rw [digitsValue_eq_ofDigitChars, digitsValue_eq_ofDigitChars, Nat.ofDigitChars_append,
    Nat.ofDigitChars_replicate_zero, Nat.mul_zero]

theorem isDigits_zeros_append
    {text : List Char}
    (digits : IsDigits text)
    (zeros : Nat) :
    IsDigits (List.replicate zeros '0' ++ text) where
  nonempty := by simp [digits.nonempty]
  plain c member := by
    rcases List.mem_append.mp member with zero | digit
    · rw [List.eq_of_mem_replicate zero]
      rfl
    · exact digits.plain c digit

theorem isDigits_append_zeros
    {text : List Char}
    (digits : IsDigits text)
    (zeros : Nat) :
    IsDigits (text ++ List.replicate zeros '0') where
  nonempty := by simp [digits.nonempty]
  plain c member := by
    rcases List.mem_append.mp member with digit | zero
    · exact digits.plain c digit
    · rw [List.eq_of_mem_replicate zero]
      rfl

end Text

namespace Decimal

open Grammar

/-- Padded digits are worth the number that they pad. -/
theorem digitsValue_paddedDigits (width n : Nat) :
    Text.digitsValue (paddedDigits width n) = n := by
  rw [paddedDigits, Text.digitsValue_zeros_append, Text.digitsValue_toDigits]

theorem isDigits_paddedDigits (width n : Nat) : IsDigits (paddedDigits width n) :=
  Text.isDigits_zeros_append (Text.isDigits_toDigits n) _

theorem le_length_paddedDigits (width n : Nat) : width ≤ (paddedDigits width n).length := by
  simp only [paddedDigits, List.length_append, List.length_replicate]
  omega

/-- A decimal with a point is a number that stands for its units of the last place. -/
theorem derivesNumber_pointed
    {places : Nat}
    (positive : 0 < places)
    (units : Nat) :
    DerivesNumber (pointed places units) units places := by
  have long := le_length_paddedDigits (places + 1) units
  have spelled := digitsValue_paddedDigits (places + 1) units
  have digits := isDigits_paddedDigits (places + 1) units
  rw [pointed, if_neg (Nat.ne_of_gt positive)]
  generalize paddedDigits (places + 1) units = written at long spelled digits ⊢
  generalize cut_eq : written.length - places = cut
  have behind : (written.drop cut).length = places := by
    rw [List.length_drop]
    omega
  rw [← List.take_append_drop cut written] at spelled digits
  have number := DerivesNumber.pointed digits
  rwa [spelled, behind] at number

/-- Digits with a point hold the digits and the point only. -/
theorem mem_pointed
    {places units : Nat}
    {c : Char}
    (member : c ∈ pointed places units) :
    c = '.' ∨ c ∈ paddedDigits (places + 1) units := by
  unfold pointed at member
  dsimp only at member
  split at member
  · exact .inr member
  · rcases List.mem_append.mp member with whole | rest
    · exact .inr (List.mem_of_mem_take whole)
    · rcases List.mem_cons.mp rest with rfl | decimals
      · exact .inl rfl
      · exact .inr (List.mem_of_mem_drop decimals)

/-- Zero is written with zeros alone. -/
theorem eq_zero_of_mem_paddedDigits
    {width : Nat}
    {c : Char}
    (member : c ∈ paddedDigits width 0) :
    c = '0' := by
  rw [paddedDigits, Nat.toDigits_zero] at member
  rcases List.mem_append.mp member with padding | digit
  · exact List.eq_of_mem_replicate padding
  · exact List.mem_singleton.mp digit

end Decimal

end RootFinding
