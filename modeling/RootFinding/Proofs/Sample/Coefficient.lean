import RootFinding.Proofs.Double.Reading
import RootFinding.Proofs.Sample.Digits
import RootFinding.Proofs.Sample.Drawing

/-!
# Written coefficients

A coefficient that is printed as a quotient is written as its digits, in parentheses behind a minus
sign where it is negative. Every plain double is printed so. What is read of its digits has the sign
of the coefficient, unless every digit is zero.
-/

namespace RootFinding

open Double
open Float.Model
open Float.Model.UnpackedFloat

section Quotients

variable {K : Type} [Arithmetic K] [HasExactValue K]

/--
The value is printed as a quotient, and a comparison with zero tells its sign. Its size is printed as
the same quotient without a sign.
-/
structure IsQuotient (value : K) (numerator denominator : Nat) : Prop where
  exactValue_eq :
    HasExactValue.exactValue value = .quotient (Arithmetic.less value 0.0) numerator denominator
  exactValue_magnitude :
    HasExactValue.exactValue (Arithmetic.magnitude value) = .quotient false numerator denominator
  magnitude_not_less : Arithmetic.less (Arithmetic.magnitude value) 0.0 = false

variable {double : Float} {bound : Int}

/-- A plain double is a quotient, and has a sign where that is not zero. -/
theorem exists_isQuotient_of_isPlain (plain : IsPlain bound double) :
    ∃ numerator denominator,
      IsQuotient double numerator denominator ∧
        (numerator ≠ 0 →
          HasSign (if Arithmetic.less double 0.0 then .negative else .positive)
            (value double)) := by
  have exact_eq (a : Float) : HasExactValue.exactValue a = (binaryOf (value a)).toExact := by
    rw [← ofDouble_eq_binaryOf]
    rfl
  suffices parts :
      ∃ numerator denominator,
        HasExactValue.exactValue double =
            .quotient (Arithmetic.less double 0.0) numerator denominator ∧
          HasExactValue.exactValue (Arithmetic.magnitude double) =
            .quotient false numerator denominator ∧
          Arithmetic.less (Arithmetic.magnitude double) 0.0 = false ∧
          (numerator ≠ 0 →
            HasSign (if Arithmetic.less double 0.0 then .negative else .positive)
              (value double)) by
    obtain ⟨numerator, denominator, shown, size, notNegative, signed⟩ := parts
    exact ⟨numerator, denominator, ⟨shown, size, notNegative⟩, signed⟩
  rw [exact_eq, exact_eq, less_eq_lt, less_eq_lt, value_magnitude, value_zero]
  rcases plain.below.cases with
    ⟨sign, shape⟩ | ⟨sign, mantissa, exponent, positive, shape, canonical⟩
  · rw [shape, UnpackedFloat.abs, repacked_zero]
    cases sign with
    | negative => exact absurd shape plain.ne_negativeZero
    | positive => exact ⟨0, _, rfl, rfl, rfl, fun nonzero => absurd rfl nonzero⟩
  · have small := (isCanonical_of_unpack shape).2
    rw [shape, UnpackedFloat.abs, repacked_of_isCanonical .positive positive canonical small]
    cases sign with
    | positive => exact ⟨_, _, rfl, rfl, rfl, fun _ => .finite positive⟩
    | negative => exact ⟨_, _, rfl, rfl, rfl, fun _ => .finite positive⟩

end Quotients

namespace WrittenCoefficient

section Digits

variable {K : Type} [Arithmetic K] [HasExactValue K]

/-- The units of the last place that is written. -/
def units (coefficient : WrittenCoefficient K) : Nat :=
  match HasExactValue.exactValue coefficient.value with
  | .quotient _ numerator denominator =>
      Decimal.roundedQuotient (numerator * Decimal.powerOfTen coefficient.decimals) denominator
  | _ => 0

/-- The digits that are written, without a sign. -/
def digits (coefficient : WrittenCoefficient K) : List Char :=
  Decimal.pointed coefficient.decimals coefficient.units

variable {coefficient : WrittenCoefficient K} {numerator denominator : Nat}

/-- A coefficient is put in parentheses exactly where its value is below zero. -/
theorem toList_text (quotient : IsQuotient coefficient.value numerator denominator) :
    coefficient.text.toList =
      if Arithmetic.less coefficient.value 0.0 then
        '(' :: '-' :: (coefficient.digits ++ [')'])
      else coefficient.digits := by
  simp only [text, digits, units, quotient.exactValue_eq, Decimal.fixed, Decimal.fixedQuotient,
    Decimal.signed]
  split <;> simp

/-- The size of a coefficient is written as the digits alone. -/
theorem toList_text_unsigned (quotient : IsQuotient coefficient.value numerator denominator) :
    coefficient.unsigned.text.toList = coefficient.digits := by
  simp only [text, unsigned, digits, units, quotient.exactValue_eq, quotient.exactValue_magnitude,
    quotient.magnitude_not_less, Decimal.fixed, Decimal.fixedQuotient, Decimal.signed,
    Bool.false_eq_true, ↓reduceIte, String.toList_ofList]

/-- A coefficient that is written as digits with a point between them. -/
structure IsSpelled (coefficient : WrittenCoefficient K) : Prop where
  quotient : ∃ numerator denominator, IsQuotient coefficient.value numerator denominator
  decimals_pos : 0 < coefficient.decimals

end Digits

variable {coefficient : WrittenCoefficient Float} {bound : Int}

/-- A writable coefficient is spelled as what it is. -/
theorem isSpelled_of_isWritable (writable : IsWritable coefficient) : coefficient.IsSpelled where
  quotient := by
    obtain ⟨numerator, denominator, quotient, _⟩ := exists_isQuotient_of_isPlain writable.plain
    exact ⟨numerator, denominator, quotient⟩
  decimals_pos := Nat.lt_of_lt_of_le (by decide) writable.two_le

/-- Every digit that is written is a zero. -/
def isWrittenAsZero (coefficient : WrittenCoefficient Float) : Bool :=
  (coefficient.text.toList.filter Char.isDigit).all (· = '0')

/-- A coefficient that does not print as zeros has the sign that it is written with. -/
theorem hasSign_of_units_ne_zero
    (plain : IsPlain bound coefficient.value)
    (nonzero : coefficient.units ≠ 0) :
    HasSign (if Arithmetic.less coefficient.value 0.0 then .negative else .positive)
      (Double.value coefficient.value) := by
  obtain ⟨numerator, denominator, quotient, hasSign⟩ := exists_isQuotient_of_isPlain plain
  apply hasSign
  rintro rfl
  apply nonzero
  simp only [units, quotient.exactValue_eq, Nat.zero_mul, Decimal.roundedQuotient]
  simp

/-- No digit but zeros is written where there are no units. -/
theorem isWrittenAsZero_of_units_eq_zero
    (plain : IsPlain bound coefficient.value)
    (none : coefficient.units = 0) :
    coefficient.isWrittenAsZero = true := by
  simp only [isWrittenAsZero, List.all_eq_true, List.mem_filter, decide_eq_true_eq]
  rintro c ⟨member, digit⟩
  have ofDigits (inside : c ∈ coefficient.digits) : c = '0' := by
    rw [digits, none] at inside
    rcases Decimal.mem_pointed inside with rfl | padded
    · exact absurd digit (by decide)
    · exact Decimal.eq_zero_of_mem_paddedDigits padded
  obtain ⟨_, _, quotient, _⟩ := exists_isQuotient_of_isPlain plain
  rw [toList_text quotient] at member
  split at member
  · simp only [List.mem_cons, List.mem_append, List.not_mem_nil, or_false] at member
    rcases member with rfl | rfl | inside | rfl
    · exact absurd digit (by decide)
    · exact absurd digit (by decide)
    · exact ofDigits inside
    · exact absurd digit (by decide)
  · exact ofDigits member

end WrittenCoefficient

/--
The number that was read has the sign of the coefficient that was drawn, or it is a zero and was
written as one.
-/
def AgreesWith (read : Float) (drawn : WrittenCoefficient Float) : Prop :=
  (Arithmetic.less 0.0 drawn.value = true ∧ Arithmetic.less 0.0 read = true) ∨
    (Arithmetic.less drawn.value 0.0 = true ∧ Arithmetic.less read 0.0 = true) ∨
    (drawn.isWrittenAsZero = true ∧
      Arithmetic.atMost read 0.0 = true ∧ Arithmetic.atMost 0.0 read = true)

instance (read : Float) (drawn : WrittenCoefficient Float) : Decidable (AgreesWith read drawn) :=
  inferInstanceAs (Decidable (_ ∨ _ ∨ _))

section Reading

variable {drawn : WrittenCoefficient Float} {bound : Int} {negative negated : Bool}

/-- What a term with one literal is worth: a sign in front of it, and a sign of the literal. -/
def readCoefficient {K : Type} [Arithmetic K] (negative negated : Bool) (units decimals : Nat) : K :=
  (if negative then -1.0 else 1.0) *
    (1.0 * (if negated then -OfScientific.ofScientific units true decimals
      else OfScientific.ofScientific units true decimals))

/-- The sign of a sum of two signs, each of them a minus or none. -/
def signOfMinus (minus : Bool) : Sign :=
  if minus then .negative else .positive

/-- A coefficient of digits other than zeros is read with the sign that it is written with. -/
theorem hasSign_readCoefficient
    {units decimals : Nat}
    (nonzero : units ≠ 0)
    (positive : 0 < decimals)
    (few : decimals < 8) :
    HasSign (signOfMinus (negative != negated))
      (value (readCoefficient negative negated units decimals)) := by
  have size := hasSign_decimal nonzero positive few
  have kept := hasSign_one_mul value_one size
  have turned := hasSign_one_mul value_one (hasSign_value_neg size)
  cases negative <;> cases negated
  · exact hasSign_one_mul value_one kept
  · exact hasSign_one_mul value_one turned
  · exact hasSign_one_mul value_minusOne kept
  · exact hasSign_one_mul value_minusOne turned

/-- A coefficient of zeros is read as a zero. -/
theorem value_readCoefficient_zero
    {decimals : Nat}
    (few : decimals < 8) :
    ∃ sign, value (readCoefficient negative negated 0 decimals) = .zero sign := by
  have inside : decimals < Float.exactlyRepresentablePowersOfTen.size := by
    simp [Float.exactlyRepresentablePowersOfTen]
    omega
  have size := value_zero_decimal inside
  have opposite :
      value (-(OfScientific.ofScientific 0 true decimals : Float)) = .zero .negative := by
    rw [value_neg, size, UnpackedFloat.neg, repacked_zero]
    rfl
  have kept := value_one_mul_of_zero value_one size
  have turned := value_one_mul_of_zero value_one opposite
  cases negative <;> cases negated
  · exact ⟨_, value_one_mul_of_zero value_one kept⟩
  · exact ⟨_, value_one_mul_of_zero value_one turned⟩
  · exact ⟨_, value_one_mul_of_zero value_minusOne kept⟩
  · exact ⟨_, value_one_mul_of_zero value_minusOne turned⟩

/-- The units that were written, read with the sign that was written, agree with the coefficient. -/
theorem agreesWith_readCoefficient
    (plain : IsPlain bound drawn.value)
    (positive : 0 < drawn.decimals)
    (few : drawn.decimals < 8)
    (minus : (negative != negated) = Arithmetic.less drawn.value 0.0) :
    AgreesWith (readCoefficient negative negated drawn.units drawn.decimals) drawn := by
  by_cases none : drawn.units = 0
  · obtain ⟨sign, zero⟩ := @value_readCoefficient_zero negative negated _ few
    refine .inr (.inr ⟨WrittenCoefficient.isWrittenAsZero_of_units_eq_zero plain none, ?_, ?_⟩)
    · rw [none, atMost_eq_le, zero]
      rfl
    · rw [none, atMost_eq_le, zero]
      rfl
  · have drawnSign := WrittenCoefficient.hasSign_of_units_ne_zero plain none
    have readSign := @hasSign_readCoefficient negative negated _ _ none positive few
    rw [minus] at readSign
    cases less : Arithmetic.less drawn.value 0.0 with
    | true =>
        rw [less] at readSign
        exact .inr (.inl ⟨less, less_zero_iff.mpr readSign⟩)
    | false =>
        rw [less] at drawnSign readSign
        exact .inl ⟨zero_less_iff.mpr drawnSign, zero_less_iff.mpr readSign⟩

end Reading

end RootFinding
