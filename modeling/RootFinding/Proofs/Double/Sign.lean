import RootFinding.Proofs.Double.Plain

/-!
# Signs of doubles

A quotient of two positive values of a moderate size has so many bits that it is never rounded to
zero. So a decimal with a few places reads as a positive double where one of its digits is not zero,
and a factor of one keeps or turns the sign of what it multiplies.
-/

namespace RootFinding

namespace Double

open Float.Model
open Float.Model.UnpackedFloat

/-- The value is infinite or finite, of a sign, and no zero. -/
inductive HasSign (sign : Sign) : UnpackedFloat → Prop where
  | infinity : HasSign sign (.infinity sign)
  | finite
      {mantissa : Nat}
      {exponent : Int}
      (positive : 0 < mantissa) :
      HasSign sign (.finite sign mantissa exponent positive)

/-- A double lies below zero when it has a minus sign and is not zero. -/
theorem less_zero_iff {a : Float} : Arithmetic.less a 0.0 = true ↔ HasSign .negative (value a) := by
  rw [less_eq_lt, value_zero]
  constructor
  · intro less
    cases shape : value a with
    | notANumber =>
        rw [shape] at less
        cases less
    | zero sign =>
        rw [shape] at less
        cases less
    | infinity sign =>
        rw [shape] at less
        cases sign with
        | positive => cases less
        | negative => exact .infinity
    | finite sign mantissa exponent positive =>
        rw [shape] at less
        cases sign with
        | positive => cases less
        | negative => exact .finite positive
  · intro sign
    cases shape : value a <;> rw [shape] at sign <;> cases sign <;> rfl

/-- A double lies above zero when it has a plus sign and is not zero. -/
theorem zero_less_iff {a : Float} : Arithmetic.less 0.0 a = true ↔ HasSign .positive (value a) := by
  constructor
  · intro positive
    rcases positive_cases positive with infinite | ⟨_, _, nonzero, finite⟩
    · exact infinite ▸ .infinity
    · exact finite ▸ .finite nonzero
  · intro sign
    rw [less_eq_lt, value_zero]
    cases shape : value a <;> rw [shape] at sign <;> cases sign <;> rfl

/-- A value with a sign is an infinity or a finite number of that sign. -/
theorem HasSign.cases
    {sign : Sign}
    {value : UnpackedFloat}
    (hasSign : HasSign sign value) :
    value = .infinity sign ∨
      ∃ mantissa exponent positive, value = .finite sign mantissa exponent positive := by
  cases hasSign with
  | infinity => exact .inl rfl
  | finite positive => exact .inr ⟨_, _, positive, rfl⟩

section Canonical

variable {sign : Sign} {mantissa : Nat} {exponent : Int}

/-- A canonical value that is packed is the same value or infinite. -/
theorem hasSign_repacked
    (positive : 0 < mantissa)
    (canonical : IsCanonical mantissa exponent) :
    HasSign sign (repacked (.finite sign mantissa exponent positive)) := by
  by_cases large : 971 < exponent
  · rw [repacked_of_large sign positive large]
    exact .infinity
  · rw [repacked_of_isCanonical sign positive canonical (Int.not_lt.mp large)]
    exact .finite positive

end Canonical

section Quotients

variable {first second : Nat} {exponent later : Int}

/-- A quotient is computed to at least 53 bits. -/
theorem two_pow_le_divCore
    (firstPositive : 0 < first)
    (secondPositive : 0 < second)
    (notTiny : -1021 ≤ (first.log2 + exponent) - (second.log2 + later)) :
    2 ^ 52 ≤ (divCore .binary64 first exponent second later).1 ∧
      (divCore .binary64 first exponent second later).2.1 =
        min (exponent - later) (first.log2 + exponent - (second.log2 + later) - 53) := by
  have target_eq :
      min (exponent - later)
          (Format.binary64.targetExponent (totalExponent first exponent - totalExponent second later)) =
        min (exponent - later) (first.log2 + exponent - (second.log2 + later) - 53) := by
    simp only [targetExponent_binary64, totalExponent]
    omega
  generalize shift_eq :
    (exponent - later -
      min (exponent - later) (first.log2 + exponent - (second.log2 + later) - 53)).toNat = shift
  simp only [divCore, target_eq, shift_eq, and_true]
  have longer : 52 + (second.log2 + 1) ≤ (first <<< shift).log2 := by
    rw [log2_shiftLeft (Nat.ne_of_gt firstPositive)]
    omega
  have size : first <<< shift ≠ 0 := by
    simp [Nat.shiftLeft_eq, Nat.ne_of_gt firstPositive]
  rw [Nat.le_div_iff_mul_le secondPositive]
  calc
    2 ^ 52 * second ≤ 2 ^ 52 * 2 ^ (second.log2 + 1) :=
      Nat.mul_le_mul_left _ (Nat.le_of_lt Nat.lt_log2_self)
    _ = 2 ^ (52 + (second.log2 + 1)) := (pow_add _ _ _).symm
    _ ≤ 2 ^ (first <<< shift).log2 := Nat.pow_le_pow_right (by decide) longer
    _ ≤ first <<< shift := Nat.log2_self_le size

/-- A quotient of positive values of a moderate size is positive. -/
theorem hasSign_div
    (firstPositive : 0 < first)
    (secondPositive : 0 < second)
    (least : -1074 ≤ exponent - later)
    (notTiny : -1021 ≤ (first.log2 + exponent) - (second.log2 + later)) :
    HasSign .positive
      (repacked
        (UnpackedFloat.div .binary64 (.finite .positive first exponent firstPositive)
          (.finite .positive second later secondPositive))) := by
  obtain ⟨long, scale_eq⟩ := two_pow_le_divCore firstPositive secondPositive notTiny
  have unfolded :
      UnpackedFloat.div .binary64 (.finite .positive first exponent firstPositive)
          (.finite .positive second later secondPositive) =
        roundWithAccuracy .binary64 .positive (divCore .binary64 first exponent second later).1
          (divCore .binary64 first exponent second later).2.1
          (divCore .binary64 first exponent second later).2.2 :=
    rfl
  rw [unfolded, scale_eq]
  generalize (divCore .binary64 first exponent second later).2.2 = accuracy
  generalize (divCore .binary64 first exponent second later).1 = quotient at long ⊢
  have nonzero : quotient ≠ 0 := by
    rintro rfl
    simp at long
  have bits := (Nat.le_log2 nonzero).mpr long
  generalize scale_eq :
    min (exponent - later) (first.log2 + exponent - (second.log2 + later) - 53) = scale
  have above : -1074 ≤ scale := by omega
  have wide : scale ≤ max (quotient.log2 + 1 + scale - 53) (-1074) := by omega
  rcases roundWithAccuracy_cases .positive accuracy rfl wide with
    ⟨rounded, last, positive, shape, canonical, _⟩ | ⟨_, none⟩
  · rw [shape]
    exact hasSign_repacked positive canonical
  · rcases (quotient_bounds rfl wide).2 with lowest | full
    · rw [lowest, show (-1074 - scale).toNat = 0 by omega, Nat.pow_zero, Nat.div_one] at none
      exact absurd none nonzero
    · omega

end Quotients

section Doubles

variable {a one : Float} {sign unit : Sign}

/-- Negation turns the sign around. -/
theorem hasSign_value_neg (hasSign : HasSign sign (value a)) : HasSign (-sign) (value (-a)) := by
  rw [value_neg]
  rcases hasSign.cases with shape | ⟨mantissa, exponent, positive, shape⟩
  · rw [shape, UnpackedFloat.neg, repacked_infinity]
    exact .infinity
  · rw [shape]
    exact hasSign_repacked positive (isCanonical_of_unpack shape).1

/-- One times a double has the product of the signs. -/
theorem hasSign_one_mul
    (isOne : value one = .finite unit (2 ^ 52) (-52) (by decide))
    (hasSign : HasSign sign (value a)) :
    HasSign (unit * sign) (value (one * a)) := by
  rcases hasSign.cases with shape | ⟨mantissa, exponent, positive, shape⟩
  · rw [value_mul, isOne, shape, UnpackedFloat.mul, repacked_infinity]
    exact .infinity
  · obtain ⟨canonical, small⟩ := isCanonical_of_unpack shape
    have short := canonical.short
    have oneBelow : IsBelow 1 (value one) := isBelow_of_full isOne (by decide) (by decide)
    have below : IsBelow 1024 (.finite sign mantissa exponent positive) :=
      .finite sign positive canonical (by omega)
    rw [isOne] at oneBelow
    obtain ⟨_, _, roundedPositive, product, roundedCanonical⟩ :=
      mul_of_one_le sign unit below oneBelow (by decide) (by decide) (by decide)
    rw [value_mul, isOne, shape, mul_finite_comm, product, sign_mul_comm]
    exact hasSign_repacked roundedPositive roundedCanonical

/-- A unit times a zero is a zero, whose sign is the product of both signs. -/
theorem value_one_mul_of_zero
    (isOne : value one = .finite unit (2 ^ 52) (-52) (by decide))
    (zero : value a = .zero sign) :
    value (one * a) = .zero (unit * sign) := by
  rw [value_mul, isOne, zero, UnpackedFloat.mul, repacked_zero]

end Doubles

end Double

end RootFinding
