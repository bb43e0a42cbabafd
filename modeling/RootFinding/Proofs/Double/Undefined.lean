import RootFinding.Proofs.Double.Reading

/-!
# Undefined doubles

What is computed from an undefined double is undefined, and no comparison with one holds. The square
of a finite double is a magnitude, that is infinite, a zero or positive; sums and roots of magnitudes
are magnitudes again, and those are never undefined.
-/

namespace RootFinding

namespace Double

open Float.Model
open Float.Model.UnpackedFloat

/-- The double is no number and no infinity. -/
structure IsUndefined (double : Float) : Prop where
  value_eq : value double = .notANumber

namespace IsUndefined

variable {a b : Float}

/-- An undefined double leaves every result undefined in which it takes part. -/
theorem add_left
    (undefined : IsUndefined a)
    (b : Float) :
    IsUndefined (a + b) := by
  constructor
  rw [value_add, undefined.value_eq, UnpackedFloat.add, repacked_notANumber]

theorem add_right
    (a : Float)
    (undefined : IsUndefined b) :
    IsUndefined (a + b) := by
  constructor
  rw [value_add, undefined.value_eq]
  cases value a <;> exact repacked_notANumber

theorem sub_left
    (undefined : IsUndefined a)
    (b : Float) :
    IsUndefined (a - b) := by
  constructor
  rw [value_sub, undefined.value_eq, UnpackedFloat.sub, repacked_notANumber]

theorem mul_left
    (undefined : IsUndefined a)
    (b : Float) :
    IsUndefined (a * b) := by
  constructor
  rw [value_mul, undefined.value_eq, UnpackedFloat.mul, repacked_notANumber]

theorem mul_right
    (a : Float)
    (undefined : IsUndefined b) :
    IsUndefined (a * b) := by
  constructor
  rw [value_mul, undefined.value_eq]
  cases value a <;> exact repacked_notANumber

theorem div_left
    (undefined : IsUndefined a)
    (b : Float) :
    IsUndefined (a / b) := by
  constructor
  rw [value_div, undefined.value_eq, UnpackedFloat.div, repacked_notANumber]

theorem div_right
    (a : Float)
    (undefined : IsUndefined b) :
    IsUndefined (a / b) := by
  constructor
  rw [value_div, undefined.value_eq]
  cases value a <;> exact repacked_notANumber

theorem neg (undefined : IsUndefined a) : IsUndefined (-a) := by
  constructor
  rw [value_neg, undefined.value_eq, UnpackedFloat.neg, repacked_notANumber]

theorem sqrt (undefined : IsUndefined a) : IsUndefined (Scalar.sqrt a) := by
  constructor
  rw [value_sqrt, undefined.value_eq, UnpackedFloat.sqrt, repacked_notANumber]

theorem magnitude (undefined : IsUndefined a) : IsUndefined (Arithmetic.magnitude a) := by
  constructor
  rw [value_magnitude, undefined.value_eq, UnpackedFloat.abs, repacked_notANumber]

/-- An undefined double is neither below nor above another. -/
theorem not_less (undefined : IsUndefined a) (b : Float) : Arithmetic.less a b = false := by
  rw [less_eq_lt, undefined.value_eq]
  rfl

theorem not_greater (a : Float) (undefined : IsUndefined b) : Arithmetic.less a b = false := by
  rw [less_eq_lt, undefined.value_eq]
  cases value a <;> rfl

end IsUndefined

/-- A finite double is a zero or a finite number. -/
theorem value_eq_of_isFinite
    {double : Float}
    (finite : Arithmetic.isFinite double = true) :
    (∃ sign, value double = .zero sign) ∨
      ∃ sign mantissa exponent positive,
        value double = .finite sign mantissa exponent positive := by
  rw [isFinite_eq] at finite
  cases shape : value double with
  | notANumber =>
      rw [shape] at finite
      cases finite
  | infinity sign =>
      rw [shape] at finite
      cases finite
  | zero sign => exact .inl ⟨sign, rfl⟩
  | finite sign mantissa exponent positive => exact .inr ⟨_, _, _, positive, rfl⟩

/-- Turning the sign neither makes nor loses a finite double. -/
theorem isFinite_neg (double : Float) :
    Arithmetic.isFinite (-double) = Arithmetic.isFinite double := by
  rw [isFinite_eq, isFinite_eq, value_neg]
  cases shape : value double with
  | notANumber => rfl
  | infinity sign =>
      rw [UnpackedFloat.neg, repacked_infinity]
      rfl
  | zero sign =>
      rw [UnpackedFloat.neg, repacked_zero]
      rfl
  | finite sign mantissa exponent positive =>
      obtain ⟨canonical, small⟩ := isCanonical_of_unpack shape
      rw [UnpackedFloat.neg, repacked_of_isCanonical _ _ canonical small]
      rfl

/-- What a root can be taken of: an infinite value without a minus sign, a zero or a positive value. -/
inductive IsMagnitude : UnpackedFloat → Prop where
  | infinity : IsMagnitude (.infinity .positive)
  | zero (sign : Sign) : IsMagnitude (.zero sign)
  | finite
      {mantissa : Nat}
      {exponent : Int}
      (positive : 0 < mantissa) :
      IsMagnitude (.finite .positive mantissa exponent positive)

namespace IsMagnitude

variable {a b : Float}

/-- A magnitude is defined. -/
theorem not_isUndefined (isMagnitude : IsMagnitude (value a)) : ¬IsUndefined a := by
  rintro ⟨undefined⟩
  rw [undefined] at isMagnitude
  cases isMagnitude

/-- Packing does not touch the sign. -/
theorem repacked
    {value : UnpackedFloat}
    (isMagnitude : IsMagnitude value) :
    IsMagnitude (Double.repacked value) := by
  cases isMagnitude with
  | infinity =>
      rw [repacked_infinity]
      exact .infinity
  | zero sign =>
      rw [repacked_zero]
      exact .zero sign
  | finite positive =>
      rcases repacked_finite_cases .positive positive with
        infinite | zero | ⟨_, _, keptPositive, kept⟩
      · exact infinite ▸ .infinity
      · exact zero ▸ .zero .positive
      · exact kept ▸ .finite keptPositive

/-- Rounding a mantissa with a plus sign gives a magnitude. -/
theorem of_roundWithAccuracy
    (mantissa : Nat)
    (exponent : Int)
    (accuracy : Accuracy) :
    IsMagnitude (roundWithAccuracy .binary64 .positive mantissa exponent accuracy) := by
  rw [roundWithAccuracy_eq_ofShifted, ofShifted]
  split
  · exact .zero .positive
  · exact .finite _

/-- The square of a finite double is a magnitude. -/
theorem mul_self (finite : Arithmetic.isFinite a = true) : IsMagnitude (value (a * a)) := by
  rw [value_mul]
  apply repacked
  rcases value_eq_of_isFinite finite with ⟨sign, shape⟩ | ⟨sign, _, _, _, shape⟩
  · rw [shape]
    exact .zero _
  · have square : sign * sign = .positive := by
      cases sign <;> rfl
    rw [shape, UnpackedFloat.mul, square]
    exact of_roundWithAccuracy _ _ _

/-- Magnitudes never cancel, so their sum is a magnitude, infinite ones included. -/
theorem add
    (isMagnitude : IsMagnitude (value a))
    (addend : IsMagnitude (value b)) :
    IsMagnitude (value (a + b)) := by
  rw [value_add]
  apply repacked
  generalize value a = first at isMagnitude
  generalize value b = second at addend
  cases isMagnitude with
  | infinity => cases addend <;> exact .infinity
  | zero sign =>
      cases addend with
      | infinity => exact .infinity
      | zero other => cases sign <;> cases other <;> exact .zero _
      | finite positive => exact .finite positive
  | finite positive =>
      cases addend with
      | infinity => exact .infinity
      | zero other => exact .finite positive
      | finite addendPositive =>
          rename_i one scale other last
          have units :
              unitsAt (min scale last) .positive one scale +
                  unitsAt (min scale last) .positive other last =
                ((one <<< (scale - min scale last).toNat +
                  other <<< (last - min scale last).toNat : Nat) : Int) := by
            simp only [unitsAt, Sign.apply, Int.natCast_add]
          have sumPositive :
              0 < one <<< (scale - min scale last).toNat +
                other <<< (last - min scale last).toNat := by
            simp only [Nat.shiftLeft_eq]
            positivity
          rw [add_finite, units, normalize_of_pos sumPositive]
          exact of_roundWithAccuracy _ _ _

/-- The root of a magnitude is a magnitude. -/
theorem sqrt (isMagnitude : IsMagnitude (value a)) : IsMagnitude (value (Scalar.sqrt a)) := by
  rw [value_sqrt]
  apply repacked
  generalize value a = radicand at isMagnitude
  cases isMagnitude with
  | infinity => exact .infinity
  | zero sign => exact .zero sign
  | finite positive => exact of_roundWithAccuracy _ _ _

end IsMagnitude

end Double

end RootFinding
