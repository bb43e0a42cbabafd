import RootFinding.Proofs.Double.Range

/-!
# Plain doubles

A plain double is finite and not the zero of the minus sign, so it is written with a minus sign
exactly where it compares as less than zero. Sums and products of small doubles are finite;
differences from a number, and products with a positive factor that is at least one, are plain.
-/

namespace RootFinding

namespace Double

open Float.Model
open Float.Model.UnpackedFloat

variable {a b : Float} {bound limit : Int}

theorem value_neg (a : Float) :
    value (-a) = repacked (value a).neg :=
  rfl

/-- A difference is the sum with the opposite. -/
theorem sub_eq_add_neg (first second : UnpackedFloat) :
    UnpackedFloat.sub .binary64 first second =
      UnpackedFloat.add .binary64 first second.neg := by
  rcases first with ⟨_ | _⟩ | _ | ⟨_ | _⟩ | ⟨_ | _⟩ <;>
    rcases second with ⟨_ | _⟩ | _ | ⟨_ | _⟩ | ⟨_ | _⟩ <;>
    first
    | rfl
    | simp [UnpackedFloat.sub, UnpackedFloat.add, UnpackedFloat.neg, Sign.apply]

/-- A double of 53 bits is below the power of two that its exponent tells. -/
theorem isBelow_of_full
    {sign : Sign}
    {mantissa : Nat}
    {exponent : Int}
    {positive : 0 < mantissa}
    (shape : value a = .finite sign mantissa exponent positive)
    (full : 2 ^ 52 ≤ mantissa ∧ mantissa < 2 ^ 53)
    (below : exponent + 52 < bound) :
    IsBelow bound (value a) := by
  have bits : mantissa.log2 = 52 := (Nat.log2_eq_iff (Nat.ne_of_gt positive)).mpr full
  rw [shape]
  exact .finite sign positive (isCanonical_of_unpack shape).1 (by omega)

theorem isBelow_value_neg
    (below : IsBelow bound (value a))
    (inside : bound ≤ 1000) :
    IsBelow bound (value (-a)) := by
  rw [value_neg, below.neg.repacked_eq (by omega)]
  exact below.neg

/-- A sum is at most two binary places wider than its parts. -/
theorem isBelow_value_add
    (below : IsBelow bound (value a))
    (addendBelow : IsBelow bound (value b))
    (enough : 0 ≤ bound)
    (inside : bound ≤ 900) :
    IsBelow (bound + 2) (value (a + b)) := by
  have sum := isBelow_add below addendBelow enough
  rw [value_add, sum.repacked_eq (by omega)]
  exact sum

/-- A difference is at most two binary places wider than its parts. -/
theorem isBelow_value_sub
    (below : IsBelow bound (value a))
    (otherBelow : IsBelow bound (value b))
    (enough : 0 ≤ bound)
    (inside : bound ≤ 900) :
    IsBelow (bound + 2) (value (a - b)) := by
  have difference := isBelow_add below otherBelow.neg enough
  rw [value_sub, sub_eq_add_neg, difference.repacked_eq (by omega)]
  exact difference

/-- The widths of two factors add up, with one place more. -/
theorem isBelow_value_mul
    (below : IsBelow bound (value a))
    (factorBelow : IsBelow limit (value b))
    (enough : 0 ≤ bound + limit)
    (inside : bound + limit ≤ 900) :
    IsBelow (bound + limit + 1) (value (a * b)) := by
  have product := isBelow_mul below factorBelow enough
  rw [value_mul, product.repacked_eq (by omega)]
  exact product

/-- A product of doubles that are not negative is none either. -/
theorem isNotNegative_value_mul
    (isNotNegative : IsNotNegative (value a))
    (factorNotNegative : IsNotNegative (value b))
    (below : IsBelow bound (value a))
    (factorBelow : IsBelow limit (value b))
    (enough : 0 ≤ bound + limit)
    (inside : bound + limit ≤ 900) :
    IsNotNegative (value (a * b)) := by
  have product := isBelow_mul below factorBelow enough
  rw [value_mul, product.repacked_eq (by omega)]
  exact isNotNegative_mul isNotNegative factorNotNegative below factorBelow enough

/-- A positive double is still positive with something added to it. -/
theorem value_add_positive
    {mantissa : Nat}
    {exponent : Int}
    {positive : 0 < mantissa}
    (isNotNegative : IsNotNegative (value a))
    (shape : value b = .finite .positive mantissa exponent positive)
    (below : IsBelow bound (value a))
    (addendBelow : IsBelow bound (value b))
    (enough : 0 ≤ bound)
    (inside : bound ≤ 900) :
    ∃ rounded later roundedPositive,
      value (a + b) = .finite .positive rounded later roundedPositive := by
  have sum := isBelow_add below addendBelow enough
  rw [value_add, sum.repacked_eq (by omega), shape]
  rw [shape] at addendBelow
  exact add_positive isNotNegative below addendBelow enough

/-- A product with a factor that is at least one without its sign does not vanish. -/
theorem value_mul_of_one_le
    {sign other : Sign}
    {mantissa factor : Nat}
    {exponent later : Int}
    {positive : 0 < mantissa}
    {factorPositive : 0 < factor}
    (shape : value a = .finite sign mantissa exponent positive)
    (factorShape : value b = .finite other factor later factorPositive)
    (below : IsBelow bound (value a))
    (factorBelow : IsBelow limit (value b))
    (behindPoint : later ≤ 0)
    (one_le : 2 ^ (-later).toNat ≤ factor)
    (enough : 0 ≤ bound + limit)
    (inside : bound + limit ≤ 900) :
    ∃ rounded last roundedPositive,
      value (a * b) = .finite (sign * other) rounded last roundedPositive := by
  have product := isBelow_mul below factorBelow enough
  rw [value_mul, product.repacked_eq (by omega), shape, factorShape]
  rw [shape] at below
  rw [factorShape] at factorBelow
  obtain ⟨rounded, last, roundedPositive, product, _⟩ :=
    mul_of_one_le sign other below factorBelow enough behindPoint one_le
  exact ⟨rounded, last, roundedPositive, product⟩

/-- A finite double whose sign a comparison with zero tells. -/
structure IsPlain (bound : Int) (double : Float) : Prop where
  below : IsBelow bound (value double)
  ne_negativeZero : value double ≠ .zero .negative

namespace IsPlain

theorem mono
    {larger : Int}
    (plain : IsPlain bound a)
    (notBelow : bound ≤ larger) :
    IsPlain larger a :=
  ⟨plain.below.mono notBelow, plain.ne_negativeZero⟩

/-- A plain double stays plain when another is added in front of it. -/
theorem add
    (below : IsBelow bound (value a))
    (plain : IsPlain bound b)
    (enough : 0 ≤ bound)
    (inside : bound ≤ 900) :
    IsPlain (bound + 2) (a + b) := by
  refine ⟨isBelow_value_add below plain.below enough inside, ?_⟩
  have sum := isBelow_add below plain.below enough
  rw [value_add, sum.repacked_eq (by omega)]
  exact fun zero => plain.ne_negativeZero (add_eq_negativeZero below plain.below enough zero).2

/-- No difference from a number other than zero is the zero of the minus sign. -/
theorem sub
    {sign : Sign}
    {mantissa : Nat}
    {exponent : Int}
    {positive : 0 < mantissa}
    (below : IsBelow bound (value a))
    (otherBelow : IsBelow bound (value b))
    (other : value b = .finite sign mantissa exponent positive)
    (enough : 0 ≤ bound)
    (inside : bound ≤ 900) :
    IsPlain (bound + 2) (a - b) := by
  refine ⟨isBelow_value_sub below otherBelow enough inside, ?_⟩
  have difference := isBelow_add below otherBelow.neg enough
  rw [value_sub, sub_eq_add_neg, difference.repacked_eq (by omega)]
  intro zero
  obtain ⟨_, opposite⟩ := add_eq_negativeZero below otherBelow.neg enough zero
  rw [other] at opposite
  cases opposite

/-- A factor that is at least one does not make a zero of the minus sign. -/
theorem mul
    {factor : Nat}
    {later : Int}
    {factorPositive : 0 < factor}
    (plain : IsPlain bound a)
    (factorBelow : IsBelow limit (value b))
    (shape : value b = .finite .positive factor later factorPositive)
    (behindPoint : later ≤ 0)
    (one_le : 2 ^ (-later).toNat ≤ factor)
    (enough : 0 ≤ bound + limit)
    (inside : bound + limit ≤ 900) :
    IsPlain (bound + limit + 1) (a * b) := by
  refine ⟨isBelow_value_mul plain.below factorBelow enough inside, ?_⟩
  rcases plain.below.cases with ⟨sign, shapeHere⟩ | ⟨sign, _, _, _, shapeHere, _⟩
  · rw [value_mul, shapeHere, shape, UnpackedFloat.mul, repacked_zero]
    cases sign with
    | negative => exact absurd shapeHere plain.ne_negativeZero
    | positive => exact fun zero => by cases zero
  · obtain ⟨_, _, _, product⟩ :=
      value_mul_of_one_le shapeHere shape plain.below factorBelow behindPoint one_le enough inside
    rw [product]
    exact fun zero => by cases zero

end IsPlain

/-- From zero up to, but not including, one there are zeros and positive fractions. -/
theorem isBelow_of_fraction
    (notNegative : Arithmetic.atMost 0.0 a = true)
    (belowOne : Arithmetic.less a 1.0 = true) :
    IsBelow 0 (value a) ∧ IsNotNegative (value a) := by
  rw [atMost_eq_le, value_zero] at notNegative
  rw [less_eq_lt, value_one] at belowOne
  cases shape : value a with
  | notANumber =>
      rw [shape] at belowOne
      cases belowOne
  | infinity sign =>
      rw [shape] at notNegative belowOne
      cases sign with
      | positive => cases belowOne
      | negative => cases notNegative
  | zero sign => exact ⟨.zero sign, .zero sign⟩
  | finite sign mantissa exponent positive =>
      rw [shape] at notNegative belowOne
      cases sign with
      | negative => cases notNegative
      | positive =>
          have canonical := (isCanonical_of_unpack shape).1
          have short := canonical.short
          refine ⟨.finite .positive positive canonical ?_, .finite positive⟩
          rw [lt_finite_iff] at belowOne
          rcases belowOne with smaller | ⟨rfl, smaller⟩
          · omega
          · have bits := (Nat.log2_lt (Nat.ne_of_gt positive)).mpr smaller
            omega

end Double

end RootFinding
