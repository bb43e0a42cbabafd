import RootFinding.Proofs.Decimal.Order
import RootFinding.Proofs.Double.Exact

/-!
# Doubles of magnitudes

A magnitude that came out of rounding is canonical and in range. The bit pattern that is written for
it is then the one that stands for it, so magnitudes are ordered as their doubles compare.
-/

namespace RootFinding

namespace Double

open Float.Model
open Float.Model.UnpackedFloat

/-- The fields of a positive value as one number. -/
theorem packComponents_positive
    {exponent mantissa : Nat}
    (inField : exponent < 2 ^ 11)
    (short : mantissa < 2 ^ 52) :
    packComponents .binary64 .positive (BitVec.ofNat 11 exponent) (BitVec.ofNat 52 mantissa) =
      BitVec.ofNat 64 (exponent * 2 ^ 52 + mantissa) := by
  apply BitVec.eq_of_toNat_eq
  change (0#1 ++ BitVec.ofNat 11 exponent ++ BitVec.ofNat 52 mantissa).toNat =
    (BitVec.ofNat 64 (exponent * 2 ^ 52 + mantissa)).toNat
  have inWord : exponent * 2 ^ 52 + mantissa < 2 ^ 64 := by omega
  simp only [BitVec.toNat_append, BitVec.toNat_ofNat, Nat.mod_eq_of_lt inField,
    Nat.mod_eq_of_lt short, Nat.mod_eq_of_lt inWord, Nat.zero_mod, Nat.zero_shiftLeft, Nat.zero_or]
  rw [← Nat.shiftLeft_add_eq_or_of_lt short, Nat.shiftLeft_eq]

/-- The bit pattern of a positive value counts the positive values below it. -/
theorem pack_of_isCanonical
    {mantissa : Nat}
    {exponent : Int}
    (positive : 0 < mantissa)
    (canonical : IsCanonical mantissa exponent)
    (inRange : exponent ≤ 971) :
    UnpackedFloat.pack .binary64 (.finite .positive mantissa exponent positive) =
      BitVec.ofNat 64 (mantissa + (exponent + 1074).toNat * 2 ^ 52) := by
  have bias : Format.binary64.exponentBias = 1023 := rfl
  have bits : Format.binary64.mantissaBits = 53 := rfl
  have least := canonical.least_le
  have short := canonical.mantissa_lt
  have nonzero : mantissa ≠ 0 := Nat.ne_of_gt positive
  have under : ¬2 ^ 11 ≤ (exponent + (1023 : Nat) + (52 : Nat)).toNat + 1 := by omega
  rw [UnpackedFloat.pack]
  simp only [bias, bits, under, ↓reduceIte, Nat.reduceEqDiff]
  by_cases full : mantissa.log2 = 52
  · have normal := ((Nat.log2_eq_iff nonzero).mp full).1
    have fraction : BitVec.ofNat 52 mantissa = BitVec.ofNat 52 (mantissa - 2 ^ 52) := by
      apply BitVec.eq_of_toNat_eq
      rw [BitVec.toNat_ofNat, BitVec.toNat_ofNat]
      omega
    rw [if_pos (by omega), fraction]
    refine (packComponents_positive (by omega) (by omega)).trans (congrArg _ ?_)
    omega
  · have exponent_eq : exponent = -1074 := canonical.full.resolve_left full
    have subnormal : mantissa < 2 ^ 52 :=
      (Nat.log2_lt nonzero).mp (Nat.lt_of_le_of_ne canonical.short full)
    rw [if_neg (by omega), exponent_eq]
    refine (packComponents_positive (by omega) subnormal).trans (congrArg _ ?_)
    omega

/-- Turning a comparison round turns its outcome round. -/
theorem compare_swap (first second : UnpackedFloat) :
    (first.compare second).map Ordering.swap = second.compare first := by
  rcases first with ⟨_ | _⟩ | _ | ⟨_ | _⟩ | ⟨_ | _⟩ <;>
    rcases second with ⟨_ | _⟩ | _ | ⟨_ | _⟩ | ⟨_ | _⟩ <;>
    first
    | rfl
    | simp only [UnpackedFloat.compare, Option.map_some, Ordering.swap_then, Int.compare_swap,
        Nat.compare_swap]

/-- Only an undefined value does not compare. -/
theorem compare_isSome
    {first second : UnpackedFloat}
    (defined : first ≠ .notANumber)
    (otherDefined : second ≠ .notANumber) :
    ∃ order, first.compare second = some order := by
  rcases first with ⟨_ | _⟩ | _ | ⟨_ | _⟩ | ⟨_ | _⟩ <;>
    rcases second with ⟨_ | _⟩ | _ | ⟨_ | _⟩ | ⟨_ | _⟩ <;>
    first
    | exact ⟨_, rfl⟩
    | contradiction

/-- Of two values that are not undefined, one is at most the other if the other is not less. -/
theorem le_of_not_lt
    {first second : UnpackedFloat}
    (defined : first ≠ .notANumber)
    (otherDefined : second ≠ .notANumber)
    (notLess : second.lt first = false) :
    first.le second = true := by
  obtain ⟨order, compared⟩ := compare_isSome defined otherDefined
  rw [UnpackedFloat.lt, ← compare_swap, compared] at notLess
  rw [UnpackedFloat.le, compared]
  cases order with
  | lt => rfl
  | eq => rfl
  | gt => cases notLess

/-- Doubles that are not undefined compare as what they stand for. -/
theorem atMost_of_exact_le
    {a b : Float}
    (defined : value a ≠ .notANumber)
    (otherDefined : value b ≠ .notANumber)
    (notAbove : exact a ≤ exact b) :
    Arithmetic.atMost a b = true := by
  rw [atMost_eq_le]
  refine le_of_not_lt defined otherDefined ?_
  rw [← less_eq_lt, Bool.eq_false_iff]
  exact fun less => (exact_lt_of_less less).not_ge notAbove

end Double

namespace DoubleMagnitude

open Double
open Float.Model
open Float.Model.UnpackedFloat

/-- A magnitude that some double has. -/
inductive IsDouble : DoubleMagnitude → Prop where
  | infinite : IsDouble .infinite
  | finite
      {mantissa : Nat}
      {exponent : Int}
      (canonical : IsCanonical mantissa exponent)
      (inRange : exponent ≤ greatestExponent) :
      IsDouble (.finite mantissa exponent)

/-- Rounding a quotient gives a double. -/
theorem isDouble_nearest
    (numerator : Nat)
    {denominator : Nat}
    (positive : 0 < denominator) :
    IsDouble (nearest numerator denominator) := by
  rcases Nat.eq_zero_or_pos numerator with rfl | nonzero
  · exact .finite ⟨by decide, le_rfl, .inr rfl⟩ (by decide)
  · rcases nearest_cases nonzero positive with
      ⟨_, shape, canonical, inRange, _⟩ | ⟨shape, _⟩
    · rw [shape]
      exact .finite canonical inRange
    · rw [shape]
      exact .infinite

/-- Adding magnitudes gives a double. -/
theorem isDouble_add (x y : DoubleMagnitude) : IsDouble (x.add y) := by
  cases x with
  | infinite => exact .infinite
  | finite mantissa exponent =>
      cases y with
      | infinite => exact .infinite
      | finite other later =>
          exact isDouble_nearest _ (Nat.mul_pos (denominator_pos _) (denominator_pos _))

/-- The double of a canonical magnitude has its mantissa and its exponent. -/
theorem value_toDouble_finite
    {mantissa : Nat}
    {exponent : Int}
    (positive : 0 < mantissa)
    (canonical : IsCanonical mantissa exponent)
    (inRange : exponent ≤ 971) :
    value (toDouble (.finite mantissa exponent)) =
      .finite .positive mantissa exponent positive := by
  have pattern :
      (UInt64.ofNat
          (mantissa + (exponent - leastExponent).toNat * BinaryValue.leadingBit)).toBitVec =
        UnpackedFloat.pack .binary64 (.finite .positive mantissa exponent positive) := by
    rw [pack_of_isCanonical positive canonical inRange]
    rfl
  have read :
      value (toDouble (.finite mantissa exponent)) =
        repacked (UnpackedFloat.unpack .binary64
          (UnpackedFloat.pack .binary64 (.finite .positive mantissa exponent positive))) := by
    rw [← pattern]
    rfl
  rw [read, ← repacked_eq_unpack_pack, repacked_of_isCanonical _ _ canonical inRange,
    repacked_of_isCanonical _ _ canonical inRange]

theorem value_toDouble_zero : value (toDouble (.finite 0 leastExponent)) = .zero .positive := by
  rfl

theorem value_toDouble_infinite : value (toDouble .infinite) = .infinity .positive := by
  rfl

/-- The number that a double stands for, of the magnitude that it was made of. -/
theorem exact_toDouble_finite
    {mantissa : Nat}
    {exponent : Int}
    (isDouble : IsDouble (.finite mantissa exponent)) :
    Double.exact (toDouble (.finite mantissa exponent)) =
      (((mantissa * 2 ^ exponent : ℚ) : ℝ) : EReal) := by
  cases isDouble with | finite canonical inRange =>
  rw [Double.exact]
  rcases Nat.eq_zero_or_pos mantissa with rfl | positive
  · obtain rfl : exponent = leastExponent := canonical.full.resolve_left (by decide)
    rw [value_toDouble_zero]
    simp [exactOf]
  · rw [value_toDouble_finite positive canonical inRange]
    simp [exactOf]

theorem exact_toDouble_infinite : Double.exact (toDouble .infinite) = ⊤ := by
  rfl

/-- No magnitude stands for an undefined value. -/
theorem defined_toDouble
    {magnitude : DoubleMagnitude}
    (isDouble : IsDouble magnitude) :
    value magnitude.toDouble ≠ .notANumber := by
  cases isDouble with
  | infinite =>
      rw [value_toDouble_infinite]
      nofun
  | @finite mantissa exponent canonical inRange =>
      rcases Nat.eq_zero_or_pos mantissa with rfl | positive
      · obtain rfl : exponent = leastExponent := canonical.full.resolve_left (by decide)
        rw [value_toDouble_zero]
        nofun
      · rw [value_toDouble_finite positive canonical inRange]
        nofun

/-- The doubles of ordered magnitudes compare in that order. -/
theorem atMost_toDouble
    {x y : DoubleMagnitude}
    (isDouble : IsDouble x)
    (otherIsDouble : IsDouble y)
    (notAbove : x ≤ y) :
    Arithmetic.atMost x.toDouble y.toDouble = true := by
  refine atMost_of_exact_le (defined_toDouble isDouble) (defined_toDouble otherIsDouble) ?_
  cases y with
  | infinite =>
      rw [exact_toDouble_infinite]
      exact le_top
  | finite other later =>
      cases x with
      | infinite => exact absurd notAbove (not_infinite_le_finite _ _)
      | finite mantissa exponent =>
          rw [exact_toDouble_finite isDouble, exact_toDouble_finite otherIsDouble]
          exact_mod_cast finite_le_finite_iff.mp notAbove

end DoubleMagnitude

end RootFinding
