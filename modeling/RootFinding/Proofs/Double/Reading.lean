import RootFinding.Proofs.Double.Sign

/-!
# Reading decimals

The double nearest to a decimal is a quotient of a natural number by a power of ten. Where the number
is not zero and the places are few, the quotient is positive.
-/

namespace RootFinding

namespace Double

open Float.Model
open Float.Model.UnpackedFloat

/-- A word is converted by rounding the number that it holds. -/
theorem value_toFloat (n : UInt64) :
    value n.toFloat = repacked (UnpackedFloat.ofNat .binary64 n.toNat) :=
  rfl

theorem value_div (a b : Float) :
    value (a / b) = repacked (UnpackedFloat.div .binary64 (value a) (value b)) :=
  rfl

/-- A decimal is read by the library's own rounding of digits and exponent. -/
theorem value_ofModel_ofScientific (digits : Nat) (exponent : Int) :
    value (Float.ofModel (Float.Model.ofScientific digits exponent)) =
      repacked (UnpackedFloat.ofScientific .binary64 digits exponent) :=
  rfl

/-- A value that has no bit to lose is not changed by rounding. -/
theorem roundWithAccuracy_of_short
    (sign : Sign)
    {mantissa : Nat}
    {exponent : Int}
    (positive : 0 < mantissa)
    (least : -1074 ≤ exponent)
    (short : mantissa.log2 ≤ 52) :
    roundWithAccuracy .binary64 sign mantissa exponent .exact =
      .finite sign mantissa exponent positive := by
  rw [roundWithAccuracy_eq_ofShifted, shiftToTargetExponent_of_short least short]
  dsimp only
  rw [show (ExtendedMantissa.ofMantissaAndAccuracy mantissa .exact).roundedMantissa = mantissa from rfl,
    shiftToTargetExponent_of_short least short]
  exact dif_neg (Nat.ne_of_gt positive)

/-- A positive value of 53 bits, some of them behind the point. -/
def isModerate : UnpackedFloat → Bool
  | .finite .positive mantissa exponent _ =>
      2 ^ 52 ≤ mantissa && mantissa < 2 ^ 53 && -52 ≤ exponent && exponent ≤ 23
  | _ => false

theorem isModerate_finite
    {mantissa : Nat}
    {exponent : Int}
    {positive : 0 < mantissa}
    (full : mantissa.log2 = 52)
    (notBelow : -52 ≤ exponent)
    (notAbove : exponent ≤ 23) :
    isModerate (.finite .positive mantissa exponent positive) = true := by
  have bounds := (Nat.log2_eq_iff (Nat.ne_of_gt positive)).mp full
  simp [isModerate, bounds.1, bounds.2, notBelow, notAbove]

/-- A moderate value is a positive number with a full mantissa and an exponent of the range. -/
theorem exists_of_isModerate
    {value : UnpackedFloat}
    (moderate : isModerate value = true) :
    ∃ mantissa exponent positive,
      value = .finite .positive mantissa exponent positive ∧
        mantissa.log2 = 52 ∧ -52 ≤ exponent ∧ exponent ≤ 23 := by
  unfold isModerate at moderate
  split at moderate
  · rename_i mantissa exponent positive
    simp only [Bool.and_eq_true, decide_eq_true_eq] at moderate
    obtain ⟨⟨⟨above, below⟩, notBelow⟩, notAbove⟩ := moderate
    exact ⟨mantissa, exponent, positive, rfl,
      (Nat.log2_eq_iff (Nat.ne_of_gt positive)).mpr ⟨above, below⟩, notBelow, notAbove⟩
  · cases moderate

/-- A number of at most 53 bits is a double as it is. -/
theorem repacked_ofNat
    {n : Nat}
    (nonzero : n ≠ 0)
    (short : n < 2 ^ 53) :
    n.log2 ≤ 52 ∧
      (n <<< (52 - n.log2)).log2 = 52 ∧
      ∃ positive,
        repacked (UnpackedFloat.ofNat .binary64 n) =
          .finite .positive (n <<< (52 - n.log2)) (n.log2 - 52) positive := by
  have bits := (Nat.log2_lt nonzero).mpr short
  have positive := Nat.pos_of_ne_zero nonzero
  have full : (n <<< (52 - n.log2)).log2 = 52 := by
    rw [log2_shiftLeft nonzero]
    omega
  have grown : 0 < n <<< (52 - n.log2) := by simpa [Nat.shiftLeft_eq] using positive
  have target_eq : max ((n.log2 : Int) + 1 + 0 - 53) (-1074) = n.log2 - 52 := by omega
  have shift_eq : (0 - ((n.log2 : Int) - 52)).toNat = 52 - n.log2 := by omega
  have scale_eq : (0 : Int) - (52 - n.log2 : Nat) = n.log2 - 52 := by omega
  have rounded :
      UnpackedFloat.round .binary64 .positive n 0 =
        .finite .positive (n <<< (52 - n.log2)) (n.log2 - 52) grown := by
    simp only [UnpackedFloat.round, decreaseExponent, totalExponent, targetExponent_binary64,
      target_eq, shift_eq, scale_eq]
    exact roundWithAccuracy_of_short .positive grown (by omega) full.le
  refine ⟨Nat.le_of_lt_succ bits, full, grown, ?_⟩
  rw [UnpackedFloat.ofNat, UnpackedFloat.ofInt, normalize_of_pos positive, rounded,
    repacked_of_isCanonical .positive grown ⟨full.le, by omega, .inl full⟩ (by omega)]

/-- Every number of at most 53 bits is moderate once it is converted. -/
theorem isModerate_ofNat
    {n : Nat}
    (nonzero : n ≠ 0)
    (short : n < 2 ^ 53) :
    isModerate (repacked (UnpackedFloat.ofNat .binary64 n)) = true := by
  obtain ⟨bits, full, _, rounded⟩ := repacked_ofNat nonzero short
  rw [rounded]
  exact isModerate_finite full (by omega) (by omega)

private theorem isModerate_tableEntry :
    ∀ place : Fin Float.exactlyRepresentablePowersOfTen.size,
      isModerate (value Float.exactlyRepresentablePowersOfTen[place]) = true := by
  decide +kernel

theorem isModerate_powerOfTen
    {places : Nat}
    (inside : places < Float.exactlyRepresentablePowersOfTen.size) :
    isModerate (value Float.exactlyRepresentablePowersOfTen[places]) = true :=
  isModerate_tableEntry ⟨places, inside⟩

/-- A quotient of moderate values neither overflows nor vanishes. -/
theorem hasSign_div_of_isModerate
    {first second : UnpackedFloat}
    (moderate : isModerate first = true)
    (divisorModerate : isModerate second = true) :
    HasSign .positive (repacked (UnpackedFloat.div .binary64 first second)) := by
  obtain ⟨_, _, positive, rfl, full, _, _⟩ := exists_of_isModerate moderate
  obtain ⟨_, _, divisorPositive, rfl, divisorFull, _, _⟩ := exists_of_isModerate divisorModerate
  apply hasSign_div positive divisorPositive <;> omega

/-- A decimal with a few places of which some digit is not zero reads as a positive double. -/
theorem hasSign_decimal
    {digits places : Nat}
    (nonzero : digits ≠ 0)
    (some : 0 < places)
    (few : places < 8) :
    HasSign .positive (value (OfScientific.ofScientific digits true places : Float)) := by
  have positive := Nat.pos_of_ne_zero nonzero
  change HasSign .positive (value (Float.ofScientific digits true places))
  unfold Float.ofScientific
  split
  · rename_i fast
    have inside : digits < 2 ^ 64 := fast.1.trans (by decide)
    have same : digits.toUInt64.toNat = digits := by
      simpa using Nat.mod_eq_of_lt inside
    simp only [↓reduceIte]
    rw [value_div, value_toFloat, same]
    exact hasSign_div_of_isModerate (isModerate_ofNat nonzero fast.1)
      (isModerate_powerOfTen (by simp [Float.exactlyRepresentablePowersOfTen]; omega))
  · have range : (2 : Int) ^ Format.binary64.exponentBits = 2048 := rfl
    have behind : ¬0 ≤ -(places : Int) := by omega
    have powerPositive : 0 < 10 ^ places := Nat.pow_pos (by decide)
    have powerShort : 10 ^ places < 2 ^ 53 :=
      (Nat.pow_lt_pow_right (by decide) few).trans (by decide)
    have powerBits := (Nat.log2_lt (Nat.ne_of_gt powerPositive)).mpr powerShort
    simp only [↓reduceIte, Int.negOfNat_eq, Int.ofNat_eq_natCast, value_ofModel_ofScientific,
      UnpackedFloat.ofScientific, nonzero, ↓reduceDIte, range, behind, Int.neg_neg, Int.toNat_natCast]
    rw [if_neg (by omega), if_neg (by omega)]
    apply hasSign_div positive powerPositive <;> omega

/-- A decimal of which every digit is zero reads as a zero. -/
theorem value_zero_decimal
    {places : Nat}
    (few : places < Float.exactlyRepresentablePowersOfTen.size) :
    value (OfScientific.ofScientific 0 true places : Float) = .zero .positive := by
  have inside : places ≤ 22 := Nat.le_of_lt_succ few
  obtain ⟨_, _, _, shape, _⟩ := exists_of_isModerate (isModerate_powerOfTen few)
  change value (Float.ofScientific 0 true places) = _
  rw [Float.ofScientific, dif_pos ⟨by decide, inside⟩]
  simp only [↓reduceIte]
  rw [value_div, value_toFloat]
  change repacked (UnpackedFloat.div .binary64 (.zero .positive)
    (value Float.exactlyRepresentablePowersOfTen[places])) = _
  rw [shape, UnpackedFloat.div, repacked_zero]
  rfl

end Double

end RootFinding
