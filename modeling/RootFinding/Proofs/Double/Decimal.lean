import RootFinding.Proofs.Double.Bits
import RootFinding.Proofs.Double.Nearest
import RootFinding.Proofs.Double.Range
import RootFinding.Proofs.Double.Reading

/-!
# Decimals that round to a double

A decimal is read by one multiplication or division of exact numbers, whether by the table of the
powers of ten that are doubles or by unbounded ones, and the result is rounded once. So whatever
decimal rounds to a double is read as that double. A double is known by its value, and so the
reading of a decimal is known by the double it rounds to.
-/

namespace RootFinding

namespace Double

open Float.Model
open Float.Model.UnpackedFloat

section Operations

variable {first second mantissa : Nat} {scale later exponent : Int}
variable (positive : 0 < first) (otherPositive : 0 < second)

/-- A quotient has at least the bits that the divisor leaves, less one. -/
theorem log2_le_log2_div
    (first : Nat)
    {second : Nat}
    (otherPositive : 0 < second) :
    first.log2 ≤ (first / second).log2 + second.log2 + 1 := by
  by_cases zero : first = 0
  · simp [zero]
  have quotientBelow : first / second + 1 ≤ 2 ^ ((first / second).log2 + 1) := Nat.lt_log2_self
  have divisorBelow : second < 2 ^ (second.log2 + 1) := Nat.lt_log2_self
  have below : first < 2 ^ ((first / second).log2 + second.log2 + 2) := by
    calc
      first < second * (first / second + 1) := Nat.lt_mul_div_succ first otherPositive
      _ ≤ 2 ^ (second.log2 + 1) * 2 ^ ((first / second).log2 + 1) :=
        Nat.mul_le_mul divisorBelow.le quotientBelow
      _ = 2 ^ ((first / second).log2 + second.log2 + 2) := by
        rw [← pow_add]
        congr 1
        omega
  have bits := (Nat.log2_lt zero).mpr below
  omega

/-- A product is exact before it is rounded. -/
theorem represents_mul (first second : Nat) (scale later : Int) :
    Represents (ExtendedMantissa.ofMantissaAndAccuracy (first * second) .exact)
      (first * 2 ^ scale * (second * 2 ^ later) / 2 ^ (scale + later)) := by
  have number_eq :
      (first * 2 ^ scale * (second * 2 ^ later) : ℚ) / 2 ^ (scale + later) =
        (first * second : Nat) := by
    rw [zpow_add₀ two_ne_zero]
    push_cast
    field_simp
  rw [number_eq]
  exact Represents.of_exact _

/-- A quotient is cut off before it is rounded, and its accuracy tells the rest. -/
theorem represents_divCore
    (otherPositive : 0 < second)
    (first : Nat)
    (scale later : Int) :
    Represents
      (ExtendedMantissa.ofMantissaAndAccuracy (divCore .binary64 first scale second later).1
        (divCore .binary64 first scale second later).2.2)
      (first * 2 ^ scale / (second * 2 ^ later) /
        2 ^ (divCore .binary64 first scale second later).2.1) := by
  simp only [divCore, totalExponent, targetExponent_binary64]
  generalize target_eq : min (scale - later) _ = target
  generalize shift_eq : (scale - later - target).toNat = shift
  have shifted : ((first <<< shift : Nat) : ℚ) = first * 2 ^ shift := by
    rw [Nat.shiftLeft_eq]
    push_cast
    rfl
  have number_eq :
      (first * 2 ^ scale / (second * 2 ^ later) : ℚ) / 2 ^ target =
        (first <<< shift : Nat) / second := by
    have parts : (2 : ℚ) ^ scale = 2 ^ shift * 2 ^ later * 2 ^ target := by
      rw [← zpow_natCast, ← zpow_add₀ two_ne_zero, ← zpow_add₀ two_ne_zero]
      congr 1
      omega
    rw [shifted, parts]
    field_simp
  rw [number_eq]
  exact Represents.of_quotient _ otherPositive

/-- A product is the double to which the exact product rounds. -/
theorem mul_of_roundsTo
    (wide : scale + later ≤ max ((first * second).log2 + 1 + (scale + later) - 53) (-1074))
    (rounds : RoundsTo (first * 2 ^ scale * (second * 2 ^ later)) mantissa exponent) :
    UnpackedFloat.mul .binary64 (.finite .positive first scale positive)
        (.finite .positive second later otherPositive) =
      .finite .positive mantissa exponent rounds.positive :=
  roundWithAccuracy_of_roundsTo .positive (represents_mul first second scale later) wide rounds

/-- A quotient is the double to which the exact quotient rounds. -/
theorem div_of_roundsTo
    (rounds : RoundsTo (first * 2 ^ scale / (second * 2 ^ later)) mantissa exponent) :
    UnpackedFloat.div .binary64 (.finite .positive first scale positive)
        (.finite .positive second later otherPositive) =
      .finite .positive mantissa exponent rounds.positive := by
  refine roundWithAccuracy_of_roundsTo .positive
    (represents_divCore otherPositive first scale later) ?_ rounds
  simp only [divCore, totalExponent, targetExponent_binary64]
  generalize target_eq : min (scale - later) _ = target
  generalize shift_eq : (scale - later - target).toNat = shift
  have grown := log2_shiftLeft (Nat.ne_of_gt positive) shift
  have bits := log2_le_log2_div (first <<< shift) otherPositive
  omega

end Operations

/-- The value is that of a natural number, with all its 53 bits. -/
def isExactly (number : Nat) : UnpackedFloat → Bool
  | .finite .positive mantissa exponent _ =>
      mantissa.log2 = 52 &&
        mantissa * 2 ^ exponent.toNat = number * 2 ^ (-exponent).toNat
  | _ => false

/-- What is recognised as a number has that number's value, with a full mantissa. -/
theorem exists_of_isExactly
    {number : Nat}
    {value : UnpackedFloat}
    (exactly : isExactly number value = true) :
    ∃ mantissa exponent positive,
      value = .finite .positive mantissa exponent positive ∧
        mantissa.log2 = 52 ∧ (mantissa * 2 ^ exponent : ℚ) = number := by
  unfold isExactly at exactly
  split at exactly
  · rename_i mantissa exponent positive
    simp only [Bool.and_eq_true, decide_eq_true_eq] at exactly
    obtain ⟨full, scaled⟩ := exactly
    refine ⟨mantissa, exponent, positive, rfl, full, ?_⟩
    have scaled : (mantissa * 2 ^ exponent.toNat : ℚ) = number * 2 ^ (-exponent).toNat := by
      exact_mod_cast scaled
    have parts : (2 : ℚ) ^ exponent * 2 ^ (-exponent).toNat = 2 ^ exponent.toNat := by
      rw [← zpow_natCast, ← zpow_natCast, ← zpow_add₀ two_ne_zero]
      congr 1
      omega
    have unit : (2 : ℚ) ^ (-exponent).toNat ≠ 0 := by positivity
    rw [← parts, ← mul_assoc] at scaled
    exact mul_right_cancel₀ unit scaled
  · cases exactly

/-- A number of at most 53 bits is converted exactly. -/
theorem isExactly_ofNat
    {number : Nat}
    (nonzero : number ≠ 0)
    (short : number < 2 ^ 53) :
    isExactly number (repacked (UnpackedFloat.ofNat .binary64 number)) = true := by
  obtain ⟨bits, full, _, rounded⟩ := repacked_ofNat nonzero short
  have whole : ((number.log2 : Int) - 52).toNat = 0 := by omega
  have places : (-((number.log2 : Int) - 52)).toNat = 52 - number.log2 := by omega
  rw [Nat.shiftLeft_eq] at full
  rw [rounded]
  simp only [isExactly, Nat.shiftLeft_eq, full, whole, places, pow_zero, mul_one, decide_true,
    Bool.and_true]

/-- Every entry of the table of powers of ten is exact. -/
private theorem isExactly_tableEntry :
    ∀ places, ∀ inside : places < Float.exactlyRepresentablePowersOfTen.size,
      isExactly (10 ^ places) (value Float.exactlyRepresentablePowersOfTen[places]) = true := by
  decide +kernel

/-- The table holds the powers of ten. -/
theorem isExactly_powerOfTen
    {places : Nat}
    (inside : places < Float.exactlyRepresentablePowersOfTen.size) :
    isExactly (10 ^ places) (value Float.exactlyRepresentablePowersOfTen[places]) = true :=
  isExactly_tableEntry places inside

section Scientific

variable {digits mantissa : Nat} {power exponent : Int}

theorem RoundsTo.number_pos
    {number : ℚ}
    (rounds : RoundsTo number mantissa exponent) :
    0 < number := by
  have positive : (1 : ℚ) ≤ mantissa := by exact_mod_cast rounds.positive
  have unit : (0 : ℚ) < 2 ^ exponent := by positivity
  refine lt_of_lt_of_le (mul_pos ?_ unit) rounds.lower
  linarith

theorem RoundsTo.digits_ne_zero
    (rounds : RoundsTo (digits * 10 ^ power) mantissa exponent) :
    digits ≠ 0 := by
  rintro rfl
  have positive := rounds.number_pos
  simp at positive

/-- A decimal that rounds to a double is below the powers of ten that are not tried. -/
theorem RoundsTo.power_le
    (rounds : RoundsTo (digits * 10 ^ power) mantissa exponent)
    (small : exponent ≤ 971) :
    power ≤ 2048 := by
  by_contra large
  obtain ⟨places, rfl⟩ := Int.eq_ofNat_of_zero_le (show 0 ≤ power by omega)
  have some : (1 : ℚ) ≤ digits := by
    exact_mod_cast Nat.one_le_iff_ne_zero.mpr rounds.digits_ne_zero
  have above : (2 : ℚ) ^ (1024 : Int) ≤ digits * 10 ^ (places : Int) := by
    calc
      (2 : ℚ) ^ (1024 : Int) ≤ 2 ^ (places : Int) := zpow_le_zpow_right₀ one_le_two (by omega)
      _ ≤ 10 ^ (places : Int) := by
        rw [zpow_natCast, zpow_natCast]
        exact pow_le_pow_left₀ (by norm_num) (by norm_num) places
      _ ≤ digits * 10 ^ (places : Int) := le_mul_of_one_le_left (by positivity) some
  have below : (digits * 10 ^ (places : Int) : ℚ) < 2 ^ (1024 : Int) := by
    calc
      (digits * 10 ^ (places : Int) : ℚ) < 2 ^ 53 * 2 ^ exponent := rounds.lt_two_pow
      _ = 2 ^ (53 + exponent) := by
        rw [zpow_add₀ two_ne_zero]
        norm_num
      _ ≤ 2 ^ (1024 : Int) := zpow_le_zpow_right₀ one_le_two (by omega)
  linarith

/-- It is above those as well. -/
theorem RoundsTo.le_power
    (rounds : RoundsTo (digits * 10 ^ power) mantissa exponent) :
    -(2048 + digits.log2) ≤ power := by
  by_contra tiny
  obtain ⟨places, places_eq⟩ := Int.eq_ofNat_of_zero_le (show 0 ≤ -power by omega)
  obtain rfl : power = -places := by omega
  have bits : (digits : ℚ) ≤ 2 ^ (digits.log2 + 1) := by
    exact_mod_cast (Nat.lt_log2_self (n := digits)).le
  have below : (digits * 10 ^ (-places : Int) : ℚ) ≤ 2 ^ (-2048 : Int) := by
    calc
      (digits * 10 ^ (-places : Int) : ℚ) ≤ 2 ^ (digits.log2 + 1) * 2 ^ (-places : Int) := by
        apply mul_le_mul bits _ (by positivity) (by positivity)
        rw [zpow_neg, zpow_neg, zpow_natCast, zpow_natCast]
        exact inv_anti₀ (by positivity) (pow_le_pow_left₀ (by norm_num) (by norm_num) places)
      _ = 2 ^ ((digits.log2 + 1 : Nat) + -places : Int) := by
        rw [zpow_add₀ two_ne_zero, zpow_natCast]
      _ ≤ 2 ^ (-2048 : Int) := zpow_le_zpow_right₀ one_le_two (by omega)
  have positive : (1 : ℚ) ≤ mantissa := by exact_mod_cast rounds.positive
  have above : (2 : ℚ) ^ (-1075 : Int) ≤ digits * 10 ^ (-places : Int) := by
    calc
      (2 : ℚ) ^ (-1075 : Int) = 1 / 2 * 2 ^ (-1074 : Int) := by
        rw [show (-1075 : Int) = -1 + -1074 by norm_num, zpow_add₀ two_ne_zero, zpow_neg_one,
          one_div]
      _ ≤ (mantissa - 1 / 2) * 2 ^ exponent := by
        apply mul_le_mul _ (zpow_le_zpow_right₀ one_le_two rounds.canonical.least_le)
          (by positivity) (by linarith)
        linarith
      _ ≤ digits * 10 ^ (-places : Int) := rounds.lower
  have order : (2 : ℚ) ^ (-2048 : Int) < 2 ^ (-1075 : Int) :=
    zpow_lt_zpow_right₀ one_lt_two (by norm_num)
  linarith

/-- A decimal is read as the double to which it rounds, unless that is too large. -/
theorem ofScientific_of_roundsTo
    (rounds : RoundsTo (digits * 10 ^ power) mantissa exponent)
    (small : exponent ≤ 971) :
    UnpackedFloat.ofScientific .binary64 digits power =
      .finite .positive mantissa exponent rounds.positive := by
  have range : (2 : Int) ^ Format.binary64.exponentBits = 2048 := rfl
  have nonzero := rounds.digits_ne_zero
  have notLarge := rounds.power_le small
  have notTiny := rounds.le_power
  rw [UnpackedFloat.ofScientific, dif_neg nonzero]
  simp only [range]
  rw [if_neg (by omega), if_neg (by omega)]
  split
  · rename_i notBelow
    have number_eq :
        (digits * 10 ^ power : ℚ) =
          (digits <<< Format.binary64.mantissaBits : Nat) *
              2 ^ (-(Format.binary64.mantissaBits : Int)) *
            ((10 ^ power.toNat : Nat) * 2 ^ (0 : Int)) := by
      have power_eq : (10 : ℚ) ^ power = 10 ^ power.toNat := by
        rw [← zpow_natCast, Int.toNat_of_nonneg notBelow]
      rw [power_eq, Nat.shiftLeft_eq, zpow_neg, zpow_natCast]
      push_cast
      field_simp
    rw [number_eq] at rounds
    refine mul_of_roundsTo _ _ ?_ rounds
    have shifted : digits <<< Format.binary64.mantissaBits ≠ 0 := by
      simpa [Nat.shiftLeft_eq] using nonzero
    have bits := log2_shiftLeft nonzero Format.binary64.mantissaBits
    have width : Format.binary64.mantissaBits = 53 := rfl
    have powerPositive : 0 < 10 ^ power.toNat := Nat.pow_pos (by decide)
    have grown := le_log2_mul (Nat.pos_of_ne_zero shifted) powerPositive
    omega
  · rename_i below
    have number_eq :
        (digits * 10 ^ power : ℚ) =
          digits * 2 ^ (0 : Int) / ((10 ^ (-power).toNat : Nat) * 2 ^ (0 : Int)) := by
      have power_eq : (10 : ℚ) ^ power = (10 ^ (-power).toNat)⁻¹ := by
        rw [← zpow_natCast, Int.toNat_of_nonneg (by omega), zpow_neg, inv_inv]
      rw [power_eq]
      push_cast
      field_simp
    rw [number_eq] at rounds
    exact div_of_roundsTo _ _ rounds

/-- A decimal is read as the double it rounds to. -/
theorem value_ofScientific_of_roundsTo
    (rounds : RoundsTo (digits * 10 ^ power) mantissa exponent)
    (small : exponent ≤ 971) :
    value (OfScientific.ofScientific digits (decide (power < 0)) power.natAbs : Float) =
      .finite .positive mantissa exponent rounds.positive := by
  have repacked_eq := repacked_of_isCanonical .positive rounds.positive rounds.canonical small
  change value (Float.ofScientific digits (decide (power < 0)) power.natAbs) = _
  unfold Float.ofScientific
  split
  · rename_i fast
    obtain ⟨short, few⟩ := fast
    have nonzero := rounds.digits_ne_zero
    have inWord : digits < 2 ^ 64 := short.trans (by decide)
    have same : digits.toUInt64.toNat = digits := by
      simpa using Nat.mod_eq_of_lt inWord
    have inside : power.natAbs < Float.exactlyRepresentablePowersOfTen.size :=
      Nat.lt_succ_of_le few
    obtain ⟨first, scale, positive, shape, full, first_eq⟩ :=
      exists_of_isExactly (isExactly_ofNat nonzero short)
    obtain ⟨second, later, otherPositive, otherShape, otherFull, second_eq⟩ :=
      exists_of_isExactly (isExactly_powerOfTen inside)
    have otherShape :
        value Float.exactlyRepresentablePowersOfTen[power.natAbs] =
          .finite .positive second later otherPositive :=
      otherShape
    split
    · rename_i below
      rw [decide_eq_true_eq] at below
      have number_eq :
          (digits * 10 ^ power : ℚ) = first * 2 ^ scale / (second * 2 ^ later) := by
        rw [first_eq, second_eq, show power = -(power.natAbs : Int) by omega, zpow_neg,
          zpow_natCast, Int.natAbs_neg, Int.natAbs_natCast]
        push_cast
        rfl
      rw [number_eq] at rounds
      rw [value_div, value_toFloat, same, shape, otherShape,
        div_of_roundsTo positive otherPositive rounds, repacked_eq]
    · rename_i notBelow
      rw [decide_eq_true_eq] at notBelow
      have number_eq :
          (digits * 10 ^ power : ℚ) = first * 2 ^ scale * (second * 2 ^ later) := by
        rw [first_eq, second_eq, show power = (power.natAbs : Int) by omega, zpow_natCast,
          Int.natAbs_natCast]
        push_cast
        rfl
      rw [number_eq] at rounds
      have bits := le_log2_mul positive otherPositive
      rw [value_mul, value_toFloat, same, shape, otherShape,
        mul_of_roundsTo positive otherPositive (by omega) rounds, repacked_eq]
  · have signed_eq :
        (if decide (power < 0) = true then Int.negOfNat power.natAbs else Int.ofNat power.natAbs) =
          power := by
      split <;> rename_i sign <;>
        simp only [decide_eq_true_eq, Int.negOfNat_eq, Int.ofNat_eq_natCast] at sign ⊢ <;> omega
    rw [signed_eq, value_ofModel_ofScientific, ofScientific_of_roundsTo rounds small, repacked_eq]

end Scientific

end Double

end RootFinding
