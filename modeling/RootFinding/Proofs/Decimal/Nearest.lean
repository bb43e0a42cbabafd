import Mathlib.Algebra.Order.Field.Power
import Mathlib.Algebra.Order.Floor.Div
import Mathlib.Algebra.Order.Floor.Semiring
import Mathlib.Data.Rat.Floor
import Mathlib.Tactic.FieldSimp
import Mathlib.Tactic.Linarith
import Mathlib.Tactic.Positivity
import Mathlib.Tactic.Ring
import RootFinding.Decimal.Nearest

/-!
# What a rounded quotient is near to

The double nearest to a quotient over the rationals. Its unit is a power of two that is read off the
quotient, its mantissa is the integer nearest to the quotient in that unit, and it is infinite only
where the quotient is out of range. Being nearest, the mantissa never crosses an integer that the
quotient does not cross, which is what its ceiling needs.
-/

namespace RootFinding

namespace Decimal

variable {numerator denominator bound : Nat}

/-- A quotient is rounded by at most half a unit. -/
theorem abs_roundedQuotient_sub_le
    (numerator : Nat)
    (positive : 0 < denominator) :
    |(roundedQuotient numerator denominator : ℚ) - numerator / denominator| ≤ 1 / 2 := by
  obtain ⟨above, below⟩ := roundedQuotient_within_half numerator positive
  have positive' : (0 : ℚ) < denominator := by exact_mod_cast positive
  have above' :
      2 * (numerator : ℚ) ≤ (2 * roundedQuotient numerator denominator + 1) * denominator := by
    exact_mod_cast above
  have below' :
      2 * (roundedQuotient numerator denominator : ℚ) * denominator ≤
        2 * numerator + denominator := by
    exact_mod_cast below
  rw [abs_sub_le_iff, sub_le_iff_le_add, sub_le_iff_le_add, ← sub_le_iff_le_add',
    le_div_iff₀ positive', div_le_iff₀ positive']
  constructor <;> linarith

/-- Rounding does not go past an integer that the quotient does not go past. -/
theorem roundedQuotient_le
    (positive : 0 < denominator)
    (below : (numerator : ℚ) / denominator ≤ bound) :
    roundedQuotient numerator denominator ≤ bound := by
  have near := (abs_sub_le_iff.mp (abs_roundedQuotient_sub_le numerator positive)).1
  have small : (roundedQuotient numerator denominator : ℚ) < bound + 1 := by linarith
  exact Nat.lt_succ_iff.mp (by exact_mod_cast small)

/-- Rounding does not go back to an integer that is more than half a unit behind. -/
theorem lt_roundedQuotient
    (positive : 0 < denominator)
    (above : (bound : ℚ) + 1 / 2 < numerator / denominator) :
    bound < roundedQuotient numerator denominator := by
  have near := (abs_sub_le_iff.mp (abs_roundedQuotient_sub_le numerator positive)).2
  have large : (bound : ℚ) < roundedQuotient numerator denominator := by linarith
  exact_mod_cast large

/-- An integer is rounded to itself. -/
theorem roundedQuotient_eq
    (positive : 0 < denominator)
    (exact : (numerator : ℚ) / denominator = bound) :
    roundedQuotient numerator denominator = bound := by
  have near := (abs_sub_le_iff.mp (abs_roundedQuotient_sub_le numerator positive)).2
  have large : (bound : ℚ) < roundedQuotient numerator denominator + 1 := by linarith
  exact Nat.le_antisymm (roundedQuotient_le positive (le_of_eq exact))
    (Nat.lt_succ_iff.mp (by exact_mod_cast large))

/-- A quotient lies above the integer before its ceiling by a unit of its denominator. -/
theorem pred_ceil_add_le
    (positive : 0 < numerator)
    (positive' : 0 < denominator) :
    ((⌈(numerator : ℚ) / denominator⌉₊ - 1 : Nat) : ℚ) + 1 / denominator ≤
      numerator / denominator := by
  have denominator_pos : (0 : ℚ) < denominator := by exact_mod_cast positive'
  have quotient_pos : (0 : ℚ) < numerator / denominator :=
    div_pos (by exact_mod_cast positive) denominator_pos
  have ceil_pos : 0 < ⌈(numerator : ℚ) / denominator⌉₊ := Nat.ceil_pos.mpr quotient_pos
  have below : ((⌈(numerator : ℚ) / denominator⌉₊ - 1 : Nat) : ℚ) < numerator / denominator :=
    Nat.lt_ceil.mp (Nat.sub_lt ceil_pos Nat.one_pos)
  rw [lt_div_iff₀ denominator_pos] at below
  have next :
      (⌈(numerator : ℚ) / denominator⌉₊ - 1) * denominator + 1 ≤ numerator :=
    Nat.succ_le_of_lt (by exact_mod_cast below)
  rw [le_div_iff₀ denominator_pos, add_mul, one_div_mul_cancel denominator_pos.ne']
  exact_mod_cast next

/--
Rounding a quotient to multiples of a fraction of one keeps its ceiling, if the denominator is small
enough for the distance from the integer before the ceiling to be more than half of the fraction.
-/
theorem ceil_roundedQuotient
    {wholes parts scale : Nat}
    (positive : 0 < numerator)
    (positive' : 0 < denominator)
    (fine : denominator < 2 * scale)
    (partsPositive : 0 < parts)
    (scaled : (wholes : ℚ) / parts = numerator / denominator * scale) :
    ⌈(roundedQuotient wholes parts : ℚ) / scale⌉₊ = ⌈(numerator : ℚ) / denominator⌉₊ := by
  have denominator_pos : (0 : ℚ) < denominator := by exact_mod_cast positive'
  have scale_pos : (0 : ℚ) < scale := by
    exact_mod_cast (by omega : 0 < scale)
  have ceil_ne : ⌈(numerator : ℚ) / denominator⌉₊ ≠ 0 := by
    rw [Nat.ne_zero_iff_zero_lt, Nat.ceil_pos]
    exact div_pos (by exact_mod_cast positive) denominator_pos
  have upper : roundedQuotient wholes parts ≤ ⌈(numerator : ℚ) / denominator⌉₊ * scale := by
    refine roundedQuotient_le partsPositive ?_
    rw [scaled]
    push_cast
    exact mul_le_mul_of_nonneg_right (Nat.le_ceil _) scale_pos.le
  have lower :
      (⌈(numerator : ℚ) / denominator⌉₊ - 1) * scale < roundedQuotient wholes parts := by
    refine lt_roundedQuotient partsPositive ?_
    have apart : (1 : ℚ) / 2 < 1 / denominator * scale := by
      rw [one_div_mul_eq_div, div_lt_div_iff₀ (by norm_num) denominator_pos, one_mul, mul_comm]
      exact_mod_cast fine
    have beyond := mul_le_mul_of_nonneg_right (pred_ceil_add_le positive positive') scale_pos.le
    rw [add_mul] at beyond
    rw [scaled]
    push_cast
    linarith
  rw [Nat.ceil_eq_iff ceil_ne, lt_div_iff₀ scale_pos, div_le_iff₀ scale_pos]
  exact ⟨by exact_mod_cast lower, by exact_mod_cast upper⟩

end Decimal

namespace DoubleMagnitude

open Decimal

section Quotients

variable {numerator denominator : Nat}

/-- The parts of a quotient shifted against each other are its quotient in another unit. -/
theorem shifted_div (numerator denominator : Nat) (exponent : Int) :
    ((numerator <<< (-exponent).toNat : Nat) : ℚ) / (denominator <<< exponent.toNat : Nat) =
      numerator / denominator / 2 ^ exponent := by
  rcases Int.le_total 0 exponent with nonneg | nonpos
  · obtain ⟨shift, rfl⟩ := Int.eq_ofNat_of_zero_le nonneg
    simp [Nat.shiftLeft_eq, div_div]
  · obtain ⟨shift, shift_eq⟩ := Int.eq_ofNat_of_zero_le (Int.neg_nonneg_of_nonpos nonpos)
    obtain rfl : exponent = -(shift : Int) := by omega
    simp [Nat.shiftLeft_eq, div_eq_mul_inv]
    ring

theorem shifted_pos
    (positive : 0 < denominator)
    (shift : Nat) :
    0 < denominator <<< shift := by
  rw [Nat.shiftLeft_eq]
  exact Nat.mul_pos positive (Nat.two_pow_pos shift)

/-- The comparison that is made on shifted parts. -/
theorem shifted_le_iff
    (positive : 0 < denominator)
    (exponent : Int) :
    denominator <<< exponent.toNat ≤ numerator <<< (-exponent).toNat ↔
      (2 : ℚ) ^ exponent ≤ numerator / denominator := by
  have positive' : (0 : ℚ) < (denominator <<< exponent.toNat : Nat) := by
    exact_mod_cast shifted_pos positive _
  have unit : (0 : ℚ) < 2 ^ exponent := by positivity
  rw [← Nat.cast_le (α := ℚ), ← one_le_div₀ positive', shifted_div, one_le_div₀ unit]

/-- A number lies between the power of two of its logarithm and the next. -/
theorem two_pow_log2_bounds
    {number : Nat}
    (positive : 0 < number) :
    (2 : ℚ) ^ (number.log2 : Int) ≤ number ∧ (number : ℚ) < 2 ^ ((number.log2 : Int) + 1) := by
  constructor
  · exact_mod_cast Nat.log2_self_le (Nat.pos_iff_ne_zero.mp positive)
  · exact_mod_cast Nat.lt_log2_self

/-- The quotient lies between the power of two of its exponent and the next one. -/
theorem binaryExponent_bounds
    (positive : 0 < numerator)
    (positive' : 0 < denominator) :
    (2 : ℚ) ^ binaryExponent numerator denominator ≤ numerator / denominator ∧
      (numerator : ℚ) / denominator < 2 ^ (binaryExponent numerator denominator + 1) := by
  obtain ⟨least, below⟩ := two_pow_log2_bounds positive
  obtain ⟨least', below'⟩ := two_pow_log2_bounds positive'
  have denominator_pos : (0 : ℚ) < denominator := by exact_mod_cast positive'
  have above :
      (2 : ℚ) ^ ((numerator.log2 : Int) - denominator.log2 - 1) ≤ numerator / denominator := by
    rw [sub_sub, zpow_sub₀ (by norm_num)]
    exact div_le_div₀ (by positivity) least denominator_pos below'.le
  have under :
      (numerator : ℚ) / denominator < 2 ^ ((numerator.log2 : Int) - denominator.log2 + 1) := by
    rw [sub_add_eq_add_sub, zpow_sub₀ (by norm_num)]
    exact div_lt_div₀ below least' (by positivity) (by positivity)
  unfold binaryExponent
  simp only [shifted_le_iff positive']
  split
  · rename_i reached
    exact ⟨reached, under⟩
  · rename_i missed
    exact ⟨above, by simpa using missed⟩

/-- The mantissa of the double nearest to a quotient, in the unit of its spacing. -/
def nearestUnits (numerator denominator : Nat) : Nat :=
  let spacing := spacingExponent numerator denominator
  roundedQuotient (numerator <<< (-spacing).toNat) (denominator <<< spacing.toNat)

/-- Where a quotient is in range, its double is finite, and is the nearest units of its spacing. -/
theorem exists_finite
    (positive : 0 < numerator)
    (positive' : 0 < denominator)
    (inRange : (numerator : ℚ) / denominator < 2 ^ (1023 : Int)) :
    ∃ mantissa exponent,
      nearest numerator denominator = .finite mantissa exponent ∧
        (mantissa : ℚ) * 2 ^ exponent =
          nearestUnits numerator denominator * 2 ^ spacingExponent numerator denominator := by
  have reached := (binaryExponent_bounds positive positive').1.trans_lt inRange
  have small : binaryExponent numerator denominator < 1023 :=
    (zpow_lt_zpow_iff_right₀ (by norm_num)).mp reached
  have spacing_lt : spacingExponent numerator denominator < greatestExponent := by
    simp only [spacingExponent, greatestExponent, leastExponent]
    omega
  have isPositive : numerator ≠ 0 := Nat.pos_iff_ne_zero.mp positive
  rcases eq_or_ne (nearestUnits numerator denominator) (2 * BinaryValue.leadingBit) with
    full | notFull
  · refine ⟨BinaryValue.leadingBit, spacingExponent numerator denominator + 1, ?_, ?_⟩
    · rw [nearestUnits] at full
      simp only [nearest, isPositive, full, ↓reduceIte]
      rw [if_pos (by omega)]
    · rw [full, zpow_add_one₀ (by norm_num)]
      push_cast
      ring
  · refine ⟨nearestUnits numerator denominator, spacingExponent numerator denominator, ?_, rfl⟩
    rw [nearestUnits] at notFull ⊢
    simp only [nearest, isPositive, notFull, ↓reduceIte]
    rw [if_pos (by omega)]

/-- The quotient that a finite double is written as. -/
theorem numerator_div_denominator (mantissa : Nat) (exponent : Int) :
    (DoubleMagnitude.numerator mantissa exponent : ℚ) / DoubleMagnitude.denominator exponent =
      mantissa * 2 ^ exponent := by
  have shifted := shifted_div mantissa 1 (-exponent)
  rw [neg_neg] at shifted
  rw [DoubleMagnitude.numerator, DoubleMagnitude.denominator, shifted]
  simp

/-- The least integer that is not below a finite double. -/
theorem ceiling?_finite (mantissa : Nat) (exponent : Int) :
    ceiling? (.finite mantissa exponent) = some ⌈(mantissa : ℚ) * 2 ^ exponent⌉₊ := by
  have positive : 0 < DoubleMagnitude.denominator exponent := shifted_pos Nat.one_pos _
  have positive' : (0 : ℚ) < DoubleMagnitude.denominator exponent := by exact_mod_cast positive
  rw [ceiling?, ← numerator_div_denominator]
  refine congrArg some (eq_of_forall_ge_iff fun bound => ?_)
  rw [Nat.ceil_le, div_le_iff₀ positive', ← Nat.ceilDiv_eq_add_pred_div,
    ceilDiv_le_iff_le_mul positive, mul_comm]
  norm_cast

/-- The distance between neighbouring doubles is `2 ^ -52` of the power below, if that is normal. -/
theorem spacingExponent_eq
    (normal : -1022 ≤ binaryExponent numerator denominator) :
    spacingExponent numerator denominator = binaryExponent numerator denominator - 52 := by
  simp only [spacingExponent, leastExponent]
  omega

/-- A quotient that is itself a power of two is nearest to itself. -/
theorem nearestUnits_power
    (positive' : 0 < denominator)
    (normal : -1022 ≤ binaryExponent numerator denominator)
    (isPower : (numerator : ℚ) / denominator = 2 ^ binaryExponent numerator denominator) :
    (nearestUnits numerator denominator : ℚ) * 2 ^ spacingExponent numerator denominator =
      numerator / denominator := by
  have units : nearestUnits numerator denominator = 2 ^ 52 := by
    refine roundedQuotient_eq (shifted_pos positive' _) ?_
    rw [shifted_div, isPower, spacingExponent_eq normal, ← zpow_sub₀ (by norm_num)]
    norm_num
  rw [units, isPower, spacingExponent_eq normal, zpow_sub₀ (by norm_num)]
  norm_num
  ring

/-- Rounding to the units of a double keeps the ceiling where the denominator is short for it. -/
theorem ceil_nearestUnits
    (positive : 0 < numerator)
    (positive' : 0 < denominator)
    (normal : -1022 ≤ binaryExponent numerator denominator)
    (short : (denominator : ℚ) * 2 ^ binaryExponent numerator denominator < 2 ^ (53 : Int)) :
    ⌈(nearestUnits numerator denominator : ℚ) *
        2 ^ spacingExponent numerator denominator⌉₊ =
      ⌈(numerator : ℚ) / denominator⌉₊ := by
  have one_le : (1 : ℚ) ≤ denominator := by exact_mod_cast positive'
  have power_lt : (2 : ℚ) ^ binaryExponent numerator denominator < 2 ^ (53 : Int) :=
    (le_mul_of_one_le_left (by positivity) one_le).trans_lt short
  have exponent_lt : binaryExponent numerator denominator < 53 :=
    (zpow_lt_zpow_iff_right₀ (by norm_num)).mp power_lt
  -- The spacing is at most one, so a whole number of it makes up every integer.
  obtain ⟨shift, shift_eq⟩ :
      ∃ shift : Nat, spacingExponent numerator denominator = -(shift : Int) :=
    ⟨(52 - binaryExponent numerator denominator).toNat, by rw [spacingExponent_eq normal]; omega⟩
  have exponent_eq : binaryExponent numerator denominator = 52 - (shift : Int) := by
    rw [spacingExponent_eq normal] at shift_eq
    omega
  have fine : denominator < 2 * 2 ^ shift := by
    rw [exponent_eq, zpow_sub₀ (by norm_num), mul_div_assoc', div_lt_iff₀ (by positivity)] at short
    norm_num at short
    have small : (denominator : ℚ) < 2 * 2 ^ shift := by linarith
    exact_mod_cast small
  have scaled :
      ((numerator <<< (-spacingExponent numerator denominator).toNat : Nat) : ℚ) /
          (denominator <<< (spacingExponent numerator denominator).toNat : Nat) =
        numerator / denominator * (2 ^ shift : Nat) := by
    rw [shifted_div, shift_eq, zpow_neg, div_inv_eq_mul, zpow_natCast]
    push_cast
    rfl
  have kept := ceil_roundedQuotient positive positive' fine (shifted_pos positive' _) scaled
  rw [shift_eq, zpow_neg, zpow_natCast, ← div_eq_mul_inv]
  exact_mod_cast kept

/--
The ceiling of a quotient of integers is the ceiling of the double nearest to it: a dividend of
53 binary digits is too short for the quotient to come as close to an integer as half a unit.
-/
theorem ceiling?_nearest
    (positive : 0 < numerator)
    (short : numerator ≤ 2 ^ 53)
    (positive' : 0 < denominator)
    (inRange : denominator ≤ 2 ^ 1022) :
    ceiling? (nearest numerator denominator) = some ⌈(numerator : ℚ) / denominator⌉₊ := by
  have denominator_pos : (0 : ℚ) < denominator := by exact_mod_cast positive'
  obtain ⟨reached, below⟩ := binaryExponent_bounds positive positive'
  have short' : (numerator : ℚ) ≤ 2 ^ (53 : Int) := by exact_mod_cast short
  have small : (numerator : ℚ) / denominator < 2 ^ (1023 : Int) :=
    calc (numerator : ℚ) / denominator ≤ numerator :=
          div_le_self (Nat.cast_nonneg _) (by exact_mod_cast positive')
      _ ≤ 2 ^ (53 : Int) := short'
      _ < 2 ^ (1023 : Int) := zpow_lt_zpow_right₀ (by norm_num) (by norm_num)
  have normal : -1022 ≤ binaryExponent numerator denominator := by
    by_contra subnormal
    have tiny : (numerator : ℚ) / denominator < 2 ^ (-1022 : Int) :=
      below.trans_le (zpow_le_zpow_right₀ (by norm_num) (by omega))
    have least : (2 : ℚ) ^ (-1022 : Int) ≤ numerator / denominator := by
      rw [zpow_neg, inv_eq_one_div]
      exact div_le_div₀ (Nat.cast_nonneg _) (by exact_mod_cast positive) denominator_pos
        (by exact_mod_cast inRange)
    exact absurd tiny (not_lt.mpr least)
  obtain ⟨mantissa, exponent, nearest_eq, value_eq⟩ := exists_finite positive positive' small
  rw [nearest_eq, ceiling?_finite, value_eq]
  rw [le_div_iff₀ denominator_pos, mul_comm] at reached
  rcases (reached.trans short').lt_or_eq with shorter | full
  · rw [ceil_nearestUnits positive positive' normal shorter]
  · have isPower : (numerator : ℚ) / denominator = 2 ^ binaryExponent numerator denominator := by
      rw [div_eq_iff denominator_pos.ne', mul_comm]
      exact le_antisymm (short'.trans_eq full.symm) reached
    rw [nearestUnits_power positive' normal isPower]

end Quotients

end DoubleMagnitude

end RootFinding
