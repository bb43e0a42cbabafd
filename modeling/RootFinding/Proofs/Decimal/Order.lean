import Mathlib.Algebra.Order.WithTop.Untop0
import RootFinding.Proofs.Decimal.Nearest
import RootFinding.Proofs.Double.Rounding

/-!
# The order of rounded quotients

A larger quotient is not rounded to a smaller double. Where two quotients have the same unit, this is
so because the nearest integer is monotone, ties included; where the units differ, a power of two
lies between the quotients that both roundings respect. So sums of doubles are monotone as well.
-/

namespace RootFinding

namespace Decimal

variable {numerator denominator larger other : Nat}

/-- The middle between two integers is rounded to the even one. -/
theorem roundedQuotient_of_middle
    {whole : Nat}
    (positive : 0 < denominator)
    (middle : (numerator : ℚ) / denominator = whole + 1 / 2) :
    roundedQuotient numerator denominator = whole + whole % 2 := by
  have positive' : (0 : ℚ) < denominator := by exact_mod_cast positive
  have twice : 2 * numerator = 2 * whole * denominator + denominator := by
    rw [div_eq_iff positive'.ne'] at middle
    have doubled : 2 * (numerator : ℚ) = 2 * whole * denominator + denominator := by
      rw [middle]
      ring
    exact_mod_cast doubled
  rw [Nat.mul_assoc] at twice
  obtain ⟨rest, rfl⟩ := Nat.exists_eq_add_of_le (by omega : whole * denominator ≤ numerator)
  have rest_eq : 2 * rest = denominator := by omega
  have whole_eq : (whole * denominator + rest) / denominator = whole := by
    rw [Nat.add_comm, Nat.add_mul_div_right _ _ positive, Nat.div_eq_of_lt (by omega), Nat.zero_add]
  have rest_eq' : (whole * denominator + rest) % denominator = rest := by
    rw [Nat.add_comm, Nat.add_mul_mod_self_right, Nat.mod_eq_of_lt (by omega)]
  rw [roundedQuotient, whole_eq, rest_eq', rest_eq]
  simp

/-- Rounding keeps the order of quotients. -/
theorem roundedQuotient_mono
    (positive : 0 < denominator)
    (positive' : 0 < other)
    (notAbove : (numerator : ℚ) / denominator ≤ larger / other) :
    roundedQuotient numerator denominator ≤ roundedQuotient larger other := by
  by_contra above
  have above : (roundedQuotient larger other : ℚ) + 1 ≤ roundedQuotient numerator denominator := by
    exact_mod_cast Nat.lt_of_not_le above
  have near := (abs_sub_le_iff.mp (abs_roundedQuotient_sub_le numerator positive)).1
  have near' := (abs_sub_le_iff.mp (abs_roundedQuotient_sub_le larger positive')).2
  -- Both quotients are the middle between the two integers.
  have same := roundedQuotient_of_middle positive
    (le_antisymm (by linarith) (by linarith) :
      (numerator : ℚ) / denominator = roundedQuotient larger other + 1 / 2)
  have same' := roundedQuotient_of_middle positive'
    (le_antisymm (by linarith) (by linarith) :
      (larger : ℚ) / other = roundedQuotient larger other + 1 / 2)
  rw [same, ← same'] at above
  linarith

end Decimal

namespace DoubleMagnitude

open Decimal Double

/-- What a double stands for. -/
def amount : DoubleMagnitude → WithTop ℚ
  | .finite mantissa exponent => ((mantissa * 2 ^ exponent : ℚ) : WithTop ℚ)
  | .infinite => ⊤

/-- Doubles are ordered as what they stand for. -/
instance : Preorder DoubleMagnitude :=
  Preorder.lift amount

/-- Finite magnitudes are ordered as the numbers that they stand for. -/
theorem finite_le_finite_iff
    {mantissa other : Nat}
    {exponent later : Int} :
    finite mantissa exponent ≤ finite other later ↔
      (mantissa : ℚ) * 2 ^ exponent ≤ other * 2 ^ later :=
  WithTop.coe_le_coe

theorem le_infinite (magnitude : DoubleMagnitude) : magnitude ≤ infinite := by
  change amount magnitude ≤ ⊤
  exact le_top

theorem not_infinite_le_finite (mantissa : Nat) (exponent : Int) :
    ¬infinite ≤ finite mantissa exponent := by
  intro notAbove
  change ⊤ ≤ amount (finite mantissa exponent) at notAbove
  exact (WithTop.coe_lt_top _).not_ge notAbove

section Nearest

variable {numerator denominator larger other : Nat}

/-- The exponent of a larger quotient is no smaller. -/
theorem binaryExponent_mono
    (positive : 0 < numerator)
    (positive' : 0 < denominator)
    (largerPositive : 0 < larger)
    (otherPositive : 0 < other)
    (notAbove : (numerator : ℚ) / denominator ≤ larger / other) :
    binaryExponent numerator denominator ≤ binaryExponent larger other := by
  have reached := (binaryExponent_bounds positive positive').1
  have below := (binaryExponent_bounds largerPositive otherPositive).2
  have order := (reached.trans notAbove).trans_lt below
  exact Int.lt_add_one_iff.mp ((zpow_lt_zpow_iff_right₀ one_lt_two).mp order)

/-- Doubles lie no closer together around a larger quotient. -/
theorem spacingExponent_mono
    (positive : 0 < numerator)
    (positive' : 0 < denominator)
    (largerPositive : 0 < larger)
    (otherPositive : 0 < other)
    (notAbove : (numerator : ℚ) / denominator ≤ larger / other) :
    spacingExponent numerator denominator ≤ spacingExponent larger other := by
  have order := binaryExponent_mono positive positive' largerPositive otherPositive notAbove
  simp only [spacingExponent]
  omega

/-- The units of a quotient have at most 53 binary digits, or are the least number of 54. -/
theorem nearestUnits_le
    (positive : 0 < numerator)
    (positive' : 0 < denominator) :
    nearestUnits numerator denominator ≤ 2 ^ 53 := by
  refine roundedQuotient_le (shifted_pos positive' _) ?_
  have below := (binaryExponent_bounds positive positive').2
  have order : binaryExponent numerator denominator + 1 ≤
      53 + spacingExponent numerator denominator := by
    simp only [spacingExponent]
    omega
  rw [shifted_div, div_le_iff₀ (by positivity)]
  calc
    (numerator : ℚ) / denominator ≤ 2 ^ (binaryExponent numerator denominator + 1) := below.le
    _ ≤ 2 ^ (53 + spacingExponent numerator denominator) :=
      zpow_le_zpow_right₀ one_le_two order
    _ = (2 ^ 53 : Nat) * 2 ^ spacingExponent numerator denominator := by
      rw [zpow_add₀ two_ne_zero]
      norm_num

/-- They have no fewer, if the unit is not the least one. -/
theorem le_nearestUnits
    (positive : 0 < numerator)
    (positive' : 0 < denominator)
    (normal : leastExponent < spacingExponent numerator denominator) :
    2 ^ 52 ≤ nearestUnits numerator denominator := by
  have reached := (binaryExponent_bounds positive positive').1
  have order : binaryExponent numerator denominator =
      52 + spacingExponent numerator denominator := by
    simp only [spacingExponent] at normal ⊢
    omega
  have exact : roundedQuotient (2 ^ 52) 1 = 2 ^ 52 := roundedQuotient_eq Nat.one_pos (by simp)
  rw [← exact]
  refine roundedQuotient_mono Nat.one_pos (shifted_pos positive' _) ?_
  rw [shifted_div, le_div_iff₀ (by positivity)]
  rw [order, zpow_add₀ two_ne_zero] at reached
  norm_num at reached ⊢
  exact reached

/-- Rounding to units keeps the order. -/
theorem nearestUnits_mono
    (positive : 0 < numerator)
    (positive' : 0 < denominator)
    (largerPositive : 0 < larger)
    (otherPositive : 0 < other)
    (notAbove : (numerator : ℚ) / denominator ≤ larger / other) :
    (nearestUnits numerator denominator : ℚ) * 2 ^ spacingExponent numerator denominator ≤
      nearestUnits larger other * 2 ^ spacingExponent larger other := by
  have order := spacingExponent_mono positive positive' largerPositive otherPositive notAbove
  rcases order.lt_or_eq with earlier | same
  · have least : leastExponent ≤ spacingExponent numerator denominator := le_max_right _ _
    have short : (nearestUnits numerator denominator : ℚ) ≤ 2 ^ 53 := by
      exact_mod_cast nearestUnits_le positive positive'
    have long : (2 ^ 52 : ℚ) ≤ nearestUnits larger other := by
      exact_mod_cast le_nearestUnits largerPositive otherPositive (least.trans_lt earlier)
    calc
      (nearestUnits numerator denominator : ℚ) * 2 ^ spacingExponent numerator denominator ≤
          2 ^ 53 * 2 ^ spacingExponent numerator denominator := by gcongr
      _ ≤ 2 ^ 52 * 2 ^ spacingExponent larger other := power_le_power earlier
      _ ≤ nearestUnits larger other * 2 ^ spacingExponent larger other := by gcongr
  · rw [same]
    gcongr
    refine roundedQuotient_mono (shifted_pos positive' _) (shifted_pos otherPositive _) ?_
    rw [shifted_div, shifted_div, same]
    gcongr

/-- The exponent of the nearest double, whether or not it is in range. -/
def roundedExponent (numerator denominator : Nat) : Int :=
  if nearestUnits numerator denominator = 2 * BinaryValue.leadingBit then
    spacingExponent numerator denominator + 1
  else spacingExponent numerator denominator

/-- Rounding carries a larger quotient at least as far up. -/
theorem roundedExponent_mono
    (positive : 0 < numerator)
    (positive' : 0 < denominator)
    (largerPositive : 0 < larger)
    (otherPositive : 0 < other)
    (notAbove : (numerator : ℚ) / denominator ≤ larger / other) :
    roundedExponent numerator denominator ≤ roundedExponent larger other := by
  have order := spacingExponent_mono positive positive' largerPositive otherPositive notAbove
  have units := nearestUnits_mono positive positive' largerPositive otherPositive notAbove
  have full : 2 * BinaryValue.leadingBit = 2 ^ 53 := rfl
  simp only [roundedExponent, full]
  rcases order.lt_or_eq with earlier | same
  · split <;> split <;> omega
  · rw [same] at units ⊢
    have units : nearestUnits numerator denominator ≤ nearestUnits larger other := by
      exact_mod_cast le_of_mul_le_mul_right units (by positivity)
    have short := nearestUnits_le largerPositive otherPositive
    split <;> split <;> omega

/-- The double nearest to a positive quotient is canonical and stands for its units, if in range. -/
theorem nearest_cases
    (positive : 0 < numerator)
    (positive' : 0 < denominator) :
    (∃ mantissa,
        nearest numerator denominator = .finite mantissa (roundedExponent numerator denominator) ∧
          IsCanonical mantissa (roundedExponent numerator denominator) ∧
          roundedExponent numerator denominator ≤ greatestExponent ∧
          (mantissa : ℚ) * 2 ^ roundedExponent numerator denominator =
            nearestUnits numerator denominator * 2 ^ spacingExponent numerator denominator) ∨
      nearest numerator denominator = .infinite ∧
        greatestExponent < roundedExponent numerator denominator := by
  have nonzero : numerator ≠ 0 := Nat.ne_of_gt positive
  have least : -1074 ≤ spacingExponent numerator denominator := le_max_right _ _
  have units_eq :
      roundedQuotient (numerator <<< (-spacingExponent numerator denominator).toNat)
          (denominator <<< (spacingExponent numerator denominator).toNat) =
        nearestUnits numerator denominator :=
    rfl
  simp only [nearest, nonzero, ↓reduceIte, units_eq, roundedExponent]
  split
  · rename_i carried
    dsimp only
    split
    · rename_i inRange
      have canonical :
          IsCanonical BinaryValue.leadingBit (spacingExponent numerator denominator + 1) :=
        .of_bounds (by decide) (by omega) (.inr le_rfl)
      refine .inl ⟨_, rfl, canonical, inRange, ?_⟩
      rw [carried, zpow_add_one₀ two_ne_zero]
      push_cast
      ring
    · rename_i outOfRange
      exact .inr ⟨rfl, not_le.mp outOfRange⟩
  · rename_i notCarried
    dsimp only
    split
    · rename_i inRange
      have short : nearestUnits numerator denominator < 2 ^ 53 :=
        lt_of_le_of_ne (nearestUnits_le positive positive') notCarried
      have full :
          spacingExponent numerator denominator = -1074 ∨
            2 ^ 52 ≤ nearestUnits numerator denominator :=
        least.eq_or_lt.imp Eq.symm (le_nearestUnits positive positive')
      exact .inl ⟨_, rfl, .of_bounds short least full, inRange, rfl⟩
    · rename_i outOfRange
      exact .inr ⟨rfl, not_le.mp outOfRange⟩

theorem zero_le (magnitude : DoubleMagnitude) : finite 0 leastExponent ≤ magnitude := by
  cases magnitude with
  | infinite => exact le_infinite _
  | finite mantissa exponent =>
      rw [finite_le_finite_iff, Nat.cast_zero, zero_mul]
      positivity

/-- A larger quotient is not rounded to a smaller double. -/
theorem nearest_mono
    (positive' : 0 < denominator)
    (otherPositive : 0 < other)
    (notAbove : (numerator : ℚ) / denominator ≤ larger / other) :
    nearest numerator denominator ≤ nearest larger other := by
  rcases Nat.eq_zero_or_pos numerator with rfl | positive
  · exact zero_le _
  have quotient_pos : (0 : ℚ) < numerator / denominator := by positivity
  have largerPositive : 0 < larger := by
    rw [Nat.pos_iff_ne_zero]
    rintro rfl
    simp at notAbove
    linarith
  rcases nearest_cases largerPositive otherPositive with
    ⟨_, largerShape, _, inRange, larger_eq⟩ | ⟨largerShape, _⟩
  · rcases nearest_cases positive positive' with ⟨_, shape, _, _, value_eq⟩ | ⟨_, outOfRange⟩
    · rw [shape, largerShape, finite_le_finite_iff, value_eq, larger_eq]
      exact nearestUnits_mono positive positive' largerPositive otherPositive notAbove
    · have order := roundedExponent_mono positive positive' largerPositive otherPositive notAbove
      omega
  · rw [largerShape]
    exact le_infinite _

end Nearest

theorem denominator_pos (exponent : Int) : 0 < DoubleMagnitude.denominator exponent :=
  shifted_pos Nat.one_pos _

/-- The sum of two finite doubles as one quotient. -/
theorem sum_div (mantissa other : Nat) (exponent later : Int) :
    ((DoubleMagnitude.numerator mantissa exponent * DoubleMagnitude.denominator later +
          DoubleMagnitude.numerator other later * DoubleMagnitude.denominator exponent : Nat) : ℚ) /
        (DoubleMagnitude.denominator exponent * DoubleMagnitude.denominator later : Nat) =
      mantissa * 2 ^ exponent + other * 2 ^ later := by
  have positive : (DoubleMagnitude.denominator exponent : ℚ) ≠ 0 := by
    exact_mod_cast (denominator_pos exponent).ne'
  have positive' : (DoubleMagnitude.denominator later : ℚ) ≠ 0 := by
    exact_mod_cast (denominator_pos later).ne'
  rw [← numerator_div_denominator, ← numerator_div_denominator]
  push_cast
  field_simp

/-- A sum does not become smaller with its parts becoming larger. -/
theorem add_mono
    {x y u v : DoubleMagnitude}
    (first : x ≤ u)
    (second : y ≤ v) :
    x.add y ≤ u.add v := by
  cases u with
  | infinite => exact le_infinite _
  | finite largerMantissa largerExponent =>
      cases v with
      | infinite => exact le_infinite _
      | finite otherMantissa otherExponent =>
          cases x with
          | infinite => exact absurd first (not_infinite_le_finite _ _)
          | finite mantissa exponent =>
              cases y with
              | infinite => exact absurd second (not_infinite_le_finite _ _)
              | finite addend later =>
                  rw [finite_le_finite_iff] at first second
                  refine nearest_mono
                    (Nat.mul_pos (denominator_pos _) (denominator_pos _))
                    (Nat.mul_pos (denominator_pos _) (denominator_pos _)) ?_
                  rw [sum_div, sum_div]
                  exact add_le_add first second

/-- Nor does the ceiling of a double. -/
theorem ceiling?_mono
    {x y : DoubleMagnitude}
    {least most : Nat}
    (notAbove : x ≤ y)
    (ceiling : ceiling? x = some least)
    (largerCeiling : ceiling? y = some most) :
    least ≤ most := by
  cases x with
  | infinite => cases ceiling
  | finite mantissa exponent =>
      cases y with
      | infinite => cases largerCeiling
      | finite other later =>
          rw [ceiling?_finite, Option.some_inj] at ceiling largerCeiling
          rw [finite_le_finite_iff] at notAbove
          rw [← ceiling, ← largerCeiling]
          exact Nat.ceil_mono notAbove

end DoubleMagnitude

end RootFinding
