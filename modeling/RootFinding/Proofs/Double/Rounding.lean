import Mathlib.Algebra.Order.Field.Power
import Mathlib.Algebra.Order.Ring.Nat
import Mathlib.Tactic.Ring
import RootFinding.Scalar

/-!
# Rounding to a double

A finite double is `± mantissa · 2 ^ exponent` in one canonical form: the mantissa has 53 bits, or
fewer at the least exponent. Rounding first drops bits until the exponent fits, which leaves the
quotient by a power of two, then adds at most one, and drops one more bit if that made the mantissa
too long. So the result is never below the quotient, and it is canonical.
-/

namespace RootFinding

namespace Double

open Float.Model
open Float.Model.UnpackedFloat

/-- The one form of a finite double that a bit pattern stands for. -/
structure IsCanonical (mantissa : Nat) (exponent : Int) : Prop where
  short : mantissa.log2 ≤ 52
  least_le : -1074 ≤ exponent
  full : mantissa.log2 = 52 ∨ exponent = -1074

namespace IsCanonical

variable {mantissa : Nat} {exponent : Int}

theorem mantissa_lt (canonical : IsCanonical mantissa exponent) :
    mantissa < 2 ^ 53 := by
  by_cases zero : mantissa = 0
  · rw [zero]
    decide
  · exact (Nat.log2_lt zero).mp (Nat.lt_succ_of_le canonical.short)

/-- Above the least exponent the mantissa has all its bits. -/
theorem le_mantissa
    (canonical : IsCanonical mantissa exponent)
    (above : -1074 < exponent) :
    2 ^ 52 ≤ mantissa := by
  have full : mantissa.log2 = 52 := canonical.full.resolve_right (by omega)
  have nonzero : mantissa ≠ 0 := by
    rintro rfl
    simp at full
  exact (Nat.le_log2 nonzero).mp full.ge

/-- A mantissa of 53 bits, or of fewer at the least exponent, is canonical. -/
theorem of_bounds
    (short : mantissa < 2 ^ 53)
    (least : -1074 ≤ exponent)
    (full : exponent = -1074 ∨ 2 ^ 52 ≤ mantissa) :
    IsCanonical mantissa exponent := by
  have short : mantissa.log2 ≤ 52 := by
    by_cases zero : mantissa = 0
    · simp [zero]
    · have bits := (Nat.log2_lt zero).mpr short
      omega
  refine ⟨short, least, ?_⟩
  rcases full with subnormal | normal
  · exact .inr subnormal
  · have bits := (Nat.le_log2 (by omega)).mpr normal
    left
    omega

end IsCanonical

/-- Where exponents differ, all mantissas of the smaller one are below those of the larger one. -/
theorem power_le_power
    {K : Type}
    [Field K]
    [LinearOrder K]
    [IsStrictOrderedRing K]
    {exponent later : Int}
    (earlier : exponent < later) :
    (2 ^ 53 : K) * 2 ^ exponent ≤ 2 ^ 52 * 2 ^ later := by
  calc
    (2 ^ 53 : K) * 2 ^ exponent = 2 ^ 52 * 2 ^ (exponent + 1) := by
      rw [zpow_add_one₀ two_ne_zero]
      ring
    _ ≤ 2 ^ 52 * 2 ^ later := by
      gcongr
      · exact one_le_two
      · omega

theorem targetExponent_binary64 (total : Int) :
    Format.binary64.targetExponent total = max (total - 53) (-1074) := by
  rfl

/-- Shifting an extended mantissa drops low bits of the mantissa. -/
theorem mantissa_shiftRight
    (extended : ExtendedMantissa)
    (count : Nat) :
    (extended >>> count).mantissa = extended.mantissa / 2 ^ count := by
  induction count with
  | zero =>
      simp [HShiftRight.hShiftRight, Nat.repeat]
  | succ count inductionHypothesis =>
      have halved :
          (extended >>> (count + 1)).mantissa = (extended >>> count).mantissa / 2 := rfl
      rw [halved, inductionHypothesis, Nat.div_div_eq_div_mul, ← pow_succ]

theorem mantissa_ofMantissaAndAccuracy
    (mantissa : Nat)
    (accuracy : Accuracy) :
    (ExtendedMantissa.ofMantissaAndAccuracy mantissa accuracy).mantissa = mantissa := by
  unfold ExtendedMantissa.ofMantissaAndAccuracy
  split <;> rfl

/-- Rounding a mantissa adds one or nothing. -/
theorem roundedMantissa_bounds (extended : ExtendedMantissa) :
    extended.mantissa ≤ extended.roundedMantissa ∧
      extended.roundedMantissa ≤ extended.mantissa + 1 := by
  obtain ⟨mantissa, roundBit, stickyBit⟩ := extended
  cases roundBit <;>
    cases stickyBit <;>
    simp only [ExtendedMantissa.roundedMantissa, ExtendedMantissa.accuracy,
      Accuracy.roundToNearestEven] <;>
    omega

/-- Dropping the bits that do not fit leaves 53 bits, or fewer at the least exponent. -/
theorem quotient_bounds
    {mantissa : Nat}
    {exponent target : Int}
    (target_eq : target = max (mantissa.log2 + 1 + exponent - 53) (-1074))
    (wide : exponent ≤ target) :
    mantissa / 2 ^ (target - exponent).toNat < 2 ^ 53 ∧
      (target = -1074 ∨ 2 ^ 52 ≤ mantissa / 2 ^ (target - exponent).toNat) := by
  generalize shiftEq : (target - exponent).toNat = shift
  constructor
  · have enough : mantissa.log2 + 1 ≤ shift + 53 := by omega
    have below : mantissa < 2 ^ (mantissa.log2 + 1) := Nat.lt_log2_self
    have bounded : mantissa < 2 ^ (shift + 53) :=
      Nat.lt_of_lt_of_le below (Nat.pow_le_pow_right (by decide) enough)
    rw [Nat.div_lt_iff_lt_mul (Nat.two_pow_pos shift), ← pow_add, Nat.add_comm]
    exact bounded
  · by_cases normal : -1074 < target
    · right
      have exactly : mantissa.log2 = shift + 52 := by omega
      have nonzero : mantissa ≠ 0 := by
        rintro rfl
        simp at exactly
      have above : 2 ^ (shift + 52) ≤ mantissa := (Nat.le_log2 nonzero).mp exactly.ge
      rw [Nat.le_div_iff_mul_le (Nat.two_pow_pos shift), ← pow_add, Nat.add_comm]
      exact above
    · left
      omega

/-- A mantissa that has at most 53 bits already is not shortened. -/
theorem shiftToTargetExponent_of_short
    {mantissa : Nat}
    {exponent : Int}
    (least : -1074 ≤ exponent)
    (short : mantissa.log2 ≤ 52)
    (accuracy : Accuracy) :
    shiftToTargetExponent .binary64 mantissa exponent accuracy =
      (ExtendedMantissa.ofMantissaAndAccuracy mantissa accuracy, exponent) := by
  have none : (max (mantissa.log2 + 1 + exponent - 53) (-1074) - exponent).toNat = 0 := by
    omega
  simp only [shiftToTargetExponent, shiftToExponent, totalExponent, targetExponent_binary64, none]
  simp [HShiftRight.hShiftRight, Nat.repeat]

/-- A mantissa that was rounded up to a 54th bit is shifted once more, without a loss. -/
theorem shiftToTargetExponent_of_limit
    {exponent : Int}
    (least : -1074 ≤ exponent)
    (accuracy : Accuracy) :
    (shiftToTargetExponent .binary64 (2 ^ 53) exponent accuracy).1.mantissa = 2 ^ 52 ∧
      (shiftToTargetExponent .binary64 (2 ^ 53) exponent accuracy).2 = exponent + 1 := by
  have bits : (2 ^ 53 : Nat).log2 = 53 := Nat.log2_two_pow
  have one : (max (((2 ^ 53 : Nat).log2 : Int) + 1 + exponent - 53) (-1074) - exponent).toNat = 1 := by
    omega
  simp only [shiftToTargetExponent, shiftToExponent, totalExponent, targetExponent_binary64, one,
    mantissa_shiftRight, mantissa_ofMantissaAndAccuracy]
  omega

def ofShifted (sign : Sign) (shifted : ExtendedMantissa × Int) : UnpackedFloat :=
  if zero : shifted.1.mantissa = 0 then .zero sign
  else .finite sign shifted.1.mantissa shifted.2 (Nat.pos_of_ne_zero zero)

/-- Rounding shifts twice, and adds at most one to the mantissa in between. -/
theorem roundWithAccuracy_eq_ofShifted
    (sign : Sign)
    (mantissa : Nat)
    (exponent : Int)
    (accuracy : Accuracy) :
    roundWithAccuracy .binary64 sign mantissa exponent accuracy =
      let first := shiftToTargetExponent .binary64 mantissa exponent accuracy
      ofShifted sign (shiftToTargetExponent .binary64 first.1.roundedMantissa first.2 .exact) :=
  rfl

/-- The second shift: a mantissa of at most 53 bits stays, and one of 54 bits loses a zero. -/
theorem ofShifted_cases
    (sign : Sign)
    {rounded : Nat}
    {target : Int}
    (least : -1074 ≤ target)
    (bounded : rounded ≤ 2 ^ 53)
    (full : target = -1074 ∨ 2 ^ 52 ≤ rounded) :
    (∃ mantissa exponent positive,
        ofShifted sign (shiftToTargetExponent .binary64 rounded target .exact) =
            .finite sign mantissa exponent positive ∧
          IsCanonical mantissa exponent ∧
          (exponent = target + 1 ∧ mantissa = 2 ^ 52 ∧ rounded = 2 ^ 53 ∨
            exponent = target ∧ mantissa = rounded)) ∨
      (ofShifted sign (shiftToTargetExponent .binary64 rounded target .exact) = .zero sign ∧
        rounded = 0) := by
  by_cases overflow : rounded = 2 ^ 53
  · left
    subst rounded
    obtain ⟨shortened, later⟩ := shiftToTargetExponent_of_limit least .exact
    have nonzero :
        (shiftToTargetExponent .binary64 (2 ^ 53) target .exact).1.mantissa ≠ 0 := by
      rw [shortened]
      decide
    refine ⟨_, _, Nat.pos_of_ne_zero nonzero, dif_neg nonzero, ?_, ?_⟩
    · rw [shortened, later]
      exact ⟨Nat.log2_two_pow.le, by omega, .inl Nat.log2_two_pow⟩
    · exact .inl ⟨later, shortened, rfl⟩
  · have canonical : IsCanonical rounded target := .of_bounds (by omega) least full
    rw [shiftToTargetExponent_of_short least canonical.short]
    by_cases zero : rounded = 0
    · right
      exact ⟨dif_pos zero, zero⟩
    · left
      exact ⟨rounded, target, Nat.pos_of_ne_zero zero, dif_neg zero, canonical, .inr ⟨rfl, rfl⟩⟩

/--
The rounded value is the exact one with its surplus bits dropped, or one more in the last place, and
it is canonical; a mantissa that grew to 54 bits loses its last zero to the exponent. It is zero
only where every bit was surplus.
-/
theorem roundWithAccuracy_cases
    (sign : Sign)
    {mantissa : Nat}
    {exponent target : Int}
    (accuracy : Accuracy)
    (target_eq : target = max (mantissa.log2 + 1 + exponent - 53) (-1074))
    (wide : exponent ≤ target) :
    (∃ rounded later positive,
        roundWithAccuracy .binary64 sign mantissa exponent accuracy =
            .finite sign rounded later positive ∧
          IsCanonical rounded later ∧
          (later = target + 1 ∧ rounded = 2 ^ 52 ∧
              2 ^ 53 ≤ mantissa / 2 ^ (target - exponent).toNat + 1 ∨
            later = target ∧ mantissa / 2 ^ (target - exponent).toNat ≤ rounded ∧
              rounded ≤ mantissa / 2 ^ (target - exponent).toNat + 1)) ∨
      (roundWithAccuracy .binary64 sign mantissa exponent accuracy = .zero sign ∧
        mantissa / 2 ^ (target - exponent).toNat = 0) := by
  obtain ⟨quotientShort, quotientFull⟩ := quotient_bounds target_eq wide
  have least : -1074 ≤ target := by omega
  rw [roundWithAccuracy_eq_ofShifted]
  dsimp only
  -- The first shift leaves the quotient at the target exponent.
  have quotient_eq :
      (shiftToTargetExponent .binary64 mantissa exponent accuracy).1.mantissa =
        mantissa / 2 ^ (target - exponent).toNat := by
    simp only [shiftToTargetExponent, shiftToExponent, totalExponent, targetExponent_binary64,
      ← target_eq, mantissa_shiftRight, mantissa_ofMantissaAndAccuracy]
  have reached_eq :
      (shiftToTargetExponent .binary64 mantissa exponent accuracy).2 = target := by
    simp only [shiftToTargetExponent, shiftToExponent, totalExponent, targetExponent_binary64,
      ← target_eq]
    omega
  rw [reached_eq]
  obtain ⟨notBelow, notFarAbove⟩ :=
    roundedMantissa_bounds (shiftToTargetExponent .binary64 mantissa exponent accuracy).1
  rw [quotient_eq] at notBelow notFarAbove
  generalize (shiftToTargetExponent .binary64 mantissa exponent accuracy).1.roundedMantissa =
    rounded at notBelow notFarAbove ⊢
  have full : target = -1074 ∨ 2 ^ 52 ≤ rounded :=
    quotientFull.imp id (fun normal => Nat.le_trans normal notBelow)
  rcases ofShifted_cases sign least (by omega) full with
    ⟨result, later, positive, shape, canonical, order⟩ | ⟨shape, zero⟩
  · left
    refine ⟨result, later, positive, shape, canonical, ?_⟩
    rcases order with ⟨higher, shortened, grown⟩ | ⟨same, rfl⟩
    · exact .inl ⟨higher, shortened, grown ▸ notFarAbove⟩
    · exact .inr ⟨same, notBelow, notFarAbove⟩
  · right
    exact ⟨shape, by omega⟩

theorem log2_shiftLeft
    {mantissa : Nat}
    (nonzero : mantissa ≠ 0)
    (count : Nat) :
    (mantissa <<< count).log2 = mantissa.log2 + count := by
  have shifted_ne : mantissa <<< count ≠ 0 := by
    simp [Nat.shiftLeft_eq, nonzero]
  rw [Nat.log2_eq_iff shifted_ne, Nat.shiftLeft_eq]
  constructor
  · rw [pow_add]
    exact Nat.mul_le_mul_right _ (Nat.log2_self_le nonzero)
  · rw [Nat.add_right_comm, pow_add]
    exact Nat.mul_lt_mul_of_pos_right Nat.lt_log2_self (Nat.two_pow_pos count)

/-- A mantissa that is too short is made longer by zeros before it is rounded. -/
theorem exists_round_eq
    (sign : Sign)
    {mantissa : Nat}
    (nonzero : mantissa ≠ 0)
    (exponent : Int) :
    ∃ shift : Nat,
      UnpackedFloat.round .binary64 sign mantissa exponent =
          roundWithAccuracy .binary64 sign (mantissa <<< shift) (exponent - shift) .exact ∧
        (mantissa <<< shift).log2 + (exponent - shift) = mantissa.log2 + exponent ∧
        min exponent (-1074) ≤ exponent - shift ∧
        exponent - shift ≤
          max ((mantissa <<< shift).log2 + 1 + (exponent - shift) - 53) (-1074) := by
  generalize target_eq : max ((mantissa.log2 : Int) + 1 + exponent - 53) (-1074) = target
  have bits := log2_shiftLeft nonzero (exponent - target).toNat
  refine ⟨(exponent - target).toNat, ?_, by omega, by omega, by omega⟩
  simp only [UnpackedFloat.round, decreaseExponent, totalExponent, targetExponent_binary64,
    target_eq]

/-- A value in the normal range is rounded to a finite double with no less places. -/
theorem round_of_normal_le
    (sign : Sign)
    {mantissa : Nat}
    {exponent : Int}
    (nonzero : mantissa ≠ 0)
    (normal : -1022 < mantissa.log2 + exponent) :
    ∃ rounded later positive,
      UnpackedFloat.round .binary64 sign mantissa exponent =
          .finite sign rounded later positive ∧
        IsCanonical rounded later ∧
        mantissa.log2 + exponent ≤ rounded.log2 + later := by
  obtain ⟨shift, unfolded, bits, _, wide⟩ := exists_round_eq sign nonzero exponent
  generalize target_eq :
    max (((mantissa <<< shift).log2 : Int) + 1 + (exponent - shift) - 53) (-1074) = target at wide
  have full := (quotient_bounds target_eq.symm wide).2.resolve_left (by omega)
  rw [unfolded]
  rcases roundWithAccuracy_cases sign .exact target_eq.symm wide with
    ⟨rounded, later, positive, shape, canonical, order⟩ | ⟨_, none⟩
  · refine ⟨rounded, later, positive, shape, canonical, ?_⟩
    rcases order with ⟨higher, rfl, _⟩ | ⟨same, notBelow, _⟩
    · rw [Nat.log2_two_pow]
      omega
    · have long := (Nat.le_log2 (Nat.ne_of_gt positive)).mpr (Nat.le_trans full notBelow)
      omega
  · omega

end Double

end RootFinding
