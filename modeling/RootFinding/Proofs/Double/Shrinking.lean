import RootFinding.Proofs.Double.Order

/-!
# Shrinking a double

A factor below one has a mantissa of 53 bits behind the point, so the exact product of a double with
it has no larger exponent than the double, and where the exponents agree its quotient is a smaller
mantissa. Rounding adds at most one in the last place: the rounded product is not above the double.
-/

namespace RootFinding

namespace Double

open Float.Model
open Float.Model.UnpackedFloat

/-- A positive factor below one, of 53 bits behind the point. -/
def isShare (factor : Float) : Bool :=
  match value factor with
  | .finite .positive mantissa exponent _ => mantissa < 2 ^ 53 && exponent = -53
  | _ => false

theorem value_of_isShare
    {factor : Float}
    (share : isShare factor = true) :
    ∃ mantissa nonzero,
      value factor = .finite .positive mantissa (-53) nonzero ∧ mantissa < 2 ^ 53 := by
  unfold isShare at share
  split at share
  · rename_i mantissa exponent nonzero shape
    rw [Bool.and_eq_true, decide_eq_true_eq, decide_eq_true_eq] at share
    obtain ⟨below, rfl⟩ := share
    exact ⟨mantissa, nonzero, shape, below⟩
  · cases share

/-- A product with a mantissa is at least as long, and longer by no more than the mantissa is. -/
theorem log2_mul_bounds
    {first second : Nat}
    (firstNonzero : 0 < first)
    (secondNonzero : 0 < second)
    (short : second < 2 ^ 53) :
    first.log2 ≤ (first * second).log2 ∧ (first * second).log2 < first.log2 + 1 + 53 := by
  have product_ne : first * second ≠ 0 := Nat.ne_of_gt (Nat.mul_pos firstNonzero secondNonzero)
  constructor
  · rw [Nat.le_log2 product_ne]
    exact Nat.le_trans (Nat.log2_self_le (Nat.ne_of_gt firstNonzero))
      (Nat.le_mul_of_pos_right first secondNonzero)
  · rw [Nat.log2_lt product_ne, pow_add]
    exact Nat.mul_lt_mul'' Nat.lt_log2_self short

/-- A share of a finite positive double is a zero, or finite and not larger. -/
theorem value_mul_share
    {double factor : Float}
    {mantissa : Nat}
    {exponent : Int}
    {nonzero : 0 < mantissa}
    (shape : value double = .finite .positive mantissa exponent nonzero)
    (share : isShare factor = true) :
    value (double * factor) = .zero .positive ∨
      ∃ below earlier belowNonzero,
        value (double * factor) = .finite .positive below earlier belowNonzero ∧
          (earlier < exponent ∨ exponent = earlier ∧ below ≤ mantissa) := by
  obtain ⟨canonical, small⟩ := isCanonical_of_unpack shape
  obtain ⟨part, partNonzero, partShape, partShort⟩ := value_of_isShare share
  have product :
      value (double * factor) =
        repacked (roundWithAccuracy .binary64 .positive (mantissa * part) (exponent + -53)
          .exact) := by
    rw [value_mul, shape, partShape]
    rfl
  generalize target_eq :
    max (((mantissa * part).log2 : Int) + 1 + (exponent + -53) - 53) (-1074) = target
  obtain ⟨longer, notMuch⟩ := log2_mul_bounds nonzero partNonzero partShort
  have short := canonical.short
  have least := canonical.least_le
  have wide : exponent + -53 ≤ target := by
    rcases canonical.full with full | subnormal <;> omega
  have notAbove : target ≤ exponent := by omega
  have mantissaShort := canonical.mantissa_lt
  -- At the exponent of the double the surplus bits are those behind the point of the factor.
  have smaller :
      target = exponent →
        mantissa * part / 2 ^ (target - (exponent + -53)).toNat < mantissa := by
    intro same
    rw [show (target - (exponent + -53)).toNat = 53 by omega,
      Nat.div_lt_iff_lt_mul (Nat.two_pow_pos 53)]
    exact Nat.mul_lt_mul_of_pos_left partShort nonzero
  rw [product]
  rcases roundWithAccuracy_cases .positive .exact target_eq.symm wide with
    ⟨rounded, later, positive, rounding, canonicalLater, rounded_eq⟩ | ⟨rounding, _⟩
  · right
    have order : later < exponent ∨ exponent = later ∧ rounded ≤ mantissa := by
      rcases rounded_eq with ⟨higher, shortened, grown⟩ | ⟨rfl, _, notFarAbove⟩
      · by_cases same : target = exponent
        · have below := smaller same
          omega
        · have full := canonical.le_mantissa (by omega)
          omega
      · by_cases same : later = exponent
        · have below := smaller same
          omega
        · omega
    rw [rounding, repacked_of_isCanonical _ _ canonicalLater (by omega)]
    exact ⟨rounded, later, positive, rfl, order⟩
  · left
    rw [rounding, repacked_zero]

/-- The sign of a zero does not matter to what is less. -/
theorem lt_zero_of_lt_zero
    {smaller : UnpackedFloat}
    {sign other : Sign}
    (less : smaller.lt (.zero sign) = true) :
    smaller.lt (.zero other) = true := by
  rcases smaller with ⟨_ | _⟩ | _ | _ | ⟨_ | _⟩ <;> exact less

/-- What lies below zero lies below every positive number. -/
theorem lt_finite_of_lt_zero
    {smaller : UnpackedFloat}
    {sign : Sign}
    {mantissa : Nat}
    {exponent : Int}
    {nonzero : 0 < mantissa}
    (less : smaller.lt (.zero sign) = true) :
    smaller.lt (.finite .positive mantissa exponent nonzero) = true := by
  cases smaller with
  | notANumber => cases less
  | zero _ => cases less
  | infinity sign =>
      cases sign with
      | positive => cases less
      | negative => rfl
  | finite sign _ _ _ =>
      cases sign with
      | positive => cases less
      | negative => rfl

/-- What is less than a share of a root is less than the root. -/
theorem less_of_less_share
    {error double factor : Float}
    (share : isShare factor = true)
    (small : Arithmetic.less error (Scalar.sqrt double * factor) = true) :
    Arithmetic.less error (Scalar.sqrt double) = true := by
  rw [less_eq_lt] at small ⊢
  obtain ⟨part, partNonzero, partShape, _⟩ := value_of_isShare share
  rcases value_sqrt_cases double with
    undefined | infinite | ⟨sign, zero⟩ | ⟨mantissa, exponent, nonzero, finite⟩
  · rw [value_mul, undefined, partShape, UnpackedFloat.mul, repacked_notANumber] at small
    cases shape : value error <;> rw [shape] at small <;> cases small
  · rw [value_mul, infinite, partShape, UnpackedFloat.mul, repacked_infinity] at small
    rw [infinite]
    exact small
  · rw [value_mul, zero, partShape, UnpackedFloat.mul, repacked_zero] at small
    rw [zero]
    exact lt_zero_of_lt_zero small
  · rw [finite]
    rcases value_mul_share finite share with
      zero | ⟨below, earlier, belowNonzero, shape, order⟩
    · rw [zero] at small
      exact lt_finite_of_lt_zero small
    · rw [shape] at small
      exact lt_finite_of_lt_finite order small

end Double

end RootFinding
