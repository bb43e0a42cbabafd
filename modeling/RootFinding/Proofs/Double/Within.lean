import RootFinding.Proofs.Double.Decimal
import RootFinding.Proofs.Double.Exact
import RootFinding.Proofs.Double.Finite

/-!
# Rounding within bounds

Rounding does not carry a number beyond a double that it does not exceed. So the quotient of a double
by one that is not smaller is at most one, its product with the divisor is at most the divisor, and
what that leaves of the dividend is finite.
-/

namespace RootFinding

namespace Double

open Float.Model
open Float.Model.UnpackedFloat

/-- The value is a zero, or canonical, of the sign and not above the bound without its sign. -/
inductive IsWithin (sign : Sign) (bound : ℚ) : UnpackedFloat → Prop where
  | zero (other : Sign) : IsWithin sign bound (.zero other)
  | finite
      {mantissa : Nat}
      {exponent : Int}
      (positive : 0 < mantissa)
      (canonical : IsCanonical mantissa exponent)
      (notAbove : (mantissa : ℚ) * 2 ^ exponent ≤ bound) :
      IsWithin sign bound (.finite sign mantissa exponent positive)

theorem IsWithin.isFinite
    {sign : Sign}
    {bound : ℚ}
    {value : UnpackedFloat}
    (within : IsWithin sign bound value) :
    value.isFinite = true := by
  cases within <;> rfl

section Bounds

variable {mantissa most : Nat} {exponent limit : Int}

/-- A mantissa of 53 bits has no larger exponent than a canonical value that it does not exceed. -/
theorem exponent_le_of_le
    (full : exponent = -1074 ∨ 2 ^ 52 ≤ mantissa)
    (canonical : IsCanonical most limit)
    (notAbove : (mantissa : ℚ) * 2 ^ exponent ≤ most * 2 ^ limit) :
    exponent ≤ limit := by
  by_contra above
  have above : limit < exponent := Int.not_le.mp above
  have least := canonical.least_le
  have short : (most : ℚ) < 2 ^ 53 := by exact_mod_cast canonical.mantissa_lt
  have long : (2 ^ 52 : ℚ) ≤ mantissa := by exact_mod_cast full.resolve_left (by omega)
  have larger : (most : ℚ) * 2 ^ limit < mantissa * 2 ^ exponent := by
    calc
      (most : ℚ) * 2 ^ limit < 2 ^ 53 * 2 ^ limit := by gcongr
      _ ≤ 2 ^ 52 * 2 ^ exponent := power_le_power above
      _ ≤ mantissa * 2 ^ exponent := by gcongr
  linarith

/-- Within a double that is in range a value is read again as it was packed. -/
theorem IsWithin.repacked_eq
    {sign : Sign}
    {value : UnpackedFloat}
    (within : IsWithin sign (most * 2 ^ limit) value)
    (canonical : IsCanonical most limit)
    (inRange : limit ≤ 971) :
    repacked value = value := by
  cases within with
  | zero other => exact repacked_zero other
  | finite positive valueCanonical notAbove =>
      have full := valueCanonical.least_le.eq_or_lt.imp Eq.symm valueCanonical.le_mantissa
      have reached := exponent_le_of_le full canonical notAbove
      exact repacked_of_isCanonical sign positive valueCanonical (by omega)

end Bounds

section Rounding

variable {digits most : Nat} {scale limit : Int} {accuracy : Accuracy} {number : ℚ}

/-- What is below a canonical value is a unit of its own last place below it. -/
theorem units_le
    {units : Nat}
    {target : Int}
    (canonical : IsCanonical most limit)
    (full : target = -1074 ∨ 2 ^ 52 ≤ units)
    (below : (units : ℚ) * 2 ^ target < most * 2 ^ limit) :
    ((units + 1 : Nat) : ℚ) * 2 ^ target ≤ most * 2 ^ limit := by
  have reached := exponent_le_of_le full canonical below.le
  have parts : (most : ℚ) * 2 ^ limit = (most * 2 ^ (limit - target).toNat : Nat) * 2 ^ target := by
    push_cast
    rw [mul_assoc, ← zpow_natCast, ← zpow_add₀ two_ne_zero]
    congr 2
    omega
  rw [parts] at below ⊢
  have less : units < most * 2 ^ (limit - target).toNat := by
    exact_mod_cast lt_of_mul_lt_mul_right below (by positivity)
  gcongr
  exact less

/-- Rounding does not go beyond a double that the number does not exceed. -/
theorem isWithin_roundWithAccuracy
    (sign : Sign)
    (represents :
      Represents (ExtendedMantissa.ofMantissaAndAccuracy digits accuracy) (number / 2 ^ scale))
    (wide : scale ≤ max (digits.log2 + 1 + scale - 53) (-1074))
    (positive : 0 < most)
    (canonical : IsCanonical most limit)
    (notAbove : number ≤ most * 2 ^ limit) :
    IsWithin sign (most * 2 ^ limit)
      (roundWithAccuracy .binary64 sign digits scale accuracy) := by
  have unit : (0 : ℚ) < 2 ^ limit := by positivity
  rcases notAbove.eq_or_lt with same | below
  · -- The bound itself is not rounded.
    have rounds : RoundsTo number most limit := {
      canonical
      positive
      lower := by rw [same]; gcongr; linarith
      upper := by rw [same]; gcongr; linarith
      tie := by
        rw [same]
        rintro (half | half) <;> linarith
      lower_of_power := fun _ _ => by rw [same]; gcongr; linarith }
    rw [roundWithAccuracy_of_roundsTo sign represents wide rounds]
    exact .finite positive canonical le_rfl
  · generalize target_eq : max ((digits.log2 : Int) + 1 + scale - 53) (-1074) = target at wide
    have full := (quotient_bounds target_eq.symm wide).2
    have cut :
        ((digits / 2 ^ (target - scale).toNat : Nat) : ℚ) * 2 ^ target ≤ number := by
      have atLeast := represents.mantissa_le
      rw [mantissa_ofMantissaAndAccuracy, le_div_iff₀ (by positivity)] at atLeast
      have unit_eq : (2 : ℚ) ^ target = 2 ^ (target - scale).toNat * 2 ^ scale := by
        rw [← zpow_natCast, ← zpow_add₀ two_ne_zero]
        congr 1
        omega
      have kept :
          ((digits / 2 ^ (target - scale).toNat : Nat) : ℚ) * 2 ^ (target - scale).toNat ≤
            digits := by
        exact_mod_cast Nat.div_mul_le_self _ _
      rw [unit_eq, ← mul_assoc]
      exact le_trans (by gcongr) atLeast
    have next := units_le canonical full (cut.trans_lt below)
    rcases roundWithAccuracy_cases sign accuracy target_eq.symm wide with
      ⟨rounded, later, roundedPositive, shape, roundedCanonical, order⟩ | ⟨shape, _⟩
    · rw [shape]
      refine .finite roundedPositive roundedCanonical (le_trans ?_ next)
      rcases order with ⟨rfl, rfl, carried⟩ | ⟨rfl, _, notFarAbove⟩
      · have carried :
            (2 ^ 53 : ℚ) ≤ (digits / 2 ^ (target - scale).toNat + 1 : Nat) := by
          exact_mod_cast carried
        calc
          ((2 ^ 52 : Nat) : ℚ) * 2 ^ (target + 1) = 2 ^ 53 * 2 ^ target := by
            rw [zpow_add_one₀ two_ne_zero]
            push_cast
            ring
          _ ≤ (digits / 2 ^ (target - scale).toNat + 1 : Nat) * 2 ^ target := by gcongr
      · gcongr
    · rw [shape]
      exact .zero sign

end Rounding

section Remainder

variable {first second : Nat} {scale later : Int}
variable {positive : 0 < first} {otherPositive : 0 < second}

/-- A quotient by a divisor that is not smaller is at most one. -/
theorem isWithin_div
    (sign other : Sign)
    (notAbove : (first : ℚ) * 2 ^ scale ≤ second * 2 ^ later) :
    IsWithin (sign / other) ((2 ^ 52 : Nat) * 2 ^ (-52 : Int))
      (UnpackedFloat.div .binary64 (.finite sign first scale positive)
        (.finite other second later otherPositive)) := by
  have one : ((2 ^ 52 : Nat) : ℚ) * 2 ^ (-52 : Int) = 1 := by norm_num
  have quotient_le :
      (first : ℚ) * 2 ^ scale / (second * 2 ^ later) ≤ (2 ^ 52 : Nat) * 2 ^ (-52 : Int) := by
    rw [one]
    exact div_le_one_of_le₀ notAbove (by positivity)
  exact isWithin_roundWithAccuracy (sign / other)
    (represents_divCore otherPositive first scale later)
    (wide_divCore positive otherPositive scale later) (by decide)
    (.of_bounds (by decide) (by decide) (.inr le_rfl)) quotient_le

/-- A factor of at most one does not make the other one larger. -/
theorem isWithin_mul
    {sign : Sign}
    {share : UnpackedFloat}
    (other : Sign)
    (otherPositive : 0 < second)
    (within : IsWithin sign ((2 ^ 52 : Nat) * 2 ^ (-52 : Int)) share)
    (canonical : IsCanonical second later) :
    IsWithin (sign * other) (second * 2 ^ later)
      (UnpackedFloat.mul .binary64 share (.finite other second later otherPositive)) := by
  have one : ((2 ^ 52 : Nat) : ℚ) * 2 ^ (-52 : Int) = 1 := by norm_num
  rw [one] at within
  cases within with
  | zero zeroSign => exact .zero _
  | @finite mantissa exponent sharePositive shareCanonical notAbove =>
      have product_le :
          (mantissa : ℚ) * 2 ^ exponent * (second * 2 ^ later) ≤ second * 2 ^ later :=
        mul_le_of_le_one_left (by positivity) notAbove
      exact isWithin_roundWithAccuracy (sign * other)
        (represents_mul mantissa second exponent later)
        (wide_mul sharePositive otherPositive shareCanonical canonical) otherPositive canonical
        product_le

/-- Units of a smaller scale make up the same value. -/
theorem shiftLeft_mul_eq
    {smaller : Int}
    (notAbove : smaller ≤ scale) :
    ((first <<< (scale - smaller).toNat : Nat) : ℚ) * 2 ^ smaller = first * 2 ^ scale := by
  rw [Nat.shiftLeft_eq]
  push_cast
  rw [mul_assoc, ← zpow_natCast, ← zpow_add₀ two_ne_zero]
  congr 2
  omega

variable {most : Nat} {limit : Int}

/-- A whole number of units that does not exceed a double is not rounded beyond it. -/
theorem isWithin_normalize
    {total : Int}
    (mostPositive : 0 < most)
    (canonical : IsCanonical most limit)
    (notAbove : (total.natAbs : ℚ) * 2 ^ scale ≤ most * 2 ^ limit) :
    ∃ sign, IsWithin sign (most * 2 ^ limit)
      (UnpackedFloat.normalize .binary64 total scale .positive) := by
  by_cases cancelled : total = 0
  · rw [cancelled, normalize_zero]
    exact ⟨.positive, .zero .positive⟩
  · obtain ⟨shift, round_eq, _, _, wide⟩ :=
      exists_round_eq (signOf total) (Int.natAbs_ne_zero.mpr cancelled) scale
    have units :
        (total.natAbs : ℚ) * 2 ^ scale / 2 ^ (scale - shift) = (total.natAbs <<< shift : Nat) := by
      rw [div_eq_iff (by positivity), Nat.shiftLeft_eq, zpow_sub₀ two_ne_zero, zpow_natCast]
      push_cast
      field_simp
    rw [normalize_of_ne_zero cancelled, round_eq]
    refine ⟨_, isWithin_roundWithAccuracy (signOf total) ?_ wide mostPositive canonical notAbove⟩
    rw [units]
    exact Represents.of_exact _

/-- Numbers of opposite signs add up to no more than the larger of them. -/
theorem natAbs_unitsAt_add_neg_le
    (scale : Int)
    (sign : Sign)
    (mantissa addend : Nat)
    (exponent later : Int) :
    (unitsAt scale sign mantissa exponent + unitsAt scale (-sign) addend later).natAbs ≤
      max (mantissa <<< (exponent - scale).toNat) (addend <<< (later - scale).toNat) := by
  unfold unitsAt
  generalize mantissa <<< (exponent - scale).toNat = one
  generalize addend <<< (later - scale).toNat = other
  cases sign with
  | positive =>
      change ((one : Int) + -(other : Int)).natAbs ≤ max one other
      omega
  | negative =>
      change (-(one : Int) + (other : Int)).natAbs ≤ max one other
      omega

/-- The difference of two values of one sign is not larger than the larger one. -/
theorem isFinite_sub
    {sign : Sign}
    {subtrahend : UnpackedFloat}
    (mostPositive : 0 < most)
    (canonical : IsCanonical most limit)
    (inRange : limit ≤ 971)
    (minuend : IsWithin sign (most * 2 ^ limit) (.finite sign first scale positive))
    (within : IsWithin sign (most * 2 ^ limit) subtrahend) :
    (repacked
      (UnpackedFloat.sub .binary64 (.finite sign first scale positive) subtrahend)).isFinite =
        true := by
  rw [sub_eq_add_neg]
  cases within with
  | zero other =>
      change (repacked (.finite sign first scale positive)).isFinite = true
      rw [minuend.repacked_eq canonical inRange]
      rfl
  | @finite mantissa exponent subtrahendPositive subtrahendCanonical notAbove =>
      cases minuend with | finite _ _ firstNotAbove =>
      have size := natAbs_unitsAt_add_neg_le (min scale exponent) sign first mantissa scale exponent
      rw [UnpackedFloat.neg, add_finite]
      generalize unitsAt (min scale exponent) sign first scale +
        unitsAt (min scale exponent) (-sign) mantissa exponent = total at size ⊢
      have total_le : (total.natAbs : ℚ) * 2 ^ min scale exponent ≤ most * 2 ^ limit := by
        rw [← shiftLeft_mul_eq (min_le_left scale exponent)] at firstNotAbove
        rw [← shiftLeft_mul_eq (min_le_right scale exponent)] at notAbove
        rcases le_max_iff.mp size with bounded | bounded
        · exact le_trans (by gcongr) firstNotAbove
        · exact le_trans (by gcongr) notAbove
      obtain ⟨_, difference⟩ := isWithin_normalize mostPositive canonical total_le
      rw [difference.repacked_eq canonical inRange]
      exact difference.isFinite

end Remainder

section Doubles

variable {a b : Float}

/-- The magnitude of a number has its mantissa and exponent. -/
theorem value_magnitude_of_finite
    {sign : Sign}
    {mantissa : Nat}
    {exponent : Int}
    {positive : 0 < mantissa}
    (shape : value a = .finite sign mantissa exponent positive) :
    value (Arithmetic.magnitude a) = .finite .positive mantissa exponent positive := by
  obtain ⟨canonical, inRange⟩ := isCanonical_of_unpack shape
  rw [value_magnitude, shape, UnpackedFloat.abs, repacked_of_isCanonical _ _ canonical inRange]

/-- Only an undefined double cannot be compared. -/
theorem isUnordered_eq_false_iff :
    Arithmetic.isUnordered a = false ↔ ¬IsUndefined a := by
  rw [Arithmetic.isUnordered, Bool.not_eq_false', atMost_eq_le]
  constructor
  · rintro reflexive ⟨undefined⟩
    rw [undefined] at reflexive
    cases reflexive
  · intro defined
    cases shape : value a with
    | notANumber => exact absurd ⟨shape⟩ defined
    | infinity sign => cases sign <;> rfl
    | zero sign => rfl
    | finite sign mantissa exponent positive =>
        cases sign <;>
          simp [UnpackedFloat.le, UnpackedFloat.compare]

/-- What is not larger than a finite double is finite, unless it is undefined. -/
theorem isFinite_of_not_less_magnitude
    (finite : Arithmetic.isFinite b = true)
    (defined : Arithmetic.isUnordered (Arithmetic.magnitude a) = false)
    (notLess : Arithmetic.less (Arithmetic.magnitude b) (Arithmetic.magnitude a) = false) :
    Arithmetic.isFinite a = true := by
  rw [isFinite_eq]
  cases shape : value a with
  | zero sign => rfl
  | finite sign mantissa exponent positive => rfl
  | notANumber => exact absurd (IsUndefined.magnitude ⟨shape⟩) (isUnordered_eq_false_iff.mp defined)
  | infinity sign =>
      have infinite : value (Arithmetic.magnitude a) = .infinity .positive := by
        rw [value_magnitude, shape, UnpackedFloat.abs, repacked_infinity]
      rw [less_eq_lt, infinite] at notLess
      rcases value_eq_of_isFinite finite with ⟨_, zero⟩ | ⟨_, _, _, _, divisor⟩
      · rw [value_magnitude_of_zero zero] at notLess
        cases notLess
      · rw [value_magnitude_of_finite divisor] at notLess
        cases notLess

/-- The magnitude of a finite double can be compared. -/
theorem isUnordered_magnitude_of_isFinite
    (finite : Arithmetic.isFinite a = true) :
    Arithmetic.isUnordered (Arithmetic.magnitude a) = false := by
  rw [isUnordered_eq_false_iff]
  rintro ⟨undefined⟩
  rcases value_eq_of_isFinite finite with ⟨_, zero⟩ | ⟨_, _, _, _, shape⟩
  · rw [value_magnitude_of_zero zero] at undefined
    cases undefined
  · rw [value_magnitude_of_finite shape] at undefined
    cases undefined

/-- What the divisor leaves of a dividend that is not larger is finite. -/
theorem isFinite_sub_div_mul
    (finite : Arithmetic.isFinite a = true)
    (divisorFinite : Arithmetic.isFinite b = true)
    (nonzero : ¬IsZero b)
    (notLess : Arithmetic.less (Arithmetic.magnitude b) (Arithmetic.magnitude a) = false) :
    Arithmetic.isFinite (a - a / b * b) = true := by
  rcases value_eq_of_isFinite divisorFinite with
    ⟨sign, zero⟩ | ⟨other, second, later, otherPositive, divisorShape⟩
  · exact absurd ⟨sign, zero⟩ nonzero
  obtain ⟨canonical, inRange⟩ := isCanonical_of_unpack divisorShape
  rw [isFinite_eq, value_sub, value_mul, value_div, divisorShape]
  rcases value_eq_of_isFinite finite with ⟨sign, zero⟩ | ⟨sign, first, scale, positive, shape⟩
  · rw [zero, UnpackedFloat.div, repacked_zero, UnpackedFloat.mul, repacked_zero]
    generalize sign / other * other = product
    cases sign <;> cases product <;> rfl
  · obtain ⟨firstCanonical, _⟩ := isCanonical_of_unpack shape
    rw [less_eq_lt, value_magnitude_of_finite shape, value_magnitude_of_finite divisorShape]
      at notLess
    have notAbove : (first : ℚ) * 2 ^ scale ≤ second * 2 ^ later := by
      rw [← Rat.cast_le (K := ℝ)]
      push_cast
      exact exact_le_of_not_lt_finite canonical firstCanonical notLess
    have one : IsCanonical (2 ^ 52) (-52) := .of_bounds (by decide) (by decide) (.inr le_rfl)
    have share :
        IsWithin (sign / other) ((2 ^ 52 : Nat) * 2 ^ (-52 : Int))
          (UnpackedFloat.div .binary64 (.finite sign first scale positive)
            (.finite other second later otherPositive)) :=
      isWithin_div sign other notAbove
    have product := isWithin_mul other otherPositive share canonical
    have sign_eq : sign / other * other = sign := by
      cases sign <;> cases other <;> rfl
    rw [sign_eq] at product
    rw [shape, share.repacked_eq one (by decide), product.repacked_eq canonical inRange]
    exact isFinite_sub otherPositive canonical inRange (.finite positive firstCanonical notAbove)
      product

end Doubles

end Double

end RootFinding
