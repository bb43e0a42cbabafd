import RootFinding.Proofs.Double.Undefined

/-!
# Operations that stay finite

A quotient of a finite double by one that is larger than one is finite, because rounding does not
carry it beyond the largest double. A hundredth divided by one plus a magnitude is so small that its
product with a finite double is finite. Sums and products with a part that is not finite are never
finite, and neither is a quotient of such a dividend; only an infinite divisor is hidden by a zero.
-/

namespace RootFinding

namespace Double

open Float.Model
open Float.Model.UnpackedFloat

section Quotients

variable {first second : Nat}

/-- A quotient is computed to 53 bits, or down to the least exponent. -/
theorem two_pow_le_divCore_or_le
    (firstPositive : 0 < first)
    (secondPositive : 0 < second)
    (exponent later : Int) :
    (divCore .binary64 first exponent second later).2.1 ≤ -1074 ∨
      2 ^ 52 ≤ (divCore .binary64 first exponent second later).1 := by
  generalize target_eq :
    min (exponent - later)
      (max ((first.log2 : Int) + 1 + exponent - (second.log2 + 1 + later) - 53) (-1074)) = target
  generalize shift_eq : (exponent - later - target).toNat = shift
  simp only [divCore, totalExponent, targetExponent_binary64, target_eq, shift_eq]
  by_cases least : target ≤ -1074
  · exact .inl least
  · right
    have longer : 52 + (second.log2 + 1) ≤ (first <<< shift).log2 := by
      rw [log2_shiftLeft (Nat.ne_of_gt firstPositive)]
      omega
    have size : first <<< shift ≠ 0 := by
      simp [Nat.shiftLeft_eq, Nat.ne_of_gt firstPositive]
    rw [Nat.le_div_iff_mul_le secondPositive]
    calc
      2 ^ 52 * second ≤ 2 ^ 52 * 2 ^ (second.log2 + 1) :=
        Nat.mul_le_mul_left _ (Nat.le_of_lt Nat.lt_log2_self)
      _ = 2 ^ (52 + (second.log2 + 1)) := (pow_add _ _ _).symm
      _ ≤ 2 ^ (first <<< shift).log2 := Nat.pow_le_pow_right (by decide) longer
      _ ≤ first <<< shift := Nat.log2_self_le size

/-- The dividend is shifted before it is divided, and the quotient is rounded down. -/
theorem divCore_mul_le
    (first second : Nat)
    (exponent later : Int) :
    ∃ shift : Nat,
      (divCore .binary64 first exponent second later).2.1 = exponent - later - shift ∧
        (divCore .binary64 first exponent second later).1 * second ≤ first * 2 ^ shift := by
  generalize target_eq :
    min (exponent - later)
      (max ((first.log2 : Int) + 1 + exponent - (second.log2 + 1 + later) - 53) (-1074)) = target
  generalize shift_eq : (exponent - later - target).toNat = shift
  refine ⟨shift, ?_, ?_⟩ <;>
    simp only [divCore, totalExponent, targetExponent_binary64, target_eq, shift_eq]
  · omega
  · rw [Nat.shiftLeft_eq]
    exact Nat.div_mul_le_self _ _

/-- A quotient's exponent is bounded by the difference of the exponents. -/
theorem log2_divCore_le
    {exponent later : Int}
    (secondPositive : 0 < second)
    (nonzero : (divCore .binary64 first exponent second later).1 ≠ 0) :
    (divCore .binary64 first exponent second later).1.log2 +
        (divCore .binary64 first exponent second later).2.1 ≤
      first.log2 + exponent - (second.log2 + later) := by
  obtain ⟨shift, scale_eq, product_le⟩ := divCore_mul_le first second exponent later
  generalize (divCore .binary64 first exponent second later).1 = quotient at nonzero product_le ⊢
  have places := le_log2_mul (Nat.pos_of_ne_zero nonzero) secondPositive
  have size : quotient * second ≠ 0 :=
    Nat.mul_ne_zero nonzero (Nat.ne_of_gt secondPositive)
  have below : quotient * second < 2 ^ (first.log2 + 1 + shift) := by
    rw [pow_add]
    exact product_le.trans_lt
      (Nat.mul_lt_mul_of_pos_right Nat.lt_log2_self (Nat.two_pow_pos shift))
  have short := (Nat.log2_lt size).mpr below
  rw [scale_eq]
  omega

/-- So much room has the quotient before it is rounded. -/
theorem wide_divCore
    (firstPositive : 0 < first)
    (secondPositive : 0 < second)
    (exponent later : Int) :
    (divCore .binary64 first exponent second later).2.1 ≤
      max
        ((divCore .binary64 first exponent second later).1.log2 + 1 +
          (divCore .binary64 first exponent second later).2.1 - 53)
        (-1074) := by
  rcases two_pow_le_divCore_or_le firstPositive secondPositive exponent later with least | long
  · exact le_max_of_le_right least
  · have nonzero : (divCore .binary64 first exponent second later).1 ≠ 0 := by
      rintro zero
      rw [zero] at long
      omega
    have bits := (Nat.le_log2 nonzero).mpr long
    omega

/-- A quotient has at most the places of the dividend less those of the divisor. -/
theorem isBelow_div
    {exponent later bound : Int}
    (sign other : Sign)
    (firstPositive : 0 < first)
    (secondPositive : 0 < second)
    (below : first.log2 + exponent - (second.log2 + later) < bound)
    (enough : -1021 ≤ bound) :
    IsBelow (bound + 1)
      (UnpackedFloat.div .binary64 (.finite sign first exponent firstPositive)
        (.finite other second later secondPositive)) := by
  have unfolded :
      UnpackedFloat.div .binary64 (.finite sign first exponent firstPositive)
          (.finite other second later secondPositive) =
        roundWithAccuracy .binary64 (sign / other) (divCore .binary64 first exponent second later).1
          (divCore .binary64 first exponent second later).2.1
          (divCore .binary64 first exponent second later).2.2 :=
    rfl
  have wide := wide_divCore firstPositive secondPositive exponent later
  have range :
      (divCore .binary64 first exponent second later).1.log2 +
        (divCore .binary64 first exponent second later).2.1 < bound := by
    by_cases zero : (divCore .binary64 first exponent second later).1 = 0
    · rw [zero] at wide ⊢
      simp only [Nat.log2_zero] at wide ⊢
      omega
    · exact (log2_divCore_le secondPositive zero).trans_lt below
  rw [unfolded]
  rcases roundWithAccuracy_range (sign / other)
      (divCore .binary64 first exponent second later).2.2 wide range enough with
    ⟨_, _, _, shape, isBelow⟩ | ⟨shape, _⟩
  · rw [shape]
    exact isBelow
  · rw [shape]
    exact .zero _

/-- A divisor larger than one keeps the quotient from being rounded up beyond its dividend. -/
theorem two_pow_lt_mul
    {later : Int}
    {shift places : Nat}
    (canonical : IsCanonical second later)
    (large : -52 < later ∨ -52 = later ∧ 2 ^ 52 < second)
    (enough : later + shift ≤ places) :
    2 ^ shift < 2 ^ places * second := by
  have full : 2 ^ 52 ≤ second := canonical.le_mantissa (by omega)
  rcases large with above | ⟨_, above⟩
  · calc
      2 ^ shift < 2 ^ (places + 52) := Nat.pow_lt_pow_right (by decide) (by omega)
      _ = 2 ^ places * 2 ^ 52 := pow_add _ _ _
      _ ≤ 2 ^ places * second := Nat.mul_le_mul_left _ full
  · calc
      2 ^ shift ≤ 2 ^ (places + 52) := Nat.pow_le_pow_right (by decide) (by omega)
      _ = 2 ^ places * 2 ^ 52 := pow_add _ _ _
      _ < 2 ^ places * second := Nat.mul_lt_mul_of_pos_left above (Nat.two_pow_pos _)

/-- The largest double is not exceeded by a quotient with a divisor larger than one. -/
theorem isFinite_repacked_div
    {exponent later : Int}
    (sign other : Sign)
    (firstPositive : 0 < first)
    (secondPositive : 0 < second)
    (canonical : IsCanonical first exponent)
    (small : exponent ≤ 971)
    (divisorCanonical : IsCanonical second later)
    (large : -52 < later ∨ -52 = later ∧ 2 ^ 52 < second) :
    (repacked
      (UnpackedFloat.div .binary64 (.finite sign first exponent firstPositive)
        (.finite other second later secondPositive))).isFinite = true := by
  have unfolded :
      UnpackedFloat.div .binary64 (.finite sign first exponent firstPositive)
          (.finite other second later secondPositive) =
        roundWithAccuracy .binary64 (sign / other) (divCore .binary64 first exponent second later).1
          (divCore .binary64 first exponent second later).2.1
          (divCore .binary64 first exponent second later).2.2 :=
    rfl
  have wide := wide_divCore firstPositive secondPositive exponent later
  have places
      (nonzero : (divCore .binary64 first exponent second later).1 ≠ 0) :=
    log2_divCore_le secondPositive nonzero
  obtain ⟨shift, scale_eq, product_le⟩ := divCore_mul_le first second exponent later
  have short := canonical.short
  have full := divisorCanonical.le_mantissa (by omega)
  have bits : second.log2 = 52 :=
    Nat.le_antisymm divisorCanonical.short ((Nat.le_log2 (Nat.ne_of_gt secondPositive)).mpr full)
  rw [unfolded]
  generalize (divCore .binary64 first exponent second later).2.2 = accuracy
  generalize (divCore .binary64 first exponent second later).2.1 = scale at wide places scale_eq ⊢
  generalize (divCore .binary64 first exponent second later).1 = quotient at wide places product_le ⊢
  generalize target_eq : max ((quotient.log2 : Int) + 1 + scale - 53) (-1074) = target at wide
  have reached : target ≤ 971 := by
    by_cases zero : quotient = 0
    · subst zero
      simp only [Nat.log2_zero] at target_eq
      omega
    · have := places zero
      omega
  rcases roundWithAccuracy_cases (sign / other) accuracy target_eq.symm wide with
    ⟨rounded, last, positive, shape, roundedCanonical, order⟩ | ⟨shape, _⟩
  · have inside : last ≤ 971 := by
      rcases order with ⟨higher, _, carried⟩ | ⟨same, _, _⟩
      · by_contra beyond
        -- The quotient would have to be the largest mantissa, as if nothing had been divided.
        have top : target = 971 := by omega
        generalize dropped_eq : (target - scale).toNat = dropped at carried
        have below : first < 2 ^ 53 := canonical.mantissa_lt
        have quotient_ge : (2 ^ 53 - 1) * 2 ^ dropped ≤ quotient :=
          (Nat.le_div_iff_mul_le (Nat.two_pow_pos dropped)).mp (by omega)
        have chain : (2 ^ 53 - 1) * (2 ^ dropped * second) ≤ (2 ^ 53 - 1) * 2 ^ shift :=
          calc
            (2 ^ 53 - 1) * (2 ^ dropped * second) = (2 ^ 53 - 1) * 2 ^ dropped * second :=
              (Nat.mul_assoc _ _ _).symm
            _ ≤ quotient * second := Nat.mul_le_mul_right _ quotient_ge
            _ ≤ first * 2 ^ shift := product_le
            _ ≤ (2 ^ 53 - 1) * 2 ^ shift := Nat.mul_le_mul_right _ (by omega)
        have notMore := Nat.le_of_mul_le_mul_left chain (by decide)
        have more : 2 ^ shift < 2 ^ dropped * second :=
          two_pow_lt_mul divisorCanonical large (by omega)
        omega
      · omega
    rw [shape, repacked_of_isCanonical _ _ roundedCanonical inside]
    rfl
  · rw [shape, repacked_zero]
    rfl

end Quotients

section Doubles

variable {a b : Float}

/-- Finite doubles lie below the largest power of two. -/
theorem isBelow_of_isFinite (finite : Arithmetic.isFinite a = true) : IsBelow 1024 (value a) := by
  rcases value_eq_of_isFinite finite with ⟨sign, shape⟩ | ⟨sign, _, _, positive, shape⟩
  · rw [shape]
    exact .zero sign
  · obtain ⟨canonical, small⟩ := isCanonical_of_unpack shape
    have short := canonical.short
    rw [shape]
    exact .finite sign positive canonical (by omega)

/-- A finite double divided by one larger than one is finite. -/
theorem isFinite_div
    (finite : Arithmetic.isFinite a = true)
    (large : Arithmetic.less 1.0 b = true) :
    Arithmetic.isFinite (a / b) = true := by
  rw [isFinite_eq, value_div]
  rw [less_eq_lt, value_one] at large
  cases divisorShape : value b with
  | notANumber =>
      rw [divisorShape] at large
      cases large
  | zero sign =>
      rw [divisorShape] at large
      cases large
  | infinity sign =>
      rcases value_eq_of_isFinite finite with ⟨_, shape⟩ | ⟨_, _, _, _, shape⟩ <;>
        rw [shape, UnpackedFloat.div, repacked_zero] <;>
        rfl
  | finite other second later secondPositive =>
      rw [divisorShape] at large
      cases other with
      | negative => cases large
      | positive =>
          obtain ⟨divisorCanonical, _⟩ := isCanonical_of_unpack divisorShape
          rcases value_eq_of_isFinite finite with ⟨_, shape⟩ | ⟨_, _, _, positive, shape⟩
          · rw [shape, UnpackedFloat.div, repacked_zero]
            rfl
          · obtain ⟨canonical, small⟩ := isCanonical_of_unpack shape
            rw [shape]
            exact isFinite_repacked_div _ _ positive secondPositive canonical small divisorCanonical
              (lt_finite_iff.mp large)

/-- Packing makes nothing finite. -/
theorem isFinite_of_repacked
    {unpacked : UnpackedFloat}
    (finite : (repacked unpacked).isFinite = true) :
    unpacked.isFinite = true := by
  cases unpacked with
  | zero sign => rfl
  | finite sign mantissa exponent positive => rfl
  | notANumber =>
      rw [repacked_notANumber] at finite
      cases finite
  | infinity sign =>
      rw [repacked_infinity] at finite
      cases finite

/-- Nothing makes a dividend that is not finite finite. -/
theorem isFinite_of_div (finite : Arithmetic.isFinite (a / b) = true) :
    Arithmetic.isFinite a = true := by
  rw [isFinite_eq, value_div] at finite
  rw [isFinite_eq]
  have unpacked := isFinite_of_repacked finite
  generalize value a = first at unpacked ⊢
  generalize value b = second at unpacked
  cases first with
  | zero sign => rfl
  | finite sign mantissa exponent positive => rfl
  | notANumber => cases unpacked
  | infinity sign => cases second <;> cases unpacked

/-- A finite product has finite factors. -/
theorem isFinite_parts_of_mul
    {first second : UnpackedFloat}
    (finite : (UnpackedFloat.mul .binary64 first second).isFinite = true) :
    first.isFinite = true ∧ second.isFinite = true := by
  rcases first with ⟨_ | _⟩ | _ | _ | _ <;>
    rcases second with ⟨_ | _⟩ | _ | _ | _ <;>
    first
    | exact ⟨rfl, rfl⟩
    | cases finite

/-- Nothing makes a factor that is not finite finite. -/
theorem isFinite_of_mul (finite : Arithmetic.isFinite (a * b) = true) :
    Arithmetic.isFinite b = true :=
  (isFinite_parts_of_mul (isFinite_of_repacked finite)).2

theorem isFinite_left_of_mul (finite : Arithmetic.isFinite (a * b) = true) :
    Arithmetic.isFinite a = true :=
  (isFinite_parts_of_mul (isFinite_of_repacked finite)).1

/-- Infinities do not cancel, and nothing else takes them away. -/
theorem isFinite_parts_of_add
    {first second : UnpackedFloat}
    (finite : (UnpackedFloat.add .binary64 first second).isFinite = true) :
    first.isFinite = true ∧ second.isFinite = true := by
  rcases first with ⟨_ | _⟩ | _ | _ | _ <;>
    rcases second with ⟨_ | _⟩ | _ | _ | _ <;>
    first
    | exact ⟨rfl, rfl⟩
    | cases finite

/-- A finite sum has finite parts. -/
theorem isFinite_of_add (finite : Arithmetic.isFinite (a + b) = true) :
    Arithmetic.isFinite a = true ∧ Arithmetic.isFinite b = true :=
  isFinite_parts_of_add (isFinite_of_repacked finite)

/-- A finite difference has finite parts. -/
theorem isFinite_of_sub (finite : Arithmetic.isFinite (a - b) = true) :
    Arithmetic.isFinite a = true ∧ Arithmetic.isFinite b = true := by
  rw [isFinite_eq, value_sub, sub_eq_add_neg] at finite
  obtain ⟨first, opposite⟩ := isFinite_parts_of_add (isFinite_of_repacked finite)
  rw [isFinite_eq, isFinite_eq]
  refine ⟨first, ?_⟩
  cases shape : value b <;> rw [shape] at opposite <;> exact opposite

/-- One of the two infinities. -/
def IsInfinite (double : Float) : Prop :=
  ∃ sign, value double = .infinity sign

/-- One of the two zeros. -/
def IsZero (double : Float) : Prop :=
  ∃ sign, value double = .zero sign

/-- A divisor that is not finite is hidden in a finite quotient only if it is infinite. -/
theorem isZero_div_of_isFinite
    (finite : Arithmetic.isFinite (a / b) = true)
    (divisor : Arithmetic.isFinite b = false) :
    IsInfinite b ∧ IsZero (a / b) := by
  have dividend := isFinite_of_div finite
  rw [isFinite_eq] at finite dividend divisor
  rw [IsInfinite, IsZero]
  rw [value_div] at finite ⊢
  have unpacked := isFinite_of_repacked finite
  generalize value a = first at unpacked dividend ⊢
  generalize value b = second at unpacked divisor ⊢
  cases second with
  | zero sign => cases divisor
  | finite sign mantissa exponent positive => cases divisor
  | notANumber => cases first <;> cases unpacked
  | infinity sign =>
      refine ⟨⟨sign, rfl⟩, ?_⟩
      cases first with
      | notANumber => cases dividend
      | infinity other => cases dividend
      | zero other => exact ⟨_, repacked_zero _⟩
      | finite other mantissa exponent positive => exact ⟨_, repacked_zero _⟩

/-- One plus a magnitude is infinite or at least one. -/
theorem value_one_add_magnitude
    (isMagnitude : IsMagnitude (value a)) :
    value (1.0 + a) = .infinity .positive ∨
      ∃ mantissa exponent positive,
        value (1.0 + a) = .finite .positive mantissa exponent positive ∧
          0 ≤ mantissa.log2 + exponent := by
  rw [value_add]
  generalize value a = addend at isMagnitude
  cases isMagnitude with
  | infinity => exact .inl rfl
  | zero sign => exact .inr ⟨2 ^ 52, -52, by decide, by cases sign <;> rfl, by decide⟩
  | finite nonzero =>
      obtain ⟨rounded, later, positive, shape, canonical, large⟩ := one_add_finite nonzero
      rw [shape]
      by_cases beyond : 971 < later
      · exact .inl (repacked_of_large _ _ beyond)
      · exact .inr ⟨rounded, later, positive,
          repacked_of_isCanonical _ _ canonical (Int.not_lt.mp beyond), large⟩

/-- The share of the residuals that a damped step takes is tiny. -/
theorem isBelow_dampingShare
    (isMagnitude : IsMagnitude (value a)) :
    IsBelow (-5) (value (0.01 / (1.0 + a))) := by
  have hundredth :
      value 0.01 = .finite .positive 5764607523034235 (-59) (by decide) := by
    rfl
  have bits : Nat.log2 5764607523034235 = 52 := by
    decide +kernel
  rw [value_div, hundredth]
  rcases value_one_add_magnitude isMagnitude with
    infinite | ⟨mantissa, exponent, positive, shape, large⟩
  · rw [infinite]
    exact .zero _
  · rw [shape]
    have below :
        IsBelow (-6 + 1)
          (UnpackedFloat.div .binary64 (.finite .positive 5764607523034235 (-59) (by decide))
            (.finite .positive mantissa exponent positive)) :=
      isBelow_div _ _ _ positive (by rw [bits]; omega) (by decide)
    rw [below.repacked_eq (by decide)]
    exact below

/-- So small a share of a finite double is finite, and turning its sign changes nothing of that. -/
theorem isFinite_neg_mul
    (share : IsBelow (-5) (value a))
    (finite : Arithmetic.isFinite b = true) :
    Arithmetic.isFinite (-a * b) = true := by
  have opposite : IsBelow (-5) (value (-a)) := isBelow_value_neg share (by decide)
  have product := isBelow_mul opposite (isBelow_of_isFinite finite) (by decide)
  rw [isFinite_eq, value_mul, product.repacked_eq (by decide)]
  exact product.isFinite

end Doubles

end Double

end RootFinding
