import RootFinding.Proofs.Double.Packing

/-!
# The nearest double

Rounding keeps two bits of what it drops: whether the rest reaches one half, and whether anything is
left beside that. These two tell the nearest mantissa. So a number that is nearer to a canonical
double than half way to its neighbours is rounded to it, and so is a number half way where the
mantissa is even. Below a power of two the neighbour is twice as near.
-/

namespace RootFinding

namespace Double

open Float.Model
open Float.Model.UnpackedFloat

/-- A number is the mantissa and what the two residual bits tell of the rest. -/
def Represents (extended : ExtendedMantissa) (number : ℚ) : Prop :=
  ∃ rest : ℚ,
    0 ≤ rest ∧
      rest < 1 / 2 ∧
      number = extended.mantissa + (if extended.roundBit then 1 / 2 else 0) + rest ∧
      (extended.stickyBit = true ↔ rest ≠ 0)

namespace Represents

variable {extended : ExtendedMantissa} {number : ℚ}

/-- A mantissa is at most the number that it represents. -/
theorem mantissa_le (represents : Represents extended number) :
    (extended.mantissa : ℚ) ≤ number := by
  obtain ⟨rest, nonnegative, _, rfl, _⟩ := represents
  split <;> linarith

/-- A mantissa falls short of the number that it represents by less than one. -/
theorem lt_mantissa_add_one (represents : Represents extended number) :
    number < extended.mantissa + 1 := by
  obtain ⟨rest, _, small, rfl, _⟩ := represents
  split <;> linarith

/-- Shifting halves the number: the last bit of the mantissa is the next residual bit. -/
theorem shiftRightOne (represents : Represents extended number) :
    Represents extended.shiftRightOne (number / 2) := by
  obtain ⟨rest, nonnegative, small, rfl, sticky⟩ := represents
  obtain ⟨mantissa, roundBit, stickyBit⟩ := extended
  refine ⟨(if roundBit then 1 / 4 else 0) + rest / 2, ?_, ?_, ?_, ?_⟩
  · split <;> linarith
  · split <;> linarith
  · have halves : (mantissa : ℚ) = 2 * (mantissa / 2 : Nat) + (mantissa % 2 : Nat) := by
      exact_mod_cast (Nat.div_add_mod mantissa 2).symm
    rcases Nat.mod_two_eq_zero_or_one mantissa with even | odd
    · rw [even] at halves
      cases roundBit <;> simp [ExtendedMantissa.shiftRightOne, even, halves] <;> ring
    · rw [odd] at halves
      cases roundBit <;> simp [ExtendedMantissa.shiftRightOne, odd, halves] <;> ring
  · cases roundBit with
    | false => simpa [ExtendedMantissa.shiftRightOne] using sticky
    | true =>
        have positive : (1 / 4 : ℚ) + rest / 2 ≠ 0 := by positivity
        simpa [ExtendedMantissa.shiftRightOne] using positive

/-- Shifting keeps track of the bits that are lost. -/
theorem shiftRight
    (represents : Represents extended number)
    (count : Nat) :
    Represents (extended >>> count) (number / 2 ^ count) := by
  induction count with
  | zero => simpa [HShiftRight.hShiftRight, Nat.repeat] using represents
  | succ count inductionHypothesis =>
      have halved := inductionHypothesis.shiftRightOne
      rwa [div_div, ← pow_succ] at halved

/-- An exact mantissa represents itself. -/
theorem of_exact (mantissa : Nat) :
    Represents (ExtendedMantissa.ofMantissaAndAccuracy mantissa .exact) mantissa :=
  ⟨0, le_rfl, by norm_num, by simp [ExtendedMantissa.ofMantissaAndAccuracy], by
    simp [ExtendedMantissa.ofMantissaAndAccuracy]⟩

/-- The remainder of a division tells the accuracy of its quotient. -/
theorem of_quotient
    (numerator : Nat)
    {denominator : Nat}
    (positive : 0 < denominator) :
    Represents
      (ExtendedMantissa.ofMantissaAndAccuracy (numerator / denominator)
        (accuracyOfFraction (numerator % denominator) denominator))
      (numerator / denominator) := by
  have small := Nat.mod_lt numerator positive
  have parts :
      (numerator / denominator : ℚ) =
        (numerator / denominator : Nat) + (numerator % denominator : Nat) / denominator := by
    have whole : (numerator : ℚ) =
        denominator * (numerator / denominator : Nat) + (numerator % denominator : Nat) := by
      exact_mod_cast (Nat.div_add_mod numerator denominator).symm
    field_simp
    linarith
  rw [parts]
  generalize numerator / denominator = quotient
  generalize numerator % denominator = remainder at small ⊢
  have scale : (0 : ℚ) < denominator := by exact_mod_cast positive
  have fraction_lt : (remainder : ℚ) / denominator < 1 := by
    rw [div_lt_one scale]
    exact_mod_cast small
  unfold accuracyOfFraction
  split
  · rename_i none
    subst none
    refine ⟨0, le_rfl, by norm_num, ?_, ?_⟩ <;> simp [ExtendedMantissa.ofMantissaAndAccuracy]
  · rename_i some
    have fraction_pos : 0 < (remainder : ℚ) / denominator :=
      div_pos (by exact_mod_cast Nat.pos_of_ne_zero some) scale
    cases order : compare (2 * remainder) denominator with
    | lt =>
        rw [Nat.compare_eq_lt] at order
        have below : (remainder : ℚ) / denominator < 1 / 2 := by
          rw [div_lt_iff₀ scale]
          have : (2 * remainder : ℚ) < denominator := by exact_mod_cast order
          linarith
        refine ⟨remainder / denominator, fraction_pos.le, below, ?_, ?_⟩
        · simp [ExtendedMantissa.ofMantissaAndAccuracy]
        · simpa [ExtendedMantissa.ofMantissaAndAccuracy] using fraction_pos.ne'
    | eq =>
        rw [Nat.compare_eq_eq] at order
        have half : (remainder : ℚ) / denominator = 1 / 2 := by
          rw [div_eq_iff scale.ne']
          have : (2 * remainder : ℚ) = denominator := by exact_mod_cast order
          linarith
        refine ⟨0, le_rfl, by norm_num, ?_, ?_⟩
        · simp [ExtendedMantissa.ofMantissaAndAccuracy, half]
        · simp [ExtendedMantissa.ofMantissaAndAccuracy]
    | gt =>
        rw [Nat.compare_eq_gt] at order
        have above : 1 / 2 < (remainder : ℚ) / denominator := by
          rw [lt_div_iff₀ scale]
          have : (denominator : ℚ) < 2 * remainder := by exact_mod_cast order
          linarith
        refine ⟨remainder / denominator - 1 / 2, by linarith, by linarith, ?_, ?_⟩
        · simp [ExtendedMantissa.ofMantissaAndAccuracy]
        · simpa [ExtendedMantissa.ofMantissaAndAccuracy, sub_eq_zero] using above.ne'

end Represents

/-- No other natural number is as near, unless both are one half away and this one is even. -/
structure IsNearest (number : ℚ) (nearest : Nat) : Prop where
  lower : nearest - 1 / 2 ≤ number
  upper : number ≤ nearest + 1 / 2
  tie : number = nearest - 1 / 2 ∨ number = nearest + 1 / 2 → nearest % 2 = 0

/-- The two residual bits are enough to find the nearest mantissa. -/
theorem Represents.roundedMantissa_eq
    {extended : ExtendedMantissa}
    {number : ℚ}
    {nearest : Nat}
    (represents : Represents extended number)
    (isNearest : IsNearest number nearest) :
    extended.roundedMantissa = nearest := by
  obtain ⟨lower, upper, tie⟩ := isNearest
  obtain ⟨rest, nonnegative, small, number_eq, sticky⟩ := represents
  obtain ⟨mantissa, roundBit, stickyBit⟩ := extended
  have between (least most : Nat) (above : (least : ℚ) < nearest + 1)
      (below : (nearest : ℚ) < most + 1) : least ≤ nearest ∧ nearest ≤ most :=
    ⟨Nat.lt_succ_iff.mp (by exact_mod_cast above), Nat.lt_succ_iff.mp (by exact_mod_cast below)⟩
  cases roundBit with
  | false =>
      simp only [Bool.false_eq_true, ↓reduceIte, add_zero] at number_eq
      obtain ⟨atLeast, atMost⟩ := between mantissa mantissa
        (by linarith) (by linarith)
      have same : mantissa = nearest := Nat.le_antisymm atLeast atMost
      cases stickyBit <;> exact same
  | true =>
      simp only [↓reduceIte] at number_eq
      cases stickyBit with
      | false =>
          have exactly : rest = 0 := by simpa using sticky
          rw [exactly, add_zero] at number_eq
          obtain ⟨atLeast, atMost⟩ := between mantissa (mantissa + 1)
            (by linarith) (by push_cast; linarith)
          change mantissa + mantissa % 2 = nearest
          rcases Nat.le_succ_iff_eq_or_le.mp atMost with rfl | atMost
          · have even := tie (.inl (by push_cast; linarith))
            omega
          · obtain rfl := Nat.le_antisymm atLeast atMost
            have even := tie (.inr (by linarith))
            omega
      | true =>
          have some : rest ≠ 0 := sticky.mp rfl
          have positive : 0 < rest := lt_of_le_of_ne nonnegative (Ne.symm some)
          obtain ⟨atLeast, atMost⟩ := between (mantissa + 1) (mantissa + 1)
            (by push_cast; linarith) (by push_cast; linarith)
          exact Nat.le_antisymm atLeast atMost

/-- A positive number that rounds to the canonical double of a mantissa and an exponent. -/
structure RoundsTo (number : ℚ) (mantissa : Nat) (exponent : Int) : Prop where
  canonical : IsCanonical mantissa exponent
  positive : 0 < mantissa
  lower : (mantissa - 1 / 2) * 2 ^ exponent ≤ number
  upper : number ≤ (mantissa + 1 / 2) * 2 ^ exponent
  tie :
    number = (mantissa - 1 / 2) * 2 ^ exponent ∨ number = (mantissa + 1 / 2) * 2 ^ exponent →
      mantissa % 2 = 0
  /-- Below a power of two the neighbour is twice as near. -/
  lower_of_power :
    mantissa = 2 ^ 52 → -1074 < exponent → (mantissa - 1 / 4) * 2 ^ exponent ≤ number

theorem two_zpow_eq_halves (exponent : Int) : (2 : ℚ) ^ exponent = 2 * 2 ^ (exponent - 1) := by
  rw [← zpow_one_add₀ two_ne_zero]
  ring_nf

/-- The exponent to which a number is rounded is told by its size. -/
theorem target_eq_of_bounds
    {digits : Nat}
    {scale target : Int}
    {number : ℚ}
    (atLeast : digits ≤ number / 2 ^ scale)
    (below : number / 2 ^ scale < digits + 1)
    (wide : scale ≤ max (digits.log2 + 1 + scale - 53) (-1074))
    (least : -1074 ≤ target)
    (notBelow : target = -1074 ∨ 2 ^ 52 * 2 ^ target ≤ number)
    (small : number < 2 ^ 53 * 2 ^ target) :
    max (digits.log2 + 1 + scale - 53) (-1074) = target := by
  have scalePositive : (0 : ℚ) < 2 ^ scale := by positivity
  rw [le_div_iff₀ scalePositive] at atLeast
  rw [div_lt_iff₀ scalePositive] at below
  have power (places : Nat) (shift : Int) :
      (2 : ℚ) ^ places * 2 ^ shift = 2 ^ (places + shift) := by
    rw [zpow_add₀ two_ne_zero, zpow_natCast]
  have notAbove : digits ≠ 0 → (digits.log2 : Int) + scale < 53 + target := by
    intro nonzero
    have bit : ((2 ^ digits.log2 : Nat) : ℚ) ≤ digits := by exact_mod_cast Nat.log2_self_le nonzero
    push_cast at bit
    have size : (2 : ℚ) ^ (digits.log2 + scale : Int) < 2 ^ ((53 : Nat) + target : Int) := by
      rw [← power, ← power]
      calc
        (2 : ℚ) ^ digits.log2 * 2 ^ scale ≤ digits * 2 ^ scale := by gcongr
        _ ≤ number := atLeast
        _ < 2 ^ 53 * 2 ^ target := small
    exact (zpow_lt_zpow_iff_right₀ one_lt_two).mp size
  have notFarBelow : target = -1074 ∨ 52 + target < digits.log2 + 1 + scale := by
    refine notBelow.imp id fun large => ?_
    have bit : ((digits + 1 : Nat) : ℚ) ≤ (2 ^ (digits.log2 + 1) : Nat) := by
      exact_mod_cast Nat.lt_log2_self
    push_cast at bit
    have size :
        (2 : ℚ) ^ ((52 : Nat) + target : Int) < 2 ^ ((digits.log2 + 1 : Nat) + scale : Int) := by
      rw [← power, ← power]
      calc
        (2 : ℚ) ^ 52 * 2 ^ target ≤ number := large
        _ < (digits + 1) * 2 ^ scale := below
        _ ≤ 2 ^ (digits.log2 + 1) * 2 ^ scale := by gcongr
    exact_mod_cast (zpow_lt_zpow_iff_right₀ one_lt_two).mp size
  by_cases zero : digits = 0
  · subst zero
    simp at wide notFarBelow ⊢
    omega
  · have := notAbove zero
    omega

namespace RoundsTo

variable {number : ℚ} {mantissa : Nat} {exponent : Int}

/-- In units of its own exponent the number is nearest to the mantissa. -/
theorem isNearest (rounds : RoundsTo number mantissa exponent) :
    IsNearest (number / 2 ^ exponent) mantissa := by
  have unit : (0 : ℚ) < 2 ^ exponent := by positivity
  exact {
    lower := (le_div_iff₀ unit).mpr rounds.lower
    upper := (div_le_iff₀ unit).mpr rounds.upper
    tie := by
      rw [div_eq_iff unit.ne', div_eq_iff unit.ne']
      exact rounds.tie }

/-- The number has no more than the 53 bits of a mantissa in front of the point. -/
theorem lt_two_pow (rounds : RoundsTo number mantissa exponent) :
    number < 2 ^ 53 * 2 ^ exponent := by
  have short : (mantissa : ℚ) + 1 ≤ 2 ^ 53 := by exact_mod_cast rounds.canonical.mantissa_lt
  have unit : (0 : ℚ) < 2 ^ exponent := by positivity
  calc
    number ≤ (mantissa + 1 / 2) * 2 ^ exponent := rounds.upper
    _ < 2 ^ 53 * 2 ^ exponent := by
      apply mul_lt_mul_of_pos_right _ unit
      linarith

/-- Only a power of two is the nearest double of a smaller number of 53 bits. -/
theorem eq_power_of_lt
    (rounds : RoundsTo number mantissa exponent)
    (above : -1074 < exponent)
    (small : number < 2 ^ 52 * 2 ^ exponent) :
    mantissa = 2 ^ 52 := by
  have unit : (0 : ℚ) < 2 ^ exponent := by positivity
  have full := rounds.canonical.le_mantissa above
  by_contra other
  have larger : ((2 ^ 52 + 1 : Nat) : ℚ) ≤ mantissa := by
    exact_mod_cast Nat.lt_of_le_of_ne full (Ne.symm other)
  push_cast at larger
  have lower : 2 ^ 52 * (2 : ℚ) ^ exponent ≤ number := by
    refine le_trans ?_ rounds.lower
    apply mul_le_mul_of_nonneg_right _ unit.le
    linarith
  linarith

/-- One place further down such a number is nearest to the mantissa of one bit more. -/
theorem isNearest_below
    (rounds : RoundsTo number mantissa exponent)
    (above : -1074 < exponent)
    (small : number < 2 ^ 52 * 2 ^ exponent) :
    IsNearest (number / 2 ^ (exponent - 1)) (2 ^ 53) := by
  have power := rounds.eq_power_of_lt above small
  have lower := rounds.lower_of_power power above
  rw [power] at lower
  push_cast at lower
  have unit : (0 : ℚ) < 2 ^ (exponent - 1) := by positivity
  rw [two_zpow_eq_halves] at lower small
  exact {
    lower := by
      rw [le_div_iff₀ unit]
      push_cast
      linarith
    upper := by
      rw [div_le_iff₀ unit]
      push_cast
      linarith
    tie := fun _ => by decide }

end RoundsTo

/-- A mantissa that is too fine for its target is shifted once, by the difference. -/
theorem shiftToTargetExponent_of_target_eq
    {digits : Nat}
    {scale target : Int}
    (target_eq : max (digits.log2 + 1 + scale - 53) (-1074) = target)
    (wide : scale ≤ target)
    (accuracy : Accuracy) :
    shiftToTargetExponent .binary64 digits scale accuracy =
      (ExtendedMantissa.ofMantissaAndAccuracy digits accuracy >>> (target - scale).toNat,
        target) := by
  simp only [shiftToTargetExponent, shiftToExponent, totalExponent, targetExponent_binary64,
    target_eq]
  congr 1
  omega

section Rounding

variable {digits : Nat} {scale : Int} {accuracy : Accuracy} {number : ℚ}

/-- The first shift of a rounding leaves the mantissa that is nearest at its target. -/
theorem shiftToTargetExponent_of_isNearest
    {target : Int}
    {nearest : Nat}
    (represents :
      Represents (ExtendedMantissa.ofMantissaAndAccuracy digits accuracy) (number / 2 ^ scale))
    (wide : scale ≤ max (digits.log2 + 1 + scale - 53) (-1074))
    (least : -1074 ≤ target)
    (notBelow : target = -1074 ∨ 2 ^ 52 * 2 ^ target ≤ number)
    (small : number < 2 ^ 53 * 2 ^ target)
    (isNearest : IsNearest (number / 2 ^ target) nearest) :
    (shiftToTargetExponent .binary64 digits scale accuracy).1.roundedMantissa = nearest ∧
      (shiftToTargetExponent .binary64 digits scale accuracy).2 = target := by
  have atLeast := represents.mantissa_le
  have below := represents.lt_mantissa_add_one
  rw [mantissa_ofMantissaAndAccuracy] at atLeast below
  have target_eq := target_eq_of_bounds atLeast below wide least notBelow small
  rw [target_eq] at wide
  rw [shiftToTargetExponent_of_target_eq target_eq wide]
  refine ⟨(?_ : Represents _ (number / 2 ^ target)).roundedMantissa_eq isNearest, rfl⟩
  have reached := represents.shiftRight (target - scale).toNat
  have unit_eq : (2 : ℚ) ^ target = 2 ^ scale * 2 ^ (target - scale).toNat := by
    rw [← zpow_natCast, ← zpow_add₀ two_ne_zero]
    congr 1
    omega
  rwa [div_div, ← unit_eq] at reached

/-- A number with enough digits is rounded to its nearest double. -/
theorem roundWithAccuracy_of_roundsTo
    (sign : Sign)
    {mantissa : Nat}
    {exponent : Int}
    (represents :
      Represents (ExtendedMantissa.ofMantissaAndAccuracy digits accuracy) (number / 2 ^ scale))
    (wide : scale ≤ max (digits.log2 + 1 + scale - 53) (-1074))
    (rounds : RoundsTo number mantissa exponent) :
    roundWithAccuracy .binary64 sign digits scale accuracy =
      .finite sign mantissa exponent rounds.positive := by
  have least := rounds.canonical.least_le
  rw [roundWithAccuracy_eq_ofShifted]
  dsimp only
  by_cases large : exponent = -1074 ∨ 2 ^ 52 * 2 ^ exponent ≤ number
  · obtain ⟨rounded, reached⟩ :=
      shiftToTargetExponent_of_isNearest represents wide least large rounds.lt_two_pow
        rounds.isNearest
    rw [rounded, reached, shiftToTargetExponent_of_short least rounds.canonical.short]
    exact dif_neg (Nat.ne_of_gt rounds.positive)
  · -- The mantissa is a power of two that is reached from below, by one bit too many at first.
    rw [not_or, not_le] at large
    obtain ⟨notLeast, small⟩ := large
    have above : -1074 < exponent := by omega
    have isNearest := rounds.isNearest_below above small
    have unit : (0 : ℚ) < 2 ^ (exponent - 1) := by positivity
    have unit_eq := two_zpow_eq_halves exponent
    have notBelow : 2 ^ 52 * (2 : ℚ) ^ (exponent - 1) ≤ number := by
      have lower := isNearest.lower
      rw [le_div_iff₀ unit] at lower
      push_cast at lower
      linarith
    have lower : (-1074 : Int) ≤ exponent - 1 := by omega
    obtain ⟨rounded, reached⟩ :=
      shiftToTargetExponent_of_isNearest represents wide lower (.inr notBelow) (by linarith)
        isNearest
    obtain ⟨shortened, later⟩ := shiftToTargetExponent_of_limit lower .exact
    have power := rounds.eq_power_of_lt above small
    rw [rounded, reached, ofShifted, dif_neg (by rw [shortened]; decide)]
    simp only [shortened, later, power, finite.injEq, true_and]
    omega

end Rounding

end Double

end RootFinding
