import RootFinding.Decimal.Shortest
import RootFinding.Proofs.Double.Nearest

/-!
# Shortest decimals read back

A point of a decimal grid that is found in the interval of a double is a decimal that rounds to the
double. One is always found: the grid of 17 digits is finer than the doubles, so one of the two
points next to a double lies in its interval.
-/

namespace RootFinding

namespace Decimal

open Double

/-! ## Scales -/

theorem powerOfTen_eq (place : Nat) : powerOfTen place = 10 ^ place :=
  rfl

/-- A power of a base at an integer, put together of the two at natural numbers. -/
theorem zpow_mul_pow_neg
    {base : ℚ}
    (nonzero : base ≠ 0)
    (place : Int) :
    base ^ place * base ^ (-place).toNat = base ^ place.toNat := by
  rw [← zpow_natCast, ← zpow_natCast, ← zpow_add₀ nonzero]
  congr 1
  omega

/-- The last power of ten is not above the quotient. -/
theorem zpow_leadingExponent_le
    {numerator denominator : Nat}
    (positive : 0 < numerator) :
    (10 : ℚ) ^ leadingExponent numerator denominator * denominator ≤ numerator := by
  unfold leadingExponent
  dsimp only
  generalize guess_eq : (digitCount numerator : Int) - digitCount denominator = guess
  split
  · rename_i notAbove
    rw [powerOfTen_eq, powerOfTen_eq] at notAbove
    have scaled :
        (denominator * 10 ^ guess.toNat : ℚ) ≤ numerator * 10 ^ (-guess).toNat := by
      exact_mod_cast notAbove
    rw [← zpow_mul_pow_neg (by norm_num) guess, ← mul_assoc] at scaled
    have unit : (0 : ℚ) < 10 ^ (-guess).toNat := by positivity
    rw [mul_comm]
    exact le_of_mul_le_mul_right scaled unit
  · have some : 0 < digitCount numerator := Nat.length_toDigits_pos
    have otherSome : 0 < digitCount denominator := Nat.length_toDigits_pos
    have below : denominator < 10 ^ digitCount denominator :=
      (Nat.length_toDigits_le_iff (by decide) otherSome).mp le_rfl
    have above : 10 ^ (digitCount numerator - 1) ≤ numerator := by
      by_cases one : digitCount numerator = 1
      · rw [one]
        exact positive
      · by_contra small
        have fewer :=
          (Nat.length_toDigits_le_iff (by decide) (show 0 < digitCount numerator - 1 by omega)).mpr
            (Nat.lt_of_not_le small)
        change digitCount numerator ≤ digitCount numerator - 1 at fewer
        omega
    calc
      (10 : ℚ) ^ (guess - 1) * denominator
          ≤ 10 ^ (guess - 1) * 10 ^ digitCount denominator := by
        gcongr
        exact_mod_cast below.le
      _ = 10 ^ (digitCount numerator - 1) := by
        rw [← zpow_natCast, ← zpow_natCast, ← zpow_add₀ (by norm_num)]
        congr 1
        omega
      _ ≤ numerator := by exact_mod_cast above

/-! ## Grids -/

section Grids

variable {mantissa : Nat} {exponent place : Int} {unit step count : Nat}

/-- The step of a grid and the quarter of a unit of a double, both as natural numbers. -/
structure AreScales (exponent place : Int) (unit step : Nat) : Prop where
  unit_pos : 0 < unit
  step_pos : 0 < step
  ratio : (step * 2 ^ (exponent - 2) : ℚ) = unit * 10 ^ place

/-- The scales of the spelling algorithm measure quarters of a spacing and steps of a place. -/
theorem areScales (exponent place : Int) :
    AreScales exponent place (powerOfTen (-place).toNat <<< (exponent - 2).toNat)
      (powerOfTen place.toNat <<< (-(exponent - 2)).toNat) where
  unit_pos := by
    rw [powerOfTen_eq, Nat.shiftLeft_eq]
    positivity
  step_pos := by
    rw [powerOfTen_eq, Nat.shiftLeft_eq]
    positivity
  ratio := by
    rw [powerOfTen_eq, powerOfTen_eq, Nat.shiftLeft_eq, Nat.shiftLeft_eq]
    push_cast
    rw [← zpow_mul_pow_neg (by norm_num) place, ← zpow_mul_pow_neg two_ne_zero (exponent - 2)]
    ring

/-- Counts of steps compare with quarters as the numbers that they stand for. -/
theorem AreScales.le_iff
    (scales : AreScales exponent place unit step)
    (quarters count : Nat) :
    (quarters * unit ≤ count * step ↔
        (quarters * 2 ^ (exponent - 2) : ℚ) ≤ count * 10 ^ place) ∧
      (count * step ≤ quarters * unit ↔
        (count * 10 ^ place : ℚ) ≤ quarters * 2 ^ (exponent - 2)) := by
  have unitPositive : (0 : ℚ) < unit := by exact_mod_cast scales.unit_pos
  have quarter : (0 : ℚ) < 2 ^ (exponent - 2) := by positivity
  have stepped : (count * step * 2 ^ (exponent - 2) : ℚ) = count * 10 ^ place * unit := by
    rw [mul_assoc, scales.ratio]
    ring
  have scaled :
      (quarters * unit * 2 ^ (exponent - 2) : ℚ) = quarters * 2 ^ (exponent - 2) * unit := by
    ring
  constructor
  · rw [← mul_le_mul_iff_left₀ unitPositive, ← stepped, ← scaled, mul_le_mul_iff_left₀ quarter]
    exact_mod_cast Iff.rfl
  · rw [← mul_le_mul_iff_left₀ unitPositive, ← stepped, ← scaled, mul_le_mul_iff_left₀ quarter]
    exact_mod_cast Iff.rfl

/-- On a common scale, quarters of a spacing are compared with decimal steps exactly. -/
theorem AreScales.lt_iff
    (scales : AreScales exponent place unit step)
    (quarters count : Nat) :
    (quarters * unit < count * step ↔
        (quarters * 2 ^ (exponent - 2) : ℚ) < count * 10 ^ place) ∧
      (count * step < quarters * unit ↔
        (count * 10 ^ place : ℚ) < quarters * 2 ^ (exponent - 2)) := by
  obtain ⟨above, below⟩ := scales.le_iff quarters count
  exact ⟨by rw [← not_le, ← not_le, below], by rw [← not_le, ← not_le, above]⟩

/-- Below a power of two the interval reaches down one quarter only, elsewhere two. -/
theorem low_ofMantissa
    (positive : 0 < mantissa)
    (exponent : Int) :
    ((RoundingInterval.ofMantissa mantissa exponent).low + 1 = 4 * mantissa ∧
        mantissa = 2 ^ 52 ∧ -1074 < exponent) ∨
      ((RoundingInterval.ofMantissa mantissa exponent).low + 2 = 4 * mantissa ∧
        ¬(mantissa = 2 ^ 52 ∧ -1074 < exponent)) := by
  have leading : BinaryValue.leadingBit = 2 ^ 52 := rfl
  simp only [RoundingInterval.ofMantissa, leading, Bool.and_eq_true, decide_eq_true_eq]
  split
  · rename_i power
    exact .inl ⟨by omega, power⟩
  · rename_i other
    exact .inr ⟨by omega, other⟩

/-- A unit of a double is four quarters. -/
theorem two_zpow_eq_quarters (exponent : Int) : (2 : ℚ) ^ exponent = 4 * 2 ^ (exponent - 2) := by
  rw [show (4 : ℚ) = 2 ^ (2 : Int) by norm_num, ← zpow_add₀ two_ne_zero]
  ring_nf

/-- A grid point that an interval holds lies between its ends, and on none of them if it is open. -/
theorem AreScales.bounds_of_holds
    {interval : RoundingInterval}
    (scales : AreScales exponent place unit step)
    (holds : interval.holds unit step count = true) :
    (interval.low * 2 ^ (exponent - 2) : ℚ) ≤ count * 10 ^ place ∧
      (count * 10 ^ place : ℚ) ≤ interval.high * 2 ^ (exponent - 2) ∧
      (interval.closed = false →
        (interval.low * 2 ^ (exponent - 2) : ℚ) < count * 10 ^ place ∧
          (count * 10 ^ place : ℚ) < interval.high * 2 ^ (exponent - 2)) := by
  rw [RoundingInterval.holds] at holds
  split at holds
  · rename_i closed
    rw [Bool.and_eq_true, decide_eq_true_eq, decide_eq_true_eq, (scales.le_iff _ _).1,
      (scales.le_iff _ _).2] at holds
    exact ⟨holds.1, holds.2, fun isOpen => absurd (closed.symm.trans isOpen) (by decide)⟩
  · rw [Bool.and_eq_true, decide_eq_true_eq, decide_eq_true_eq, (scales.lt_iff _ _).1,
      (scales.lt_iff _ _).2] at holds
    exact ⟨holds.1.le, holds.2.le, fun _ => holds⟩

/-- A grid point in the interval of a canonical double is a decimal that rounds to the double. -/
theorem roundsTo_of_holds
    (canonical : IsCanonical mantissa exponent)
    (positive : 0 < mantissa)
    (scales : AreScales exponent place unit step)
    (holds : (RoundingInterval.ofMantissa mantissa exponent).holds unit step count = true) :
    RoundsTo (count * 10 ^ place) mantissa exponent := by
  obtain ⟨notBelow, notAbove, strict⟩ := scales.bounds_of_holds holds
  have low_cases := low_ofMantissa positive exponent
  have high_eq : (RoundingInterval.ofMantissa mantissa exponent).high = 4 * mantissa + 2 := rfl
  have closed_eq :
      (RoundingInterval.ofMantissa mantissa exponent).closed = decide (mantissa % 2 = 0) :=
    rfl
  generalize RoundingInterval.ofMantissa mantissa exponent = interval at *
  have low_le : (4 * mantissa - 2 : ℚ) ≤ interval.low := by
    have : 4 * mantissa ≤ interval.low + 2 := by omega
    have : (4 * mantissa : ℚ) ≤ interval.low + 2 := by exact_mod_cast this
    linarith
  have low_of_power (power : mantissa = 2 ^ 52) (above : -1074 < exponent) :
      (4 * mantissa - 1 : ℚ) = interval.low := by
    have : 4 * mantissa = interval.low + 1 := by omega
    have : (4 * mantissa : ℚ) = interval.low + 1 := by exact_mod_cast this
    linarith
  have high_eq : (interval.high : ℚ) = 4 * mantissa + 2 := by
    rw [high_eq]
    push_cast
    rfl
  have bottom : (4 * mantissa - 2 : ℚ) * 2 ^ (exponent - 2) ≤ interval.low * 2 ^ (exponent - 2) :=
    mul_le_mul_of_nonneg_right low_le (by positivity)
  rw [high_eq] at notAbove strict
  rw [closed_eq, decide_eq_false_iff_not] at strict
  exact {
    canonical
    positive
    lower := by
      rw [two_zpow_eq_quarters]
      linarith
    upper := by
      rw [two_zpow_eq_quarters]
      linarith
    tie := by
      rw [two_zpow_eq_quarters]
      intro tie
      by_contra odd
      obtain ⟨above, below⟩ := strict odd
      rcases tie with tie | tie <;> linarith
    lower_of_power := by
      intro power above
      rw [two_zpow_eq_quarters]
      rw [← low_of_power power above] at notBelow
      linarith }

/-! ## The search -/

/-- Strictly inside its ends an interval holds a point whether it is closed or not. -/
theorem RoundingInterval.holds_of_lt
    {interval : RoundingInterval}
    (above : interval.low * unit < count * step)
    (below : count * step < interval.high * unit) :
    interval.holds unit step count = true := by
  rw [RoundingInterval.holds]
  split
  · simp [above.le, below.le]
  · simp [above, below]

/-- What is found on the grid lies in the interval. -/
theorem holds_of_nearestOnGrid?
    {interval : RoundingInterval}
    (found : nearestOnGrid? interval unit step = some count) :
    interval.holds unit step count = true := by
  unfold nearestOnGrid? at found
  dsimp only at found
  split at found
  · rename_i below above
    split at found <;> cases found
    · exact below
    · exact above
  · rename_i below _
    cases found
    exact below
  · rename_i _ above
    cases found
    exact above
  · cases found

/-- Something is found on the grid as soon as a neighbour of the value lies in the interval. -/
theorem exists_nearestOnGrid?
    {interval : RoundingInterval}
    (holds :
      interval.holds unit step (interval.value * unit / step) = true ∨
        interval.holds unit step (interval.value * unit / step + 1) = true) :
    ∃ count, nearestOnGrid? interval unit step = some count := by
  unfold nearestOnGrid?
  dsimp only
  split
  · split <;> exact ⟨_, rfl⟩
  · exact ⟨_, rfl⟩
  · exact ⟨_, rfl⟩
  · rename_i below above
    rw [below, above] at holds
    simp at holds

/-- A grid finer than the doubles has a point next to a double that rounds to it. -/
theorem holds_of_fine
    (positive : 0 < mantissa)
    (unitPositive : 0 < unit)
    (stepPositive : 0 < step)
    (fine : step < 4 * unit)
    (fineBelow : mantissa = 2 ^ 52 → step < 2 * unit) :
    let interval := RoundingInterval.ofMantissa mantissa exponent
    interval.holds unit step (interval.value * unit / step) = true ∨
      interval.holds unit step (interval.value * unit / step + 1) = true := by
  intro interval
  have value_eq : interval.value = 4 * mantissa := rfl
  have high_eq : interval.high = 4 * mantissa + 2 := rfl
  have high_mul : interval.high * unit = interval.value * unit + 2 * unit := by
    rw [high_eq, value_eq, Nat.add_mul]
  have atMost : interval.value * unit / step * step ≤ interval.value * unit :=
    Nat.div_mul_le_self _ _
  have next :
      (interval.value * unit / step + 1) * step = interval.value * unit / step * step + step :=
    Nat.succ_mul _ _
  have below : interval.value * unit < interval.value * unit / step * step + step := by
    rw [← next]
    exact Nat.lt_mul_of_div_lt (Nat.lt_succ_self _) stepPositive
  rcases low_ofMantissa positive exponent with ⟨low_eq, power, _⟩ | ⟨low_eq, _⟩
  · have small := fineBelow power
    have low_mul : interval.low * unit + unit = interval.value * unit := by
      rw [value_eq, ← low_eq, Nat.add_mul, Nat.one_mul]
    refine .inr (RoundingInterval.holds_of_lt ?_ ?_) <;> omega
  · have low_mul : interval.low * unit + 2 * unit = interval.value * unit := by
      rw [value_eq, ← low_eq, Nat.add_mul]
    by_cases near : interval.value * unit - interval.value * unit / step * step < 2 * unit
    · refine .inl (RoundingInterval.holds_of_lt ?_ ?_) <;> omega
    · refine .inr (RoundingInterval.holds_of_lt ?_ ?_) <;> omega

/-- The grid of 17 digits is finer than the doubles. -/
theorem AreScales.fine
    (canonical : IsCanonical mantissa exponent)
    (scales : AreScales exponent place unit step)
    (leads : (10 : ℚ) ^ (place + 16) ≤ mantissa * 2 ^ exponent) :
    step < 4 * unit ∧ (mantissa = 2 ^ 52 → step < 2 * unit) := by
  have quarter : (0 : ℚ) < 2 ^ (exponent - 2) := by positivity
  have unitPositive : (0 : ℚ) < unit := by exact_mod_cast scales.unit_pos
  have place_eq : (10 : ℚ) ^ (place + 16) = 10 ^ 16 * 10 ^ place := by
    rw [zpow_add₀ (by norm_num), mul_comm]
    norm_num
  rw [two_zpow_eq_quarters, place_eq] at leads
  -- Sixteen places further down, a power of ten is below so many quarters.
  have finer (bound quarters : Nat) (short : mantissa ≤ bound)
      (enough : bound * 4 < 10 ^ 16 * quarters) : step < quarters * unit := by
    have short : (mantissa : ℚ) ≤ bound := by exact_mod_cast short
    have enough : (bound * 4 : ℚ) < 10 ^ 16 * quarters := by exact_mod_cast enough
    have small : (10 : ℚ) ^ place < quarters * 2 ^ (exponent - 2) := by
      nlinarith
    have scaled : (step * 2 ^ (exponent - 2) : ℚ) < quarters * unit * 2 ^ (exponent - 2) := by
      rw [scales.ratio]
      nlinarith
    exact_mod_cast lt_of_mul_lt_mul_right scaled quarter.le
  exact ⟨finer (2 ^ 53) 4 canonical.mantissa_lt.le (by norm_num),
    fun power => finer (2 ^ 52) 2 power.le (by norm_num)⟩

/-- The grid of a place next to a double. -/
abbrev nearestAt? (mantissa : Nat) (exponent place : Int) : Option Nat :=
  nearestOnGrid? (.ofMantissa mantissa exponent)
    (powerOfTen (-place).toNat <<< (exponent - 2).toNat)
    (powerOfTen place.toNat <<< (-(exponent - 2)).toNat)

/-- A search that finds a point on its last grid at the latest finds one. -/
theorem nearestAt?_shortestFrom
    {leading : Int}
    {fuel used : Nat}
    (last : ∃ count, nearestAt? mantissa exponent (leading - (used + fuel)) = some count) :
    let found := shortestFrom mantissa exponent leading (fuel + 1) used
    nearestAt? mantissa exponent found.2 = some found.1 := by
  induction fuel generalizing used with
  | zero =>
      obtain ⟨count, found⟩ := last
      rw [Int.natCast_zero, add_zero] at found
      simp only [shortestFrom, found]
  | succ fuel inductionHypothesis =>
      have shifted :
          leading - ((used + 1 : Nat) + fuel : Int) = leading - (used + (fuel + 1 : Nat)) := by
        push_cast
        ring
      have later := inductionHypothesis (shifted ▸ last)
      rw [shortestFrom]
      dsimp only
      cases found : nearestAt? mantissa exponent (leading - used) with
      | some count => simp only [found]
      | none => simpa only [found] using later

/-- The shortest decimal of a double rounds to it. -/
theorem roundsTo_shortestDigits
    (canonical : IsCanonical mantissa exponent)
    (positive : 0 < mantissa) :
    RoundsTo ((shortestDigits mantissa exponent).1 * 10 ^ (shortestDigits mantissa exponent).2)
      mantissa exponent := by
  have grown : 0 < mantissa <<< exponent.toNat := by
    rw [Nat.shiftLeft_eq]
    positivity
  generalize leading_eq :
    leadingExponent (mantissa <<< exponent.toNat) (1 <<< (-exponent).toNat) = leading
  have leads : (10 : ℚ) ^ leading ≤ mantissa * 2 ^ exponent := by
    have notAbove :
        (10 : ℚ) ^ leading * (1 <<< (-exponent).toNat : Nat) ≤
          (mantissa <<< exponent.toNat : Nat) :=
      leading_eq ▸ zpow_leadingExponent_le grown
    rw [Nat.shiftLeft_eq, Nat.shiftLeft_eq] at notAbove
    push_cast at notAbove
    have unit : (0 : ℚ) < 2 ^ (-exponent).toNat := by positivity
    rw [← zpow_mul_pow_neg two_ne_zero exponent, one_mul, ← mul_assoc] at notAbove
    exact le_of_mul_le_mul_right notAbove unit
  have found :
      nearestAt? mantissa exponent (shortestDigits mantissa exponent).2 =
        some (shortestDigits mantissa exponent).1 := by
    rw [shortestDigits, leading_eq]
    apply nearestAt?_shortestFrom
    have scales := areScales exponent (leading - ((0 : Nat) + (16 : Nat) : Int))
    obtain ⟨fine, fineBelow⟩ := scales.fine canonical (by simpa using leads)
    exact exists_nearestOnGrid?
      (holds_of_fine positive scales.unit_pos scales.step_pos fine fineBelow)
  exact roundsTo_of_holds canonical positive (areScales exponent _) (holds_of_nearestOnGrid? found)

end Grids

end Decimal

end RootFinding
