import RootFinding.Proofs.Double.Order

/-!
# Ranges of values

A value below some power of two is finite, and sums and products of such values are again below a
power of two, with a place or two to spare for carrying and rounding. Only two zeros of the minus
sign add up to such a zero, and a factor that is at least one does not make a product vanish.
-/

namespace RootFinding

namespace Double

open Float.Model
open Float.Model.UnpackedFloat

/-- The value is a zero, or canonical and below `2 ^ bound` without its sign. -/
inductive IsBelow (bound : Int) : UnpackedFloat → Prop where
  | zero (sign : Sign) : IsBelow bound (.zero sign)
  | finite
      (sign : Sign)
      {mantissa : Nat}
      {exponent : Int}
      (positive : 0 < mantissa)
      (canonical : IsCanonical mantissa exponent)
      (below : mantissa.log2 + exponent < bound) :
      IsBelow bound (.finite sign mantissa exponent positive)

namespace IsBelow

variable {bound : Int} {value : UnpackedFloat}

theorem mono
    {larger : Int}
    (below : IsBelow bound value)
    (notBelow : bound ≤ larger) :
    IsBelow larger value := by
  cases below with
  | zero sign => exact .zero sign
  | finite sign positive canonical below =>
      exact .finite sign positive canonical (below.trans_le notBelow)

/-- What lies below a bound is a zero or a canonical finite number. -/
theorem cases (below : IsBelow bound value) :
    (∃ sign, value = .zero sign) ∨
      ∃ sign mantissa exponent positive,
        value = .finite sign mantissa exponent positive ∧ IsCanonical mantissa exponent := by
  cases below with
  | zero sign => exact .inl ⟨sign, rfl⟩
  | finite sign positive canonical _ => exact .inr ⟨sign, _, _, positive, rfl, canonical⟩

/-- Up to the largest double a value is read again as it was packed. -/
theorem repacked_eq
    (below : IsBelow bound value)
    (inside : bound ≤ 1024) :
    repacked value = value := by
  cases below with
  | zero sign => exact repacked_zero sign
  | finite sign positive canonical below =>
      apply repacked_of_isCanonical sign positive canonical
      rcases canonical.full with full | least <;> omega

theorem isFinite (below : IsBelow bound value) : value.isFinite = true := by
  cases below <;> rfl

theorem neg (below : IsBelow bound value) : IsBelow bound value.neg := by
  cases below with
  | zero sign => exact .zero (-sign)
  | finite sign positive canonical below => exact .finite (-sign) positive canonical below

end IsBelow

section Rounding

variable {mantissa : Nat} {exponent bound : Int}

/-- Rounding takes one place at most, and loses everything only below the least exponent. -/
theorem roundWithAccuracy_range
    (sign : Sign)
    (accuracy : Accuracy)
    (wide : exponent ≤ max (mantissa.log2 + 1 + exponent - 53) (-1074))
    (below : mantissa.log2 + exponent < bound)
    (enough : -1021 ≤ bound) :
    (∃ rounded later positive,
        roundWithAccuracy .binary64 sign mantissa exponent accuracy =
            .finite sign rounded later positive ∧
          IsBelow (bound + 1) (.finite sign rounded later positive)) ∨
      (roundWithAccuracy .binary64 sign mantissa exponent accuracy = .zero sign ∧
        mantissa / 2 ^ (-1074 - exponent).toNat = 0) := by
  generalize target_eq : max ((mantissa.log2 : Int) + 1 + exponent - 53) (-1074) = target at wide
  rcases roundWithAccuracy_cases sign accuracy target_eq.symm wide with
    ⟨rounded, later, positive, shape, canonical, order⟩ | ⟨shape, none⟩
  · left
    refine ⟨rounded, later, positive, shape, .finite sign positive canonical ?_⟩
    have short := canonical.short
    rcases order with ⟨higher, rfl, _⟩ | ⟨same, _, _⟩
    · rw [Nat.log2_two_pow]
      omega
    · omega
  · right
    rcases (quotient_bounds target_eq.symm wide).2 with lowest | full
    · rw [lowest] at none
      exact ⟨shape, none⟩
    · omega

/-- A value that is not below the least exponent is not rounded to zero. -/
theorem round_range
    (sign : Sign)
    (nonzero : mantissa ≠ 0)
    (least : -1074 ≤ exponent)
    (below : mantissa.log2 + exponent < bound)
    (enough : -1021 ≤ bound) :
    ∃ rounded later positive,
      UnpackedFloat.round .binary64 sign mantissa exponent =
          .finite sign rounded later positive ∧
        IsBelow (bound + 1) (.finite sign rounded later positive) := by
  obtain ⟨shift, unfolded, bits, notBelow, wide⟩ := exists_round_eq sign nonzero exponent
  have belowStill : (mantissa <<< shift).log2 + (exponent - shift) < bound := by omega
  rw [unfolded]
  rcases roundWithAccuracy_range sign .exact wide belowStill enough with finite | ⟨_, none⟩
  · exact finite
  · -- No bit is dropped at or above the least exponent.
    have kept : (-1074 - (exponent - shift)).toNat = 0 := by omega
    rw [kept, Nat.pow_zero, Nat.div_one, Nat.shiftLeft_eq] at none
    simp [nonzero] at none

/-- The sign of a number other than zero. -/
def signOf (total : Int) : Sign :=
  if total < 0 then .negative else .positive

/-- A sum that does not cancel is rounded with its sign. -/
theorem normalize_of_ne_zero
    {total : Int}
    (nonzero : total ≠ 0)
    (exponent : Int)
    (zeroSign : Sign) :
    UnpackedFloat.normalize .binary64 total exponent zeroSign =
      UnpackedFloat.round .binary64 (signOf total) total.natAbs exponent := by
  rcases Int.lt_or_gt_of_ne nonzero with negative | positive
  · have order : compare total 0 = .lt := Int.compare_eq_lt.mpr negative
    have same : (-total).toNat = total.natAbs := by omega
    simp only [UnpackedFloat.normalize, order, same, signOf, if_pos negative]
  · have order : compare total 0 = .gt := Int.compare_eq_gt.mpr positive
    have same : total.toNat = total.natAbs := by omega
    simp only [UnpackedFloat.normalize, order, same, signOf, if_neg positive.not_gt]

/-- A sum that cancels is the zero of the plus sign, and any other keeps its sign. -/
theorem normalize_range
    {total : Int}
    (nonzero : total ≠ 0)
    (least : -1074 ≤ exponent)
    (below : total.natAbs.log2 + exponent < bound)
    (enough : -1021 ≤ bound) :
    ∃ rounded later positive,
      UnpackedFloat.normalize .binary64 total exponent .positive =
          .finite (signOf total) rounded later positive ∧
        IsBelow (bound + 1) (.finite (signOf total) rounded later positive) := by
  rw [normalize_of_ne_zero nonzero]
  exact round_range (signOf total) (Int.natAbs_ne_zero.mpr nonzero) least below enough

theorem normalize_zero : UnpackedFloat.normalize .binary64 0 exponent .positive = .zero .positive := by
  rfl

end Rounding

section Sums

variable {first second : UnpackedFloat} {bound : Int}

/-- The whole number of units of `2 ^ scale` that a finite value is. -/
def unitsAt (scale : Int) (sign : Sign) (mantissa : Nat) (exponent : Int) : Int :=
  sign.apply (mantissa <<< (exponent - scale).toNat : Nat)

/-- Counting in units of a scale shifts the mantissa up to that scale. -/
theorem natAbs_unitsAt
    (scale : Int)
    (sign : Sign)
    (mantissa : Nat)
    (exponent : Int) :
    (unitsAt scale sign mantissa exponent).natAbs = mantissa <<< (exponent - scale).toNat := by
  cases sign with
  | positive => exact Int.natAbs_natCast _
  | negative => exact (Int.natAbs_neg _).trans (Int.natAbs_natCast _)

/-- A sum is a whole number of units of the smaller scale. -/
theorem add_finite
    (sign other : Sign)
    {mantissa addend : Nat}
    {exponent later : Int}
    (positive : 0 < mantissa)
    (addendPositive : 0 < addend) :
    UnpackedFloat.add .binary64 (.finite sign mantissa exponent positive)
        (.finite other addend later addendPositive) =
      UnpackedFloat.normalize .binary64
        (unitsAt (min exponent later) sign mantissa exponent +
          unitsAt (min exponent later) other addend later)
        (min exponent later) .positive :=
  rfl

/-- The leading bit of a number does not depend on the units in which it is counted. -/
theorem log2_natAbs_unitsAt
    (sign : Sign)
    {scale exponent : Int}
    {mantissa : Nat}
    (positive : 0 < mantissa)
    (notAbove : scale ≤ exponent) :
    (unitsAt scale sign mantissa exponent).natAbs.log2 + scale = mantissa.log2 + exponent := by
  rw [natAbs_unitsAt, log2_shiftLeft (Nat.ne_of_gt positive)]
  omega

/-- A sum carries into one more place at most. -/
theorem log2_natAbs_add
    {one other : Int}
    {count : Nat}
    (oneShort : one.natAbs.log2 < count)
    (otherShort : other.natAbs.log2 < count) :
    (one + other).natAbs.log2 < count + 1 := by
  by_cases cancelled : one + other = 0
  · rw [cancelled]
    simp
  have size : (one + other).natAbs ≠ 0 := Int.natAbs_ne_zero.mpr cancelled
  have bounded {part : Int} (short : part.natAbs.log2 < count) : part.natAbs < 2 ^ count := by
    by_cases zero : part = 0
    · rw [zero]
      exact Nat.two_pow_pos count
    · exact (Nat.log2_lt (Int.natAbs_ne_zero.mpr zero)).mp short
  have oneBounded := bounded oneShort
  have otherBounded := bounded otherShort
  rw [Nat.log2_lt size, pow_succ]
  omega

/-- The sum of two finite values is the zero of the plus sign, or has the sign of the exact sum. -/
theorem add_finite_range
    (sign other : Sign)
    {mantissa addend : Nat}
    {exponent later scale : Int}
    {positive : 0 < mantissa}
    {addendPositive : 0 < addend}
    (below : IsBelow bound (.finite sign mantissa exponent positive))
    (addendBelow : IsBelow bound (.finite other addend later addendPositive))
    (scale_eq : min exponent later = scale)
    (enough : 0 ≤ bound) :
    unitsAt scale sign mantissa exponent + unitsAt scale other addend later = 0 ∧
        UnpackedFloat.add .binary64 (.finite sign mantissa exponent positive)
          (.finite other addend later addendPositive) = .zero .positive ∨
      ∃ rounded last roundedPositive,
        UnpackedFloat.add .binary64 (.finite sign mantissa exponent positive)
            (.finite other addend later addendPositive) =
          .finite
            (signOf (unitsAt scale sign mantissa exponent + unitsAt scale other addend later))
            rounded last roundedPositive ∧
        IsBelow (bound + 2)
          (.finite
            (signOf (unitsAt scale sign mantissa exponent + unitsAt scale other addend later))
            rounded last roundedPositive) := by
  cases below with
  | finite _ _ canonical below =>
  cases addendBelow with
  | finite _ _ addendCanonical addendBelow =>
  have least := canonical.least_le
  have addendLeast := addendCanonical.least_le
  have places := log2_natAbs_unitsAt sign positive (scale_eq ▸ min_le_left exponent later)
  have addendPlaces := log2_natAbs_unitsAt other addendPositive (scale_eq ▸ min_le_right exponent later)
  rw [add_finite, scale_eq]
  generalize unitsAt scale sign mantissa exponent = one at places ⊢
  generalize unitsAt scale other addend later = two at addendPlaces ⊢
  have short : one.natAbs.log2 < (bound - scale).toNat := by omega
  have addendShort : two.natAbs.log2 < (bound - scale).toNat := by omega
  have carried := log2_natAbs_add short addendShort
  by_cases cancelled : one + two = 0
  · left
    rw [cancelled]
    exact ⟨rfl, normalize_zero⟩
  · right
    have sumBelow : (one + two).natAbs.log2 + scale < bound + 1 := by omega
    obtain ⟨rounded, last, roundedPositive, shape, range⟩ :=
      normalize_range cancelled (by omega) sumBelow (by omega)
    exact ⟨rounded, last, roundedPositive, shape, range.mono (by omega)⟩

/-- A sum is below the power of two that is two places higher. -/
theorem isBelow_add
    (below : IsBelow bound first)
    (addendBelow : IsBelow bound second)
    (enough : 0 ≤ bound) :
    IsBelow (bound + 2) (UnpackedFloat.add .binary64 first second) := by
  cases below with
  | zero sign =>
      cases addendBelow with
      | zero other => cases sign <;> cases other <;> exact .zero _
      | finite other positive canonical below =>
          exact (IsBelow.finite other positive canonical below).mono (by omega)
  | finite sign positive canonical below =>
      cases addendBelow with
      | zero other => exact (IsBelow.finite sign positive canonical below).mono (by omega)
      | finite other addendPositive addendCanonical addendBelow =>
          rcases add_finite_range sign other (.finite sign positive canonical below)
              (.finite other addendPositive addendCanonical addendBelow) rfl enough with
            ⟨_, cancelled⟩ | ⟨_, _, _, shape, range⟩
          · rw [cancelled]
            exact .zero .positive
          · rw [shape]
            exact range

/-- Only two zeros of the minus sign add up to one. -/
theorem add_eq_negativeZero
    (below : IsBelow bound first)
    (addendBelow : IsBelow bound second)
    (enough : 0 ≤ bound)
    (sum : UnpackedFloat.add .binary64 first second = .zero .negative) :
    first = .zero .negative ∧ second = .zero .negative := by
  cases below with
  | zero sign =>
      cases addendBelow with
      | zero other => cases sign <;> cases other <;> first | exact ⟨rfl, rfl⟩ | cases sum
      | finite other positive canonical below => cases sum
  | finite sign positive canonical below =>
      cases addendBelow with
      | zero other => cases sum
      | finite other addendPositive addendCanonical addendBelow =>
          rcases add_finite_range sign other (.finite sign positive canonical below)
              (.finite other addendPositive addendCanonical addendBelow) rfl enough with
            ⟨_, cancelled⟩ | ⟨_, _, _, shape, _⟩
          · rw [cancelled] at sum
            cases sum
          · rw [shape] at sum
            cases sum

/-- A zero of either sign or a positive value. -/
inductive IsNotNegative : UnpackedFloat → Prop where
  | zero (sign : Sign) : IsNotNegative (.zero sign)
  | finite
      {mantissa : Nat}
      {exponent : Int}
      (positive : 0 < mantissa) :
      IsNotNegative (.finite .positive mantissa exponent positive)

/-- A positive value stays positive when something is added to it. -/
theorem add_positive
    {mantissa : Nat}
    {exponent : Int}
    {positive : 0 < mantissa}
    (isNotNegative : IsNotNegative first)
    (below : IsBelow bound first)
    (addendBelow : IsBelow bound (.finite .positive mantissa exponent positive))
    (enough : 0 ≤ bound) :
    ∃ rounded later roundedPositive,
      UnpackedFloat.add .binary64 first (.finite .positive mantissa exponent positive) =
        .finite .positive rounded later roundedPositive := by
  cases isNotNegative with
  | zero sign => exact ⟨_, _, positive, rfl⟩
  | finite firstPositive =>
      rename_i one scale
      have units {count : Nat} (nonzero : 0 < count) (place least : Int) :
          0 < unitsAt least .positive count place := by
        simp only [unitsAt, Sign.apply, Nat.shiftLeft_eq]
        positivity
      have sum :
          0 < unitsAt (min scale exponent) .positive one scale +
            unitsAt (min scale exponent) .positive mantissa exponent :=
        Int.add_pos (units firstPositive _ _) (units positive _ _)
      rcases add_finite_range .positive .positive below addendBelow rfl enough with
        ⟨cancelled, _⟩ | ⟨rounded, later, roundedPositive, shape, _⟩
      · omega
      · rw [signOf, if_neg (by omega)] at shape
        exact ⟨rounded, later, roundedPositive, shape⟩

end Sums

section Products

variable {first second : UnpackedFloat} {bound limit : Int}

/-- A product has at most as many bits as its factors together. -/
theorem log2_mul_lt
    {one other : Nat}
    (onePositive : 0 < one)
    (otherPositive : 0 < other) :
    (one * other).log2 < one.log2 + other.log2 + 2 := by
  have size : one * other ≠ 0 := Nat.ne_of_gt (Nat.mul_pos onePositive otherPositive)
  rw [Nat.log2_lt size, show one.log2 + other.log2 + 2 = (one.log2 + 1) + (other.log2 + 1) by omega,
    pow_add]
  exact Nat.mul_lt_mul'' Nat.lt_log2_self Nat.lt_log2_self

/-- A product has at most one bit less than its factors together. -/
theorem le_log2_mul
    {one other : Nat}
    (onePositive : 0 < one)
    (otherPositive : 0 < other) :
    one.log2 + other.log2 ≤ (one * other).log2 := by
  have size : one * other ≠ 0 := Nat.ne_of_gt (Nat.mul_pos onePositive otherPositive)
  rw [Nat.le_log2 size, pow_add]
  exact Nat.mul_le_mul (Nat.log2_self_le (Nat.ne_of_gt onePositive))
    (Nat.log2_self_le (Nat.ne_of_gt otherPositive))

/-- So much room has the product of canonical mantissas before it is rounded. -/
theorem wide_mul
    {mantissa factor : Nat}
    {exponent later : Int}
    (positive : 0 < mantissa)
    (factorPositive : 0 < factor)
    (canonical : IsCanonical mantissa exponent)
    (factorCanonical : IsCanonical factor later) :
    exponent + later ≤ max ((mantissa * factor).log2 + 1 + (exponent + later) - 53) (-1074) := by
  have lower := le_log2_mul positive factorPositive
  rcases canonical.full with full | least <;>
    rcases factorCanonical.full with factorFull | factorLeast <;>
    omega

/-- The product of two finite values is a zero or finite, of the sign that the signs make. -/
theorem mul_finite_range
    (sign other : Sign)
    {mantissa factor : Nat}
    {exponent later : Int}
    {positive : 0 < mantissa}
    {factorPositive : 0 < factor}
    (below : IsBelow bound (.finite sign mantissa exponent positive))
    (factorBelow : IsBelow limit (.finite other factor later factorPositive))
    (enough : 0 ≤ bound + limit) :
    (∃ rounded last roundedPositive,
        UnpackedFloat.mul .binary64 (.finite sign mantissa exponent positive)
            (.finite other factor later factorPositive) =
          .finite (sign * other) rounded last roundedPositive ∧
        IsBelow (bound + limit + 1) (.finite (sign * other) rounded last roundedPositive)) ∨
      (UnpackedFloat.mul .binary64 (.finite sign mantissa exponent positive)
            (.finite other factor later factorPositive) = .zero (sign * other) ∧
        mantissa * factor / 2 ^ (-1074 - (exponent + later)).toNat = 0) := by
  cases below with
  | finite _ _ canonical below =>
  cases factorBelow with
  | finite _ _ factorCanonical factorBelow =>
  have upper := log2_mul_lt positive factorPositive
  have wide := wide_mul positive factorPositive canonical factorCanonical
  exact roundWithAccuracy_range (sign * other) .exact wide (by omega) (by omega)

/-- The widths of two factors add up, with one place more. -/
theorem isBelow_mul
    (below : IsBelow bound first)
    (factorBelow : IsBelow limit second)
    (enough : 0 ≤ bound + limit) :
    IsBelow (bound + limit + 1) (UnpackedFloat.mul .binary64 first second) := by
  cases below with
  | zero sign => cases factorBelow <;> exact .zero _
  | finite sign positive canonical below =>
      cases factorBelow with
      | zero other => exact .zero _
      | finite other factorPositive factorCanonical factorBelow =>
          rcases mul_finite_range sign other (.finite sign positive canonical below)
              (.finite other factorPositive factorCanonical factorBelow) enough with
            ⟨_, _, _, shape, range⟩ | ⟨shape, _⟩
          · rw [shape]
            exact range
          · rw [shape]
            exact .zero _

theorem isNotNegative_mul
    (isNotNegative : IsNotNegative first)
    (factorNotNegative : IsNotNegative second)
    (below : IsBelow bound first)
    (factorBelow : IsBelow limit second)
    (enough : 0 ≤ bound + limit) :
    IsNotNegative (UnpackedFloat.mul .binary64 first second) := by
  cases isNotNegative with
  | zero sign => cases factorNotNegative <;> exact .zero _
  | finite positive =>
      cases factorNotNegative with
      | zero other => exact .zero _
      | finite factorPositive =>
          rcases mul_finite_range .positive .positive below factorBelow enough with
            ⟨_, _, roundedPositive, shape, _⟩ | ⟨shape, _⟩
          · rw [shape]
            exact .finite roundedPositive
          · rw [shape]
            exact .zero _

/-- A factor that is at least one without its sign does not make a product vanish. -/
theorem mul_of_one_le
    (sign other : Sign)
    {mantissa factor : Nat}
    {exponent later : Int}
    {positive : 0 < mantissa}
    {factorPositive : 0 < factor}
    (below : IsBelow bound (.finite sign mantissa exponent positive))
    (factorBelow : IsBelow limit (.finite other factor later factorPositive))
    (enough : 0 ≤ bound + limit)
    (behindPoint : later ≤ 0)
    (one_le : 2 ^ (-later).toNat ≤ factor) :
    ∃ rounded last roundedPositive,
      UnpackedFloat.mul .binary64 (.finite sign mantissa exponent positive)
          (.finite other factor later factorPositive) =
        .finite (sign * other) rounded last roundedPositive ∧
      IsCanonical rounded last := by
  rcases mul_finite_range sign other below factorBelow enough with
    ⟨rounded, last, roundedPositive, shape, range⟩ | ⟨_, none⟩
  · cases range with
    | finite _ _ canonical _ => exact ⟨rounded, last, roundedPositive, shape, canonical⟩
  · exfalso
    cases below with
    | finite _ _ canonical _ =>
        have least := canonical.least_le
        have dropped : 2 ^ (-1074 - (exponent + later)).toNat ≤ 2 ^ (-later).toNat :=
          Nat.pow_le_pow_right (by decide) (by omega)
        have notSmaller : factor ≤ mantissa * factor := Nat.le_mul_of_pos_left factor positive
        have kept := Nat.div_pos (dropped.trans (one_le.trans notSmaller)) (Nat.two_pow_pos _)
        omega

theorem sign_mul_comm (sign other : Sign) : sign * other = other * sign := by
  cases sign <;> cases other <;> rfl

theorem mul_finite_comm
    (sign other : Sign)
    {mantissa factor : Nat}
    {exponent later : Int}
    (positive : 0 < mantissa)
    (factorPositive : 0 < factor) :
    UnpackedFloat.mul .binary64 (.finite sign mantissa exponent positive)
        (.finite other factor later factorPositive) =
      UnpackedFloat.mul .binary64 (.finite other factor later factorPositive)
        (.finite sign mantissa exponent positive) := by
  simp only [UnpackedFloat.mul, sign_mul_comm sign, Nat.mul_comm mantissa, Int.add_comm exponent]

end Products

end Double

end RootFinding
