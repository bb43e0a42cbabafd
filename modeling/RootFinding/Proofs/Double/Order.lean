import RootFinding.Proofs.Double.Packing

/-!
# Comparing doubles

What the solver needs to know of doubles: a zero is less than every positive number, however it
came about, no root plus one is a zero, and ten times a positive tolerance is no stricter than the
tolerance itself.
-/

namespace RootFinding

namespace Double

open Float.Model
open Float.Model.UnpackedFloat

/-- The value that the bits of a double stand for. -/
def value (double : Float) : UnpackedFloat :=
  double.toModel.unpack

/-- Doubles are compared as the values that they unpack to. -/
theorem less_eq_lt (a b : Float) :
    Arithmetic.less a b = (value a).lt (value b) := by
  exact Bool.decide_eq_true

theorem atMost_eq_le (a b : Float) :
    Arithmetic.atMost a b = (value a).le (value b) := by
  exact Bool.decide_eq_true

theorem value_add (a b : Float) :
    value (a + b) = repacked (UnpackedFloat.add .binary64 (value a) (value b)) :=
  rfl

theorem value_sub (a b : Float) :
    value (a - b) = repacked (UnpackedFloat.sub .binary64 (value a) (value b)) :=
  rfl

theorem value_mul (a b : Float) :
    value (a * b) = repacked (UnpackedFloat.mul .binary64 (value a) (value b)) :=
  rfl

theorem value_sqrt (a : Float) :
    value (Scalar.sqrt a) = repacked (UnpackedFloat.sqrt .binary64 (value a)) :=
  rfl

theorem value_magnitude (a : Float) :
    value (Arithmetic.magnitude a) = repacked (value a).abs :=
  rfl

theorem isFinite_eq (a : Float) :
    Arithmetic.isFinite a = (value a).isFinite :=
  rfl

theorem value_zero : value 0.0 = .zero .positive := by
  rfl

theorem value_one : value 1.0 = .finite .positive (2 ^ 52) (-52) (by decide) := by
  rfl

theorem value_ten : value 10.0 = .finite .positive (5 * 2 ^ 50) (-49) (by decide) := by
  rfl

/-- A double above zero is infinite or a finite number with a plus sign. -/
theorem positive_cases
    {double : Float}
    (positive : Arithmetic.less 0.0 double = true) :
    value double = .infinity .positive ∨
      ∃ mantissa exponent nonzero,
        value double = .finite .positive mantissa exponent nonzero := by
  rw [less_eq_lt, value_zero] at positive
  cases shape : value double with
  | infinity sign =>
      rw [shape] at positive
      cases sign with
      | positive => exact .inl rfl
      | negative => cases positive
  | notANumber =>
      rw [shape] at positive
      cases positive
  | zero sign =>
      rw [shape] at positive
      cases positive
  | finite sign mantissa exponent nonzero =>
      rw [shape] at positive
      cases sign with
      | positive => exact .inr ⟨_, _, nonzero, rfl⟩
      | negative => cases positive

/-- Positive values are ordered by their exponents first. -/
theorem lt_finite_iff
    {first second : Nat}
    {exponent later : Int}
    {firstNonzero : 0 < first}
    {secondNonzero : 0 < second} :
    (finite .positive first exponent firstNonzero).lt
        (finite .positive second later secondNonzero) = true ↔
      exponent < later ∨ exponent = later ∧ first < second := by
  simp [UnpackedFloat.lt, UnpackedFloat.compare, Ordering.then_eq_lt, Int.compare_eq_lt,
    Nat.compare_eq_lt]

/-- What lies below a number lies below every number of a later exponent or a larger mantissa. -/
theorem lt_finite_of_lt_finite
    {smaller : UnpackedFloat}
    {mantissa above : Nat}
    {exponent later : Int}
    {nonzero : 0 < mantissa}
    {aboveNonzero : 0 < above}
    (order : exponent < later ∨ later = exponent ∧ mantissa ≤ above)
    (less : smaller.lt (.finite .positive mantissa exponent nonzero) = true) :
    smaller.lt (.finite .positive above later aboveNonzero) = true := by
  cases smaller with
  | infinity sign =>
      cases sign with
      | positive => cases less
      | negative => rfl
  | notANumber => cases less
  | zero sign => rfl
  | finite sign first scale firstNonzero =>
      cases sign with
      | negative => rfl
      | positive =>
          rw [lt_finite_iff] at less ⊢
          omega

/-- What lies below a number lies below infinity. -/
theorem lt_infinity_of_lt_finite
    {smaller : UnpackedFloat}
    {mantissa : Nat}
    {exponent : Int}
    {nonzero : 0 < mantissa}
    (less : smaller.lt (.finite .positive mantissa exponent nonzero) = true) :
    smaller.lt (.infinity .positive) = true := by
  cases smaller with
  | infinity sign =>
      cases sign with
      | positive => cases less
      | negative => rfl
  | notANumber => cases less
  | zero sign => rfl
  | finite sign first scale firstNonzero => rfl

/-- The mantissa of ten has 53 bits, so a product with it is at least 52 bits longer. -/
theorem log2_times_ten
    {mantissa : Nat}
    (nonzero : 0 < mantissa) :
    mantissa.log2 + 52 ≤ (mantissa * (5 * 2 ^ 50)).log2 := by
  have above := Nat.log2_self_le (Nat.ne_of_gt nonzero)
  rw [Nat.le_log2 (by omega), pow_add]
  omega

/-- Ten times a finite positive double is infinite, or finite and not smaller. -/
theorem value_times_ten
    {double : Float}
    {mantissa : Nat}
    {exponent : Int}
    {nonzero : 0 < mantissa}
    (shape : value double = .finite .positive mantissa exponent nonzero) :
    value (double * 10.0) = .infinity .positive ∨
      ∃ above later aboveNonzero,
        value (double * 10.0) = .finite .positive above later aboveNonzero ∧
          (exponent < later ∨ later = exponent ∧ mantissa ≤ above) := by
  obtain ⟨canonical, _⟩ := isCanonical_of_unpack shape
  have product :
      value (double * 10.0) =
        repacked (roundWithAccuracy .binary64 .positive (mantissa * (5 * 2 ^ 50))
          (exponent + -49) .exact) := by
    rw [value_mul, shape, value_ten]
    rfl
  generalize target_eq :
    max (((mantissa * (5 * 2 ^ 50)).log2 : Int) + 1 + (exponent + -49) - 53) (-1074) = target
  have bits := log2_times_ten nonzero
  have wide : exponent + -49 ≤ target := by omega
  have order : exponent ≤ target := by
    have least := canonical.least_le
    rcases canonical.full with full | subnormal <;> omega
  -- At the least exponent nothing is rounded away, because the shift only undoes the scale of ten.
  have notLess :
      target = exponent →
        mantissa ≤ mantissa * (5 * 2 ^ 50) / 2 ^ (target - (exponent + -49)).toNat := by
    intro same
    rw [show (target - (exponent + -49)).toNat = 49 by omega]
    omega
  rw [product]
  rcases roundWithAccuracy_cases .positive .exact target_eq.symm wide with
    ⟨rounded, later, positive, rounding, canonicalLater, rounded_eq⟩ | ⟨_, none⟩
  · rw [rounding]
    by_cases large : 971 < later
    · exact .inl (repacked_of_large _ _ large)
    · right
      refine ⟨rounded, later, positive,
        repacked_of_isCanonical _ _ canonicalLater (Int.not_lt.mp large), ?_⟩
      rcases rounded_eq with ⟨higher, _, _⟩ | ⟨rfl, notBelow, _⟩
      · left
        omega
      · by_cases same : later = exponent
        · exact .inr ⟨same, Nat.le_trans (notLess same) notBelow⟩
        · left
          omega
  · have least := canonical.least_le
    rcases (quotient_bounds target_eq.symm wide).2 with lowest | full
    · have same : target = exponent := by omega
      have positive := notLess same
      omega
    · omega

/-- What is less than a positive tolerance is less than ten times the tolerance. -/
theorem less_times_ten
    {error epsilon : Float}
    (positive : Arithmetic.less 0.0 epsilon = true)
    (small : Arithmetic.less error epsilon = true) :
    Arithmetic.less error (epsilon * 10.0) = true := by
  rw [less_eq_lt] at small ⊢
  rcases positive_cases positive with infinite | ⟨mantissa, exponent, nonzero, finite⟩
  · have product : value (epsilon * 10.0) = .infinity .positive := by
      rw [value_mul, infinite, value_ten]
      rfl
    rw [product, ← infinite]
    exact small
  · rw [finite] at small
    rcases value_times_ten finite with infinite | ⟨above, later, aboveNonzero, shape, order⟩
    · rw [infinite]
      exact lt_infinity_of_lt_finite small
    · rw [shape]
      exact lt_finite_of_lt_finite order small

section Zeros

variable {double : Float} {sign : Sign}

/-- What compares as zero is a zero of some sign. -/
theorem exists_zero_of_atMost
    (below : Arithmetic.atMost double 0.0 = true)
    (above : Arithmetic.atMost 0.0 double = true) :
    ∃ sign, value double = .zero sign := by
  rw [atMost_eq_le, value_zero] at below above
  cases shape : value double with
  | zero sign => exact ⟨sign, rfl⟩
  | notANumber =>
      rw [shape] at below
      cases below
  | infinity sign =>
      rw [shape] at below above
      cases sign with
      | positive => cases below
      | negative => cases above
  | finite sign mantissa exponent nonzero =>
      rw [shape] at below above
      cases sign with
      | positive => cases below
      | negative => cases above

theorem less_of_zero
    {bound : Float}
    (zero : value double = .zero sign)
    (positive : Arithmetic.less 0.0 bound = true) :
    Arithmetic.less double bound = true := by
  rw [less_eq_lt, zero]
  rcases positive_cases positive with infinite | ⟨mantissa, exponent, nonzero, finite⟩
  · rw [infinite]
    rfl
  · rw [finite]
    rfl

theorem not_less_zero_of_zero
    (zero : value double = .zero sign) :
    Arithmetic.less 0.0 double = false := by
  rw [less_eq_lt, zero, value_zero]
  rfl

theorem not_less_one_of_zero
    (zero : value double = .zero sign) :
    Arithmetic.less 1.0 double = false := by
  rw [less_eq_lt, zero, value_one]
  rfl

/-- A finite double differs from itself by zero. -/
theorem value_sub_self (finite : Arithmetic.isFinite double = true) :
    value (double - double) = .zero .positive := by
  rw [isFinite_eq] at finite
  rw [value_sub]
  cases shape : value double with
  | notANumber =>
      rw [shape] at finite
      cases finite
  | infinity sign =>
      rw [shape] at finite
      cases finite
  | zero sign => cases sign <;> rfl
  | finite sign mantissa exponent nonzero =>
      simp only [UnpackedFloat.sub, sub_self]
      exact repacked_zero .positive

theorem value_magnitude_of_zero
    (zero : value double = .zero sign) :
    value (Arithmetic.magnitude double) = .zero .positive := by
  rw [value_magnitude, zero, UnpackedFloat.abs, repacked_zero]

theorem normalize_of_pos
    {mantissa : Nat}
    (positive : 0 < mantissa)
    (exponent : Int)
    (zeroSign : Sign) :
    UnpackedFloat.normalize .binary64 mantissa exponent zeroSign =
      UnpackedFloat.round .binary64 .positive mantissa exponent := by
  have above : compare (mantissa : Int) 0 = .gt := Int.compare_eq_gt.mpr (by omega)
  simp [UnpackedFloat.normalize, above]

/-- One plus a positive value is rounded to a value of no less places. -/
theorem one_add_finite
    {mantissa : Nat}
    {exponent : Int}
    (nonzero : 0 < mantissa) :
    ∃ rounded later positive,
      UnpackedFloat.add .binary64 (value 1.0) (.finite .positive mantissa exponent nonzero) =
          .finite .positive rounded later positive ∧
        IsCanonical rounded later ∧
        0 ≤ rounded.log2 + later := by
  generalize scaleEq : min (-52) exponent = scale
  generalize oneShift : (-52 - scale).toNat = onePlaces
  generalize otherShift : (exponent - scale).toNat = places
  have sum :
      UnpackedFloat.add .binary64 (value 1.0) (.finite .positive mantissa exponent nonzero) =
        UnpackedFloat.normalize .binary64 ((2 ^ 52) <<< onePlaces + mantissa <<< places : Nat) scale
          .positive := by
    rw [value_one]
    simp only [UnpackedFloat.add, decreaseExponent, scaleEq, oneShift, otherShift, Sign.apply,
      Int.natCast_add]
  have one_le : (2 ^ 52) <<< onePlaces ≤ (2 ^ 52) <<< onePlaces + mantissa <<< places :=
    Nat.le_add_right _ _
  generalize (2 ^ 52) <<< onePlaces + mantissa <<< places = total at sum one_le
  have bits : 2 ^ (52 + onePlaces) ≤ total := by
    rwa [pow_add, ← Nat.shiftLeft_eq]
  have positive : 0 < total := Nat.lt_of_lt_of_le (Nat.two_pow_pos _) bits
  have long := (Nat.le_log2 (Nat.ne_of_gt positive)).mpr bits
  have normal : -1022 < (total.log2 : Int) + scale := by omega
  obtain ⟨rounded, later, roundedPositive, shape, canonical, notLess⟩ :=
    round_of_normal_le .positive (Nat.ne_of_gt positive) normal
  rw [sum, normalize_of_pos positive, shape]
  exact ⟨rounded, later, roundedPositive, rfl, canonical, by omega⟩

/-- One plus a positive value is not rounded to zero. -/
theorem repacked_one_add_ne_zero
    {mantissa : Nat}
    {exponent : Int}
    (nonzero : 0 < mantissa) :
    repacked (UnpackedFloat.add .binary64 (value 1.0)
        (.finite .positive mantissa exponent nonzero)) ≠ .zero sign := by
  obtain ⟨rounded, later, positive, shape, canonical, _⟩ := one_add_finite nonzero
  rw [shape]
  by_cases large : 971 < later
  · rw [repacked_of_large _ _ large]
    intro same
    cases same
  · rw [repacked_of_isCanonical _ _ canonical (Int.not_lt.mp large)]
    intro same
    cases same

/-- A root is undefined, a zero or positive. -/
theorem value_sqrt_cases (double : Float) :
    value (Scalar.sqrt double) = .notANumber ∨
      value (Scalar.sqrt double) = .infinity .positive ∨
      (∃ sign, value (Scalar.sqrt double) = .zero sign) ∨
      ∃ mantissa exponent nonzero,
        value (Scalar.sqrt double) = .finite .positive mantissa exponent nonzero := by
  rw [value_sqrt]
  cases value double with
  | notANumber =>
      exact .inl rfl
  | zero sign =>
      exact .inr (.inr (.inl ⟨sign, repacked_zero sign⟩))
  | infinity sign =>
      cases sign with
      | positive => exact .inr (.inl rfl)
      | negative => exact .inl rfl
  | finite sign mantissa exponent nonzero =>
      cases sign with
      | negative => exact .inl repacked_notANumber
      | positive =>
          rw [UnpackedFloat.sqrt]
          dsimp only
          rw [roundWithAccuracy_eq_ofShifted, ofShifted]
          right
          split
          · exact .inr (.inl ⟨.positive, repacked_zero _⟩)
          · rcases repacked_finite_cases .positive _ with infinite | zero | finite
            · exact .inl infinite
            · exact .inr (.inl ⟨.positive, zero⟩)
            · exact .inr (.inr finite)

/-- Only a positive bound has a root below it. -/
theorem positive_of_sqrt_less
    {double bound : Float}
    (below : Arithmetic.less (Scalar.sqrt double) bound = true) :
    Arithmetic.less 0.0 bound = true := by
  rw [less_eq_lt] at below ⊢
  rw [value_zero]
  generalize value bound = limit at below ⊢
  rcases value_sqrt_cases double with
    undefined | infinite | ⟨zeroSign, zero⟩ | ⟨mantissa, exponent, nonzero, finite⟩
  · rw [undefined] at below
    cases below
  · rw [infinite] at below
    rcases limit with ⟨_ | _⟩ | _ | _ | _ <;> cases below
  · rw [zero] at below
    rcases limit with ⟨_ | _⟩ | _ | _ | ⟨_ | _⟩ <;> exact below
  · rw [finite] at below
    cases limit with
    | notANumber => cases below
    | zero sign => cases below
    | infinity sign =>
        cases sign with
        | positive => rfl
        | negative => cases below
    | finite sign above later aboveNonzero =>
        cases sign with
        | positive => rfl
        | negative => cases below

/-- One plus a root is no zero, whatever the root was taken of. -/
theorem value_one_add_sqrt_ne_zero
    (double : Float)
    (sign : Sign) :
    value (1.0 + Scalar.sqrt double) ≠ .zero sign := by
  rw [value_add]
  rcases value_sqrt_cases double with
    undefined | infinite | ⟨zeroSign, zero⟩ | ⟨mantissa, exponent, nonzero, finite⟩
  · rw [undefined, value_one]
    intro same
    cases same
  · rw [infinite, value_one]
    intro same
    cases same
  · have one : repacked (UnpackedFloat.add .binary64 (value 1.0) (.zero zeroSign)) = value 1.0 := by
      rw [value_one]
      cases zeroSign <;> rfl
    rw [zero, one, value_one]
    intro same
    cases same
  · rw [finite]
    exact repacked_one_add_ne_zero nonzero

end Zeros

end Double

end RootFinding
