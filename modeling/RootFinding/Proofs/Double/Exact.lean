import RootFinding.Proofs.Double.Order

/-!
# Exact values of doubles

A double that is not undefined stands for a real number or an infinity. Comparing two doubles never
rounds: a canonical mantissa fills its 53 bits wherever the exponent leaves a choice, so comparing
exponents first and mantissas then compares the real numbers.
-/

namespace RootFinding

namespace Double

open Float.Model
open Float.Model.UnpackedFloat

/-- What a value stands for; an undefined one stands for nothing and is put above all numbers. -/
noncomputable def exactOf : UnpackedFloat → EReal
  | .notANumber => ⊤
  | .infinity .positive => ⊤
  | .infinity .negative => ⊥
  | .zero _ => 0
  | .finite .positive mantissa exponent _ => ((mantissa * 2 ^ exponent : ℝ) : EReal)
  | .finite .negative mantissa exponent _ => ((-(mantissa * 2 ^ exponent) : ℝ) : EReal)

noncomputable def exact (double : Float) : EReal :=
  exactOf (value double)

/-- Canonical forms are ordered by their exponents first. -/
theorem exact_lt_of_isCanonical
    {first second : Nat}
    {exponent later : Int}
    (firstCanonical : IsCanonical first exponent)
    (secondCanonical : IsCanonical second later)
    (order : exponent < later ∨ exponent = later ∧ first < second) :
    (first * 2 ^ exponent : ℝ) < second * 2 ^ later := by
  rcases order with earlier | ⟨rfl, smaller⟩
  · have least := firstCanonical.least_le
    have below : (first : ℝ) < 2 ^ 53 := by
      exact_mod_cast firstCanonical.mantissa_lt
    have above : (2 ^ 52 : ℝ) ≤ second := by
      exact_mod_cast secondCanonical.le_mantissa (by omega)
    calc (first * 2 ^ exponent : ℝ)
        < 2 ^ 53 * 2 ^ exponent := by gcongr
      _ ≤ 2 ^ 52 * 2 ^ later := power_le_power earlier
      _ ≤ second * 2 ^ later := by gcongr
  · gcongr

/-- Of two negative values the one with the larger magnitude is less. -/
theorem lt_finite_negative
    {first second : Nat}
    {exponent later : Int}
    {firstNonzero : 0 < first}
    {secondNonzero : 0 < second} :
    (finite .negative first exponent firstNonzero).lt
        (finite .negative second later secondNonzero) =
      (finite .positive second later secondNonzero).lt
        (finite .positive first exponent firstNonzero) := by
  simp only [UnpackedFloat.lt, UnpackedFloat.compare, Ordering.swap_then, Int.compare_swap,
    Nat.compare_swap]

/-- A magnitude other than zero is positive. -/
theorem exact_pos
    {mantissa : Nat}
    (nonzero : 0 < mantissa)
    (exponent : Int) :
    (0 : ℝ) < mantissa * 2 ^ exponent := by
  positivity

/-- Doubles compare as what they stand for. -/
theorem exact_lt_of_less
    {a b : Float}
    (less : Arithmetic.less a b = true) :
    exact a < exact b := by
  rw [less_eq_lt] at less
  rw [exact, exact]
  cases firstShape : value a with
  | notANumber =>
      rw [firstShape] at less
      cases value b <;> cases less
  | infinity sign =>
      rw [firstShape] at less
      generalize value b = second at less ⊢
      cases sign with
      | positive => rcases second with ⟨_ | _⟩ | _ | _ | _ <;> cases less
      | negative =>
          rcases second with ⟨_ | _⟩ | _ | _ | ⟨_ | _⟩
          · cases less
          · exact bot_lt_top
          · cases less
          · exact EReal.bot_lt_zero
          · exact EReal.bot_lt_coe _
          · exact EReal.bot_lt_coe _
  | zero sign =>
      rw [firstShape] at less
      generalize value b = second at less ⊢
      rcases second with ⟨_ | _⟩ | _ | _ | ⟨_ | _⟩
      · cases less
      · exact EReal.zero_lt_top
      · cases less
      · cases less
      · cases less
      · exact EReal.coe_pos.mpr (exact_pos ‹_› _)
  | finite sign first exponent firstNonzero =>
      obtain ⟨firstCanonical, _⟩ := isCanonical_of_unpack firstShape
      have firstPositive := exact_pos firstNonzero exponent
      cases secondShape : value b with
      | notANumber =>
          rw [firstShape, secondShape] at less
          cases sign <;> cases less
      | infinity other =>
          rw [firstShape, secondShape] at less
          cases other with
          | positive => cases sign <;> exact EReal.coe_lt_top _
          | negative => cases sign <;> cases less
      | zero other =>
          rw [firstShape, secondShape] at less
          cases sign with
          | positive => cases less
          | negative => exact EReal.coe_neg'.mpr (neg_neg_of_pos firstPositive)
      | finite other second later secondNonzero =>
          obtain ⟨secondCanonical, _⟩ := isCanonical_of_unpack secondShape
          have secondPositive := exact_pos secondNonzero later
          rw [firstShape, secondShape] at less
          cases sign with
          | positive =>
              cases other with
              | positive =>
                  exact EReal.coe_lt_coe_iff.mpr
                    (exact_lt_of_isCanonical firstCanonical secondCanonical
                      (lt_finite_iff.mp less))
              | negative => cases less
          | negative =>
              cases other with
              | positive =>
                  exact EReal.coe_lt_coe_iff.mpr
                    ((neg_neg_of_pos firstPositive).trans secondPositive)
              | negative =>
                  rw [lt_finite_negative] at less
                  exact EReal.coe_lt_coe_iff.mpr
                    (neg_lt_neg
                      (exact_lt_of_isCanonical secondCanonical firstCanonical
                        (lt_finite_iff.mp less)))

/-- Positive values that are not ordered one way are ordered the other way, or equal. -/
theorem exact_le_of_not_lt_finite
    {first second : Nat}
    {exponent later : Int}
    {firstNonzero : 0 < first}
    {secondNonzero : 0 < second}
    (firstCanonical : IsCanonical first exponent)
    (secondCanonical : IsCanonical second later)
    (notLess :
      (finite .positive first exponent firstNonzero).lt
        (finite .positive second later secondNonzero) = false) :
    (second * 2 ^ later : ℝ) ≤ first * 2 ^ exponent := by
  rw [Bool.eq_false_iff, Ne, lt_finite_iff] at notLess
  by_cases same : second = first ∧ later = exponent
  · rw [same.1, same.2]
  · exact (exact_lt_of_isCanonical secondCanonical firstCanonical (by omega)).le

/-- A defined double that another one is not less than is at most the other. -/
theorem exact_le_of_not_less
    {a b : Float}
    (defined : value b ≠ .notANumber)
    (notLess : Arithmetic.less a b = false) :
    exact b ≤ exact a := by
  rw [less_eq_lt] at notLess
  rw [exact, exact]
  cases secondShape : value b with
  | notANumber => exact absurd secondShape defined
  | infinity other =>
      cases other with
      | negative => exact bot_le
      | positive =>
          rw [secondShape] at notLess
          generalize value a = first at notLess
          rcases first with ⟨_ | _⟩ | _ | _ | ⟨_ | _⟩ <;>
            first
            | exact le_top
            | cases notLess
  | zero other =>
      rw [secondShape] at notLess
      cases firstShape : value a with
      | notANumber => exact le_top
      | zero sign => exact le_rfl
      | infinity sign =>
          rw [firstShape] at notLess
          cases sign with
          | positive => exact le_top
          | negative => cases notLess
      | finite sign first exponent firstNonzero =>
          rw [firstShape] at notLess
          cases sign with
          | positive => exact EReal.coe_nonneg.mpr (exact_pos firstNonzero exponent).le
          | negative => cases notLess
  | finite other second later secondNonzero =>
      obtain ⟨secondCanonical, _⟩ := isCanonical_of_unpack secondShape
      have secondPositive := exact_pos secondNonzero later
      rw [secondShape] at notLess
      cases firstShape : value a with
      | notANumber => exact le_top
      | infinity sign =>
          rw [firstShape] at notLess
          cases sign with
          | positive => exact le_top
          | negative => cases other <;> cases notLess
      | zero sign =>
          rw [firstShape] at notLess
          cases other with
          | positive => cases notLess
          | negative => exact EReal.coe_nonpos.mpr (neg_nonpos.mpr secondPositive.le)
      | finite sign first exponent firstNonzero =>
          obtain ⟨firstCanonical, _⟩ := isCanonical_of_unpack firstShape
          have firstPositive := exact_pos firstNonzero exponent
          rw [firstShape] at notLess
          cases sign with
          | positive =>
              cases other with
              | positive =>
                  exact EReal.coe_le_coe_iff.mpr
                    (exact_le_of_not_lt_finite firstCanonical secondCanonical notLess)
              | negative =>
                  exact EReal.coe_le_coe_iff.mpr
                    ((neg_nonpos.mpr secondPositive.le).trans firstPositive.le)
          | negative =>
              cases other with
              | positive => cases notLess
              | negative =>
                  rw [lt_finite_negative] at notLess
                  exact EReal.coe_le_coe_iff.mpr
                    (neg_le_neg
                      (exact_le_of_not_lt_finite secondCanonical firstCanonical notLess))

/-- Against a defined double the comparison is that of the exact values. -/
theorem less_iff_exact_lt
    {a b : Float}
    (defined : value b ≠ .notANumber) :
    Arithmetic.less a b = true ↔ exact a < exact b := by
  constructor
  · exact exact_lt_of_less
  · intro lower
    cases outcome : Arithmetic.less a b with
    | true => rfl
    | false => exact absurd lower (exact_le_of_not_less defined outcome).not_gt

end Double

end RootFinding
