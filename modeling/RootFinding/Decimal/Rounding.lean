/-!
# Rounding a quotient

The nearest integer to a quotient of natural numbers; the middle between two integers goes to the
even one. Every fixed number of decimals is written through this one function.
-/

namespace RootFinding

namespace Decimal

/-- The integer nearest to a quotient, the middle going to the even neighbour. -/
def roundedQuotient (numerator denominator : Nat) : Nat :=
  let whole := numerator / denominator
  let rest := numerator % denominator
  if 2 * rest < denominator then whole
  else if denominator < 2 * rest then whole + 1
  else whole + whole % 2

/-- The unit of a decimal place. -/
def powerOfTen (place : Nat) : Nat :=
  Nat.pow 10 place

/-- How many decimal digits a number has; zero has one. -/
def digitCount (n : Nat) : Nat :=
  (Nat.toDigits 10 n).length

/-- A quotient is rounded by at most half a unit. -/
theorem roundedQuotient_within_half
    (numerator : Nat)
    {denominator : Nat}
    (positive : 0 < denominator) :
    2 * numerator ≤ (2 * roundedQuotient numerator denominator + 1) * denominator ∧
      2 * roundedQuotient numerator denominator * denominator ≤ 2 * numerator + denominator := by
  have split := Nat.div_add_mod numerator denominator
  have small := Nat.mod_lt numerator positive
  simp only [roundedQuotient]
  generalize numerator / denominator = whole at split ⊢
  generalize numerator % denominator = rest at split small ⊢
  rw [Nat.mul_comm] at split
  have oneMore : (whole + 1) * denominator = whole * denominator + denominator := by
    rw [Nat.add_mul, Nat.one_mul]
  split
  · refine ⟨?_, ?_⟩ <;> simp only [Nat.add_mul, Nat.mul_assoc] <;> omega
  · split
    · refine ⟨?_, ?_⟩ <;> simp only [Nat.add_mul, Nat.mul_add, Nat.mul_assoc] <;> omega
    · rcases Nat.mod_two_eq_zero_or_one whole with even | odd
      · simp only [even, Nat.add_zero]
        refine ⟨?_, ?_⟩ <;> simp only [Nat.add_mul, Nat.mul_assoc] <;> omega
      · simp only [odd]
        refine ⟨?_, ?_⟩ <;> simp only [Nat.add_mul, Nat.mul_add, Nat.mul_assoc] <;> omega

end Decimal

end RootFinding
