import RootFinding.Decimal.Exact
import RootFinding.Proofs.Double.Order

/-!
# Two ways to take a double apart

A printer cuts the bit pattern of a double into fields by division, and arithmetic reads the same
fields as vectors of bits. Both find the same sign, mantissa and exponent.
-/

namespace RootFinding

namespace Double

open Float.Model
open Float.Model.UnpackedFloat

/-- Whether a sign is the minus sign. -/
def isMinus : Sign → Bool
  | .negative => true
  | .positive => false

section Fields

variable (bits : BitVec 64)

/-- The mantissa is what the bits leave below the leading bit. -/
theorem toNat_unpackMantissa :
    (@unpackMantissa .binary64 bits).toNat = bits.toNat % BinaryValue.leadingBit := by
  simp [unpackMantissa, BinaryValue.leadingBit]

/-- The exponent is the eleven bits above the mantissa. -/
theorem toNat_unpackExponent :
    (@unpackExponent .binary64 bits).toNat = bits.toNat / BinaryValue.leadingBit % 2048 := by
  simp [unpackExponent, BinaryValue.leadingBit, Nat.shiftRight_eq_div_pow]

/-- The sign is the topmost bit. -/
theorem isMinus_unpackSign :
    isMinus (Sign.ofBitVec (@unpackSign .binary64 bits)) = decide (1 <<< 63 ≤ bits.toNat) := by
  have field : (@unpackSign .binary64 bits).toNat = bits.toNat / 2 ^ 63 := by
    have bounded := bits.isLt
    simp [unpackSign, Nat.shiftRight_eq_div_pow]
    omega
  have bounded := bits.isLt
  unfold Sign.ofBitVec
  split
  · rename_i zero
    rw [zero] at field
    simp only [isMinus]
    symm
    simp at field ⊢
    omega
  · rename_i nonzero
    have one : (@unpackSign .binary64 bits).toNat ≠ 0 :=
      fun same => nonzero (BitVec.eq_of_toNat_eq same)
    simp only [isMinus]
    symm
    simp at field ⊢
    omega

end Fields

/-- What a printer makes of a value. -/
def binaryOf : UnpackedFloat → BinaryValue
  | .notANumber => .undefined
  | .infinity sign => .infinite (isMinus sign)
  | .zero sign => .finite (isMinus sign) 0 (-1074)
  | .finite sign mantissa exponent _ => .finite (isMinus sign) mantissa exponent

/-- A printer takes a double apart into the parts of its value. -/
theorem ofDouble_eq_binaryOf (double : Float) :
    BinaryValue.ofDouble double = binaryOf (value double) := by
  have bias : Format.binary64.exponentBias = 1023 := rfl
  have mantissa := toNat_unpackMantissa double.toModel.toBits.toBitVec
  have exponent := toNat_unpackExponent double.toModel.toBits.toBitVec
  have sign := isMinus_unpackSign double.toModel.toBits.toBitVec
  have bits : double.toBits.toNat = double.toModel.toBits.toBitVec.toNat := rfl
  unfold BinaryValue.ofDouble
  dsimp only
  rw [bits, ← mantissa, ← exponent, ← sign, value, Float.Model.unpack, UnpackedFloat.unpack]
  simp only [bias]
  have fields {width : Nat} (field : BitVec width) (n : Nat) (small : n < 2 ^ width) :
      field.toNat = n ↔ field = BitVec.ofNat width n := by
    rw [← BitVec.toNat_inj, BitVec.toNat_ofNat, Nat.mod_eq_of_lt small]
  have noFraction := fields (@unpackMantissa .binary64 double.toModel.toBits.toBitVec) 0 (by decide)
  have allOnes := fields (@unpackExponent .binary64 double.toModel.toBits.toBitVec) 2047 (by decide)
  have allZeros := fields (@unpackExponent .binary64 double.toModel.toBits.toBitVec) 0 (by decide)
  have implicit := toNat_implicit_append (@unpackMantissa .binary64 double.toModel.toBits.toBitVec)
  have ones : BitVec.ofNat 11 2047 = -1#11 := rfl
  simp only [noFraction, allOnes, allZeros, ones]
  split
  · split <;> rfl
  · split
    · rename_i zeroField
      have none := allZeros.mpr zeroField
      split
      · rename_i zero
        simp [binaryOf, zero]
      · simp [binaryOf, none]
    · simp only [binaryOf, implicit, BinaryValue.leadingBit, BinaryValue.finite.injEq, true_and]
      omega

/-- An undefined double has one bit pattern only. -/
theorem toBitVec_of_notANumber
    {double : Float}
    (undefined : value double = .notANumber) :
    double.toModel.toBits.toBitVec = packedNaN .binary64 := by
  rw [value, Float.Model.unpack, UnpackedFloat.unpack] at undefined
  dsimp only at undefined
  split at undefined
  · rename_i allOnes
    split at undefined
    · cases undefined
    · rename_i some
      exact double.toModel.valid.eq_packedNaN allOnes some
  · split at undefined
    · split at undefined <;> cases undefined
    · cases undefined

/-- The parts that a printer finds tell the bit pattern. -/
theorem toBits_eq_of_ofDouble_eq
    {first second : Float}
    (same : BinaryValue.ofDouble first = BinaryValue.ofDouble second)
    (defined : BinaryValue.ofDouble first ≠ .undefined) :
    first.toBits = second.toBits := by
  have inWord := first.toBits.toNat_lt
  have otherInWord := second.toBits.toNat_lt
  unfold BinaryValue.ofDouble at same defined
  dsimp only at same defined
  apply UInt64.toNat_inj.mp
  generalize first.toBits.toNat = bits at *
  generalize second.toBits.toNat = others at *
  have leading : BinaryValue.leadingBit = 2 ^ 52 := rfl
  have top : 1 <<< 63 = 2 ^ 63 := rfl
  rw [leading, top] at same defined
  have joined
      (sameSign : decide (2 ^ 63 ≤ bits) = decide (2 ^ 63 ≤ others))
      (sameField : bits / 2 ^ 52 % 2048 = others / 2 ^ 52 % 2048)
      (sameFraction : bits % 2 ^ 52 = others % 2 ^ 52) :
      bits = others := by
    have sameSign := decide_eq_decide.mp sameSign
    omega
  split_ifs at same defined <;>
    simp only [BinaryValue.infinite.injEq, BinaryValue.finite.injEq] at same
  · exact joined same (by omega) (by omega)
  · exact absurd rfl defined
  all_goals
    obtain ⟨sameSign, sameFraction, sameExponent⟩ := same
    exact joined sameSign (by omega) (by omega)

/-- A double is known by its value. -/
theorem eq_of_value_eq
    {first second : Float}
    (same : value first = value second) :
    first = second := by
  have sameBits : first.toBits = second.toBits := by
    by_cases undefined : value first = .notANumber
    · have pattern := toBitVec_of_notANumber undefined
      have otherPattern := toBitVec_of_notANumber (same ▸ undefined)
      exact UInt64.toBitVec_inj.mp (pattern.trans otherPattern.symm)
    · apply toBits_eq_of_ofDouble_eq
      · rw [ofDouble_eq_binaryOf, ofDouble_eq_binaryOf, same]
      · rw [ofDouble_eq_binaryOf]
        cases shape : value first <;> simp_all [binaryOf]
  obtain ⟨⟨bits, valid⟩⟩ := first
  obtain ⟨⟨others, othersValid⟩⟩ := second
  change bits = others at sameBits
  subst sameBits
  rfl

end Double

end RootFinding
