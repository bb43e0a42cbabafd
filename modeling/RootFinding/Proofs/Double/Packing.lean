import Mathlib
import RootFinding.Proofs.Double.Rounding

/-!
# Bit patterns of doubles

What a bit pattern stands for is canonical, and a canonical value that is packed into bits and read
again is the same value, or infinite where its exponent is too large. The sign outlasts packing in
any case.
-/

namespace RootFinding

namespace Double

open Float.Model
open Float.Model.UnpackedFloat

/-- The bits of a value, read again. -/
def repacked (value : UnpackedFloat) : UnpackedFloat :=
  (Float.Model.pack value).unpack

/-- Packing and unpacking are the two halves of repacking. -/
theorem repacked_eq_unpack_pack (value : UnpackedFloat) :
    repacked value = UnpackedFloat.unpack .binary64 (UnpackedFloat.pack .binary64 value) := by
  simp [repacked, Float.Model.unpack, Float.Model.pack]

/-- The implicit bit in front of a mantissa counts as the leading bit. -/
theorem toNat_implicit_append (mantissa : BitVec 52) :
    (1#1 ++ mantissa).toNat = 2 ^ 52 + mantissa.toNat := by
  rw [BitVec.toNat_append, ← Nat.shiftLeft_add_eq_or_of_lt mantissa.isLt]
  rfl

theorem toNat_pos
    {mantissa : BitVec 52}
    (nonzero : mantissa ≠ 0#52) :
    0 < mantissa.toNat := by
  simpa [BitVec.toNat_pos, BitVec.pos_iff_ne_zero] using nonzero

@[simp]
theorem repacked_notANumber : repacked .notANumber = .notANumber := by
  rfl

@[simp]
theorem repacked_infinity (sign : Sign) : repacked (.infinity sign) = .infinity sign := by
  cases sign <;> rfl

@[simp]
theorem repacked_zero (sign : Sign) : repacked (.zero sign) = .zero sign := by
  cases sign <;> rfl

/-- What a bit pattern stands for, where it was put together of three parts. -/
theorem unpack_packComponents
    (sign : Sign)
    (exponent : BitVec 11)
    (mantissa : BitVec 52) :
    UnpackedFloat.unpack .binary64 (packComponents .binary64 sign exponent mantissa) =
      if exponent = -1#11 then
        if mantissa = 0#52 then .infinity sign else .notANumber
      else if exponent = 0#11 then
        if zero : mantissa = 0#52 then .zero sign
        else .finite sign mantissa.toNat (-1074) (toNat_pos zero)
      else .finite sign (2 ^ 52 + mantissa.toNat) (exponent.toNat - 1075) (by omega) := by
  have bias : Format.binary64.exponentBias = 1023 := rfl
  simp only [UnpackedFloat.unpack, unpackMantissa_packComponents, unpackExponent_packComponents,
    unpackSign_packComponents, Sign.ofBitVec_toBitVec, bias]
  split
  · rfl
  · split
    · rename_i subnormal
      subst exponent
      rfl
    · have implicit := toNat_implicit_append mantissa
      simp only [implicit, finite.injEq, true_and]
      omega

/-- Parts whose exponent is not all ones stand for a zero or a finite value of their sign. -/
theorem unpack_packComponents_cases
    (sign : Sign)
    {exponent : BitVec 11}
    (mantissa : BitVec 52)
    (notAllOnes : exponent ≠ -1#11) :
    UnpackedFloat.unpack .binary64 (packComponents .binary64 sign exponent mantissa) = .zero sign ∨
      ∃ read scale positive,
        UnpackedFloat.unpack .binary64 (packComponents .binary64 sign exponent mantissa) =
          .finite sign read scale positive := by
  rw [unpack_packComponents, if_neg notAllOnes]
  split
  · split
    · exact .inl rfl
    · exact .inr ⟨_, _, toNat_pos ‹_›, rfl⟩
  · exact .inr ⟨_, _, by omega, rfl⟩

/-- Finite values that a bit pattern stands for are canonical and not too large. -/
theorem isCanonical_of_unpack
    {value : Float.Model}
    {sign : Sign}
    {mantissa : Nat}
    {exponent : Int}
    {positive : 0 < mantissa}
    (shape : value.unpack = .finite sign mantissa exponent positive) :
    IsCanonical mantissa exponent ∧ exponent ≤ 971 := by
  have bias : Format.binary64.exponentBias = 1023 := rfl
  simp only [Float.Model.unpack, UnpackedFloat.unpack, bias] at shape
  have mantissaBound : (@unpackMantissa .binary64 value.toBits.toBitVec).toNat < 2 ^ 52 :=
    BitVec.isLt _
  have exponentBound : (@unpackExponent .binary64 value.toBits.toBitVec).toNat < 2 ^ 11 :=
    BitVec.isLt _
  split at shape
  · split at shape <;> cases shape
  · rename_i notAllOnes
    split at shape
    · rename_i zeroExponent
      split at shape
      · cases shape
      · cases shape
        have short := (Nat.log2_lt (Nat.ne_of_gt positive)).mpr mantissaBound
        rw [zeroExponent]
        exact ⟨⟨Nat.le_of_lt short, by decide, .inr (by decide)⟩, by decide⟩
    · rename_i nonzeroExponent
      cases shape
      have implicit := toNat_implicit_append (@unpackMantissa .binary64 value.toBits.toBitVec)
      have bits :
          (1#1 ++ @unpackMantissa .binary64 value.toBits.toBitVec).toNat.log2 = 52 := by
        rw [implicit, Nat.log2_eq_iff (by omega)]
        exact ⟨by omega, by omega⟩
      have notZero : (@unpackExponent .binary64 value.toBits.toBitVec).toNat ≠ 0 :=
        fun same => nonzeroExponent (BitVec.eq_of_toNat_eq same)
      have notLargest : (@unpackExponent .binary64 value.toBits.toBitVec).toNat ≠ 2047 :=
        fun same => notAllOnes (BitVec.eq_of_toNat_eq same)
      exact ⟨⟨bits.le, by omega, .inl bits⟩, by omega⟩

/-- The field of a number in range is not the one kept for infinities. -/
theorem exponentField_ne_allOnes
    {exponent : Int}
    (small : exponent ≤ 971) :
    BitVec.ofNat 11 (exponent + 1075).toNat ≠ -1#11 := by
  have field : (BitVec.ofNat 11 (exponent + 1075).toNat).toNat = (exponent + 1075).toNat :=
    Nat.mod_eq_of_lt (by omega)
  intro same
  have value := congrArg BitVec.toNat same
  rw [field, show (-1#11).toNat = 2047 from rfl] at value
  omega

section Finite

variable (sign : Sign) {mantissa : Nat} {exponent : Int} (positive : 0 < mantissa)

/-- A number beyond the largest exponent is packed as an infinity. -/
theorem repacked_of_large (large : 971 < exponent) :
    repacked (.finite sign mantissa exponent positive) = .infinity sign := by
  have bias : Format.binary64.exponentBias = 1023 := rfl
  have tooLarge : 2 ^ 11 ≤ (exponent + (1023 : Nat) + (52 : Nat)).toNat + 1 := by omega
  rw [repacked_eq_unpack_pack, UnpackedFloat.pack]
  simp only [bias, tooLarge, ↓reduceIte]
  rw [packedInfinity, unpack_packComponents]
  rfl

/-- A number with a full mantissa is packed with its biased exponent. -/
theorem repacked_of_full
    (small : exponent ≤ 971)
    (full : mantissa.log2 = 52) :
    repacked (.finite sign mantissa exponent positive) =
      UnpackedFloat.unpack .binary64
        (packComponents .binary64 sign (BitVec.ofNat 11 (exponent + 1075).toNat)
          (BitVec.ofNat 52 mantissa)) := by
  have bias : Format.binary64.exponentBias = 1023 := rfl
  have bits : Format.binary64.mantissaBits = 53 := rfl
  have under : ¬2 ^ 11 ≤ (exponent + (1023 : Nat) + (52 : Nat)).toNat + 1 := by omega
  rw [repacked_eq_unpack_pack, UnpackedFloat.pack]
  simp only [bias, bits, full, under, ↓reduceIte]
  rw [show exponent + (1023 : Nat) + (52 : Nat) = exponent + 1075 by omega]

/-- A subnormal number is packed with an exponent field of zero. -/
theorem repacked_of_not_full
    (small : exponent ≤ 971)
    (notFull : mantissa.log2 ≠ 52) :
    repacked (.finite sign mantissa exponent positive) =
      UnpackedFloat.unpack .binary64
        (packComponents .binary64 sign 0#11 (BitVec.ofNat 52 mantissa)) := by
  have bias : Format.binary64.exponentBias = 1023 := rfl
  have bits : Format.binary64.mantissaBits = 53 := rfl
  have under : ¬2 ^ 11 ≤ (exponent + (1023 : Nat) + (52 : Nat)).toNat + 1 := by omega
  have other : ¬mantissa.log2 + 1 = 53 := by omega
  rw [repacked_eq_unpack_pack, UnpackedFloat.pack]
  simp only [bias, bits, other, under, ↓reduceIte]

/-- A canonical value is read again as it was packed. -/
theorem repacked_of_isCanonical
    (canonical : IsCanonical mantissa exponent)
    (small : exponent ≤ 971) :
    repacked (.finite sign mantissa exponent positive) =
      .finite sign mantissa exponent positive := by
  have least := canonical.least_le
  have nonzero : mantissa ≠ 0 := Nat.ne_of_gt positive
  by_cases full : mantissa.log2 = 52
  · obtain ⟨above, below⟩ := (Nat.log2_eq_iff nonzero).mp full
    have field : (BitVec.ofNat 11 (exponent + 1075).toNat).toNat = (exponent + 1075).toNat :=
      Nat.mod_eq_of_lt (by omega)
    have notZero : BitVec.ofNat 11 (exponent + 1075).toNat ≠ 0#11 := by
      intro same
      have value := congrArg BitVec.toNat same
      rw [field, show (0#11).toNat = 0 from rfl] at value
      omega
    have fraction : (BitVec.ofNat 52 mantissa).toNat = mantissa - 2 ^ 52 := by
      rw [BitVec.toNat_ofNat]
      omega
    rw [repacked_of_full sign positive small full, unpack_packComponents,
      if_neg (exponentField_ne_allOnes small), if_neg notZero]
    simp only [field, fraction, finite.injEq, true_and]
    omega
  · have short : mantissa < 2 ^ 52 :=
      (Nat.log2_lt nonzero).mp (Nat.lt_of_le_of_ne canonical.short full)
    have exponent_eq : exponent = -1074 := canonical.full.resolve_left full
    subst exponent
    have fraction : (BitVec.ofNat 52 mantissa).toNat = mantissa :=
      Nat.mod_eq_of_lt short
    have notZero : BitVec.ofNat 52 mantissa ≠ 0#52 := by
      intro same
      have value := congrArg BitVec.toNat same
      rw [fraction] at value
      exact nonzero value
    rw [repacked_of_not_full sign positive small full, unpack_packComponents,
      if_neg (by decide), if_pos rfl, dif_neg notZero]
    simp only [fraction]

/-- The sign of a finite value outlasts packing. -/
theorem repacked_finite_cases :
    repacked (.finite sign mantissa exponent positive) = .infinity sign ∨
      repacked (.finite sign mantissa exponent positive) = .zero sign ∨
      ∃ kept later keptPositive,
        repacked (.finite sign mantissa exponent positive) =
          .finite sign kept later keptPositive := by
  by_cases large : 971 < exponent
  · exact .inl (repacked_of_large sign positive large)
  · have small : exponent ≤ 971 := Int.not_lt.mp large
    right
    by_cases full : mantissa.log2 = 52
    · rw [repacked_of_full sign positive small full]
      exact unpack_packComponents_cases sign _ (exponentField_ne_allOnes small)
    · rw [repacked_of_not_full sign positive small full]
      exact unpack_packComponents_cases sign _ (by decide)

end Finite

end Double

end RootFinding
