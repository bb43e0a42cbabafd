import RootFinding.Json.Reader
import RootFinding.Json.Writer
import RootFinding.Proofs.Decimal.Shortest
import RootFinding.Proofs.Double.Decimal
import RootFinding.Proofs.Double.Plain
import RootFinding.Proofs.Double.Undefined
import RootFinding.Proofs.Grammar.Words
import RootFinding.Proofs.Sample.Digits

/-!
# Numbers read back

Every integer that is short enough and every double is read back from the text in which it is
written. A double is written as a decimal that rounds to it, in one of three layouts, and each
layout is read as the digits and the power of ten that it shows.
-/

namespace RootFinding

namespace JsonValue

open Grammar

/-- What may stand behind a value: nothing, a comma or the end of a line. -/
def EndsValue (after : List Char) : Prop :=
  ∀ c ∈ after.head?, c = ',' ∨ c = '\n'

section Numbers

variable {whole decimals behind after : List Char} {negative : Bool} {exponent : Int}

/-- The digits in front of a point: a single zero, or none in front. -/
structure IsWhole (whole : List Char) : Prop where
  digits : IsDigits whole
  eq_zero : whole.head? = some '0' → whole = ['0']

theorem isWhole_zero : IsWhole ['0'] where
  digits := Text.isDigits_toDigits 0
  eq_zero _ := rfl

/-- Digits without leading zeros are a whole part. -/
theorem isWhole_of_significant
    (digits : IsDigits whole)
    (significant : whole.head? ≠ some '0') :
    IsWhole whole where
  digits := digits
  eq_zero zero := absurd zero significant

theorem isWhole_toDigits (n : Nat) : IsWhole (Nat.toDigits 10 n) where
  digits := Text.isDigits_toDigits n
  eq_zero zero := by
    rcases Nat.eq_zero_or_pos n with rfl | positive
    · rfl
    · exact absurd zero (Text.head?_toDigits positive)

theorem EndsValue.no_digit (ends : EndsValue after) : ∀ c ∈ after.head?, c.isDigit = false := by
  intro c first
  rcases ends c first with rfl | rfl <;> rfl

theorem EndsValue.fraction? (ends : EndsValue after) : fraction? after = none := by
  cases after with
  | nil => rfl
  | cons c rest => rcases ends c rfl with rfl | rfl <;> rfl

theorem EndsValue.power? (ends : EndsValue after) : power? after = none := by
  cases after with
  | nil => rfl
  | cons c rest => rcases ends c rfl with rfl | rfl <;> simp [JsonValue.power?]

theorem no_digit_exponentMark (exponent : Int) (after : List Char) :
    ∀ c ∈ (Decimal.exponentMark exponent ++ after).head?, c.isDigit = false := by
  intro c first
  obtain rfl : 'e' = c := Option.some.inj first
  rfl

theorem fraction?_exponentMark (exponent : Int) (after : List Char) :
    fraction? (Decimal.exponentMark exponent ++ after) = none :=
  rfl

/-- Digits behind a point are read as the fraction. -/
theorem fraction?_point
    (digits : IsDigits decimals)
    (ends : ∀ c ∈ behind.head?, c.isDigit = false) :
    fraction? ('.' :: (decimals ++ behind)) = some (decimals, behind) := by
  obtain ⟨taken, dropped⟩ := takeWhile_dropWhile_of_run digits.plain ends
  simp [fraction?, taken, dropped, digits.nonempty]

/-- An exponent mark is read as the exponent. -/
theorem power?_exponentMark
    (exponent : Int)
    (ends : EndsValue after) :
    power? (Decimal.exponentMark exponent ++ after) = some (exponent, after) := by
  obtain ⟨nonempty, plain⟩ := Decimal.isDigits_paddedDigits 2 exponent.natAbs
  obtain ⟨taken, dropped⟩ := takeWhile_dropWhile_of_run plain ends.no_digit
  have spelled := Decimal.digitsValue_paddedDigits 2 exponent.natAbs
  by_cases below : exponent < 0
  · have restored : -(exponent.natAbs : Int) = exponent := by omega
    simpa [Decimal.exponentMark, below, power?, Numeral.splitSign, taken, dropped, nonempty,
      spelled] using restored
  · have restored : (exponent.natAbs : Int) = exponent := by omega
    simpa [Decimal.exponentMark, below, power?, Numeral.splitSign, taken, dropped, nonempty,
      spelled] using restored

/-- A whole part is read with all its digits. -/
theorem whole_eq_of_isWhole
    (isWhole : IsWhole whole)
    (ends : ∀ c ∈ behind.head?, c.isDigit = false) :
    (if ((whole ++ behind).takeWhile Char.isDigit).head? = some '0' then ['0']
      else (whole ++ behind).takeWhile Char.isDigit) = whole := by
  rw [(takeWhile_dropWhile_of_run isWhole.digits.plain ends).1]
  split
  · rename_i zero
    exact (isWhole.eq_zero zero).symm
  · rfl

/-- A whole part with nothing behind it is read as an integer. -/
theorem readNumber_integer
    (isWhole : IsWhole whole)
    (short : whole.length ≤ integerDigitLimit)
    (ends : EndsValue after) :
    readNumber negative (whole ++ after) =
      .ok (.integer (if negative then -(Text.digitsValue whole : Int) else Text.digitsValue whole),
        after) := by
  have nonempty : whole.isEmpty = false := by simpa using isWhole.digits.nonempty
  unfold readNumber
  simp only [whole_eq_of_isWhole isWhole ends.no_digit, nonempty, List.drop_left, ends.fraction?,
    ends.power?, Option.getD_none, List.isEmpty_nil, Option.isNone_none, Bool.and_self,
    Bool.false_eq_true, ↓reduceIte]
  rw [if_neg (Nat.not_lt.mpr short)]

/-- A number with a point or an exponent is a double. -/
theorem readNumber_double
    {afterDecimals : List Char}
    (isWhole : IsWhole whole)
    (ends : ∀ c ∈ behind.head?, c.isDigit = false)
    (fraction : (fraction? behind).getD ([], behind) = (decimals, afterDecimals))
    (power : (power? afterDecimals).getD (0, afterDecimals) = (exponent, after))
    (double : decimals.isEmpty = false ∨ (power? afterDecimals).isNone = false) :
    readNumber negative (whole ++ behind) =
      .ok (.number (Numeral.finite negative (Text.digitsValue (whole ++ decimals))
        (exponent - decimals.length)).toDouble, after) := by
  have nonempty : whole.isEmpty = false := by simpa using isWhole.digits.nonempty
  have notInteger : (decimals.isEmpty && (power? afterDecimals).isNone) = false := by
    rcases double with some | some <;> simp [some]
  unfold readNumber
  simp only [whole_eq_of_isWhole isWhole ends, nonempty, List.drop_left, fraction, power,
    notInteger, Bool.false_eq_true, ↓reduceIte]

/-- Behind a sign or none, and in front of the end of a value, the text is read as a decimal. -/
structure ReadsAs (text : List Char) (digits : Nat) (power : Int) : Prop where
  starts : ∀ after, ∃ c rest, c.isDigit = true ∧ text ++ after = c :: rest
  reads :
    ∀ negative after,
      EndsValue after →
        readNumber negative (text ++ after) =
          .ok (.number (Numeral.finite negative digits power).toDouble, after)

theorem IsWhole.starts
    (isWhole : IsWhole whole)
    (behind : List Char) :
    ∃ c rest, c.isDigit = true ∧ whole ++ behind = c :: rest := by
  cases whole with
  | nil => exact absurd rfl isWhole.digits.nonempty
  | cons c rest => exact ⟨c, rest ++ behind, isWhole.digits.plain c (by simp), rfl⟩

/-- A number with a point is read with its decimals. -/
theorem readsAs_pointed
    (isWhole : IsWhole whole)
    (digits : IsDigits decimals) :
    ReadsAs (whole ++ '.' :: decimals) (Text.digitsValue (whole ++ decimals))
      (-decimals.length) where
  starts after := by
    rw [List.append_assoc]
    exact isWhole.starts _
  reads negative after ends := by
    rw [List.append_assoc, List.cons_append, ← zero_sub]
    have fraction := fraction?_point digits ends.no_digit
    exact readNumber_double isWhole (by simp) (congrArg (Option.getD · _) fraction)
      (congrArg (Option.getD · _) ends.power?) (.inl (by simpa using digits.nonempty))

/-- A number with an exponent is read with it. -/
theorem readsAs_scaled
    (isWhole : IsWhole whole)
    (exponent : Int) :
    ReadsAs (whole ++ Decimal.exponentMark exponent) (Text.digitsValue whole) exponent where
  starts after := by
    rw [List.append_assoc]
    exact isWhole.starts _
  reads negative after ends := by
    rw [List.append_assoc]
    have fraction := fraction?_exponentMark exponent after
    have power := power?_exponentMark exponent ends
    have reading :=
      @readNumber_double _ _ _ _ negative _ _ isWhole (no_digit_exponentMark exponent after)
        (congrArg (Option.getD · _) fraction) (congrArg (Option.getD · _) power)
        (.inr (by simp [power]))
    simpa using reading

/-- A number with a point and an exponent is read with both. -/
theorem readsAs_pointed_scaled
    (isWhole : IsWhole whole)
    (digits : IsDigits decimals)
    (exponent : Int) :
    ReadsAs (whole ++ '.' :: decimals ++ Decimal.exponentMark exponent)
      (Text.digitsValue (whole ++ decimals)) (exponent - decimals.length) where
  starts after := by
    rw [List.append_assoc, List.append_assoc]
    exact isWhole.starts _
  reads negative after ends := by
    rw [List.append_assoc, List.append_assoc, List.cons_append]
    have fraction := fraction?_point digits (no_digit_exponentMark exponent after)
    have power := power?_exponentMark exponent ends
    exact readNumber_double isWhole (by simp) (congrArg (Option.getD · _) fraction)
      (congrArg (Option.getD · _) power) (.inl (by simpa using digits.nonempty))

end Numbers

section Layouts

variable {count zeros : Nat} {digits : List Char}

/-- The digits of a number up to the last one that is not zero, with so many zeros behind them. -/
structure IsSignificant (count : Nat) (digits : List Char) (zeros : Nat) : Prop where
  plain : IsDigits digits
  significant : digits.head? ≠ some '0'
  spelled : Nat.toDigits 10 count = digits ++ List.replicate zeros '0'
  kept : ((Nat.toDigits 10 count).reverse.dropWhile (· = '0')).reverse = digits

/-- Every number is its significant digits with zeros behind them. -/
theorem exists_isSignificant (positive : 0 < count) :
    ∃ digits zeros, IsSignificant count digits zeros := by
  generalize kept_eq : ((Nat.toDigits 10 count).reverse.dropWhile (· = '0')).reverse = kept
  generalize zeros_eq : (Nat.toDigits 10 count).reverse.takeWhile (· = '0') = zeros
  have allZeros : zeros = List.replicate zeros.length '0' := by
    refine List.eq_replicate_of_mem fun c member => ?_
    rw [← zeros_eq] at member
    simpa using List.mem_takeWhile_imp member
  have spelled : Nat.toDigits 10 count = kept ++ List.replicate zeros.length '0' := by
    have parts :=
      List.takeWhile_append_dropWhile (p := (· = '0')) (l := (Nat.toDigits 10 count).reverse)
    rw [zeros_eq] at parts
    rw [← List.reverse_reverse (Nat.toDigits 10 count), ← parts, List.reverse_append, kept_eq,
      allZeros, List.reverse_replicate, List.length_replicate]
  have nonempty : kept ≠ [] := by
    rintro rfl
    have value := Text.digitsValue_toDigits count
    rw [spelled, Text.digitsValue_append_zeros] at value
    simp [Text.digitsValue] at value
    omega
  exact ⟨kept, zeros.length, {
    plain := {
      nonempty
      plain c member :=
        (Text.isDigits_toDigits count).plain c (spelled ▸ List.mem_append_left _ member) }
    significant := by
      have first := Text.head?_toDigits positive
      rwa [spelled, List.head?_append_of_ne_nil _ nonempty] at first
    spelled
    kept := kept_eq }⟩

theorem IsSignificant.isWhole (isSignificant : IsSignificant count digits zeros) : IsWhole digits :=
  isWhole_of_significant isSignificant.plain isSignificant.significant

/-- The zeros behind the significant digits only move the point. -/
theorem IsSignificant.value_eq
    (isSignificant : IsSignificant count digits zeros)
    {place power : Int}
    (power_eq : power = place + zeros) :
    (Text.digitsValue digits * 10 ^ power : ℚ) = count * 10 ^ place := by
  have value := Text.digitsValue_toDigits count
  rw [isSignificant.spelled, Text.digitsValue_append_zeros] at value
  rw [← value, power_eq, add_comm, zpow_add₀ (by norm_num), zpow_natCast]
  push_cast
  ring

/-- The first digits stand for a whole number and the others, if there are some, for decimals. -/
theorem IsSignificant.isWhole_take
    (isSignificant : IsSignificant count digits zeros)
    {cut : Nat}
    (positive : 0 < cut) :
    IsWhole (digits.take cut) := by
  obtain ⟨nonempty, plain⟩ := isSignificant.plain
  refine isWhole_of_significant ⟨?_, fun c member => plain c (List.mem_of_mem_take member)⟩ ?_
  · simp [nonempty, Nat.ne_of_gt positive]
  · rw [List.head?_take, if_neg (Nat.ne_of_gt positive)]
    exact isSignificant.significant

/-- The significant digits may be cut in two. -/
theorem IsSignificant.isDigits_drop
    (isSignificant : IsSignificant count digits zeros)
    {cut : Nat}
    (inside : cut < digits.length) :
    IsDigits (digits.drop cut) where
  nonempty := by simpa using inside
  plain c member := isSignificant.plain.plain c (List.mem_of_mem_drop member)

/-- A number below one is read with the zeros behind its point. -/
theorem readsAs_belowOne
    (isSignificant : IsSignificant count digits zeros)
    (padding : Nat) :
    ReadsAs ('0' :: '.' :: List.replicate padding '0' ++ digits) (Text.digitsValue digits)
      (-(padding + digits.length : Nat)) := by
  have decimals := Text.isDigits_zeros_append isSignificant.plain padding
  have reading := readsAs_pointed isWhole_zero decimals
  rw [← List.append_assoc, ← List.replicate_one, List.replicate_append_replicate,
    Text.digitsValue_zeros_append, List.length_append, List.length_replicate] at reading
  exact reading

/-- Where the point stands behind all digits, zeros fill the gap and one more follows the point. -/
theorem readsAs_filled
    (isSignificant : IsSignificant count digits zeros)
    (padding : Nat) :
    ReadsAs (digits ++ List.replicate padding '0' ++ '.' :: ['0'])
      (Text.digitsValue digits * 10 ^ (padding + 1)) (-1) := by
  have whole : IsWhole (digits ++ List.replicate padding '0') := by
    refine isWhole_of_significant (Text.isDigits_append_zeros isSignificant.plain padding) ?_
    rw [List.head?_append_of_ne_nil _ isSignificant.plain.nonempty]
    exact isSignificant.significant
  have zeros_eq :
      digits ++ List.replicate padding '0' ++ ['0'] =
        digits ++ List.replicate (padding + 1) '0' := by
    rw [List.replicate_succ', List.append_assoc]
  have reading := readsAs_pointed whole (Text.isDigits_toDigits 0)
  rw [Nat.toDigits_zero, zeros_eq, Text.digitsValue_append_zeros] at reading
  exact reading

/-- The layout of a decimal is read as digits and a power that stand for it. -/
theorem exists_readsAs_shortestLayout
    (positive : 0 < count)
    (place : Int) :
    ∃ digits power,
      ReadsAs (Decimal.shortestLayout count place) digits power ∧
        (digits * 10 ^ power : ℚ) = count * 10 ^ place := by
  obtain ⟨digits, zeros, isSignificant⟩ := exists_isSignificant positive
  have some : 0 < digits.length := List.length_pos_iff.mpr isSignificant.plain.nonempty
  rw [Decimal.shortestLayout]
  dsimp only
  rw [isSignificant.kept, isSignificant.spelled, List.length_reverse, List.length_append,
    List.length_replicate]
  generalize exponent_eq : place + (digits.length + zeros : Nat) - 1 = exponent
  split
  · split
    · refine ⟨_, _, readsAs_belowOne isSignificant _, isSignificant.value_eq ?_⟩
      omega
    · generalize whole_eq : exponent.toNat + 1 = whole
      by_cases filled : digits.length ≤ whole
      -- The point stands behind all digits, with zeros in between, or among them.
      · obtain ⟨padding, rfl⟩ := Nat.exists_eq_add_of_le filled
        have padded : (digits ++ List.replicate padding '0').length = digits.length + padding := by
          simp
        rw [Nat.add_sub_cancel_left, List.take_of_length_le padded.le,
          List.drop_of_length_le padded.le]
        refine ⟨_, _, readsAs_filled isSignificant padding, ?_⟩
        rw [← isSignificant.value_eq (show (padding : Int) = place + zeros by omega), pow_succ]
        push_cast
        rw [zpow_natCast, zpow_neg_one]
        ring
      · have inside : whole < digits.length := by omega
        have decimals := isSignificant.isDigits_drop inside
        rw [Nat.sub_eq_zero_of_le inside.le, List.replicate_zero, List.append_nil,
          if_neg (by simpa using decimals.nonempty)]
        have reading :=
          readsAs_pointed (isSignificant.isWhole_take (show 0 < whole by omega)) decimals
        rw [List.take_append_drop, List.length_drop] at reading
        refine ⟨_, _, reading, isSignificant.value_eq ?_⟩
        omega
  · by_cases single : digits.length = 1
    · rw [List.take_of_length_le single.le, List.drop_of_length_le single.le, List.isEmpty_nil,
        if_pos rfl, List.append_nil]
      refine ⟨_, _, readsAs_scaled isSignificant.isWhole exponent, isSignificant.value_eq ?_⟩
      omega
    · have decimals := isSignificant.isDigits_drop (show 1 < digits.length by omega)
      rw [if_neg (by simpa using decimals.nonempty)]
      have reading := readsAs_pointed_scaled (isSignificant.isWhole_take one_pos) decimals exponent
      rw [List.take_append_drop, List.length_drop] at reading
      refine ⟨_, _, reading, isSignificant.value_eq ?_⟩
      omega

end Layouts

section Scalars

open Double
open Float.Model
open Float.Model.UnpackedFloat

variable {after : List Char}

/-- What starts with a digit, behind a sign or none, is no word and so it is a number. -/
theorem readScalar_of_digit
    {c : Char}
    (digit : c.isDigit = true)
    (rest : List Char) :
    readScalar (c :: rest) = readNumber false (c :: rest) ∧
      readScalar ('-' :: c :: rest) = readNumber true (c :: rest) := by
  have other (d : Char) (letter : d.isDigit = false) : c ≠ d := by
    rintro rfl
    rw [digit] at letter
    cases letter
  have notLetter :
      (c ≠ 'n' ∧ c ≠ 't' ∧ c ≠ 'f') ∧ (c ≠ 'N' ∧ c ≠ 'I' ∧ c ≠ '-') :=
    ⟨⟨other 'n' rfl, other 't' rfl, other 'f' rfl⟩, other 'N' rfl, other 'I' rfl, other '-' rfl⟩
  constructor <;> simp [readScalar, afterWord?, notLetter, Ne.symm]

/-- Behind its sign a number is read with the sign. -/
theorem readScalar_signed
    {text : List Char}
    (starts : ∃ c rest, c.isDigit = true ∧ text ++ after = c :: rest)
    (negative : Bool) :
    readScalar ((Decimal.signed negative text).toList ++ after) =
      readNumber negative (text ++ after) := by
  obtain ⟨c, rest, digit, text_eq⟩ := starts
  obtain ⟨unsigned, behindSign⟩ := readScalar_of_digit digit rest
  rw [Decimal.signed, String.toList_ofList]
  cases negative with
  | false => rw [if_neg Bool.false_ne_true, text_eq, unsigned]
  | true => rw [if_pos rfl, List.cons_append, text_eq, behindSign]

/-- A finite double is written as a decimal that is read as the double. -/
theorem exists_readsAs_shortest
    {double : Float}
    (finite : Arithmetic.isFinite double = true) :
    ∃ negative text digits power,
      Decimal.shortest double = Decimal.signed negative text ∧
        ReadsAs text digits power ∧
        (Numeral.finite negative digits power).toDouble = double := by
  have parts := ofDouble_eq_binaryOf double
  rcases value_eq_of_isFinite finite with
    ⟨sign, shape⟩ | ⟨sign, mantissa, exponent, positive, shape⟩
  · refine ⟨isMinus sign, "0.0".toList, _, _, ?_,
      readsAs_pointed isWhole_zero (Text.isDigits_toDigits 0), eq_of_value_eq ?_⟩
    · rw [Decimal.shortest, parts, shape]
      rfl
    · have zero : value (OfScientific.ofScientific 0 true 1 : Float) = .zero .positive :=
        value_zero_decimal (by decide)
      rw [shape]
      cases sign with
      | positive => exact zero
      | negative =>
          change value (-(OfScientific.ofScientific 0 true 1 : Float)) = _
          rw [value_neg, zero, UnpackedFloat.neg, repacked_zero]
          rfl
  · obtain ⟨canonical, small⟩ := isCanonical_of_unpack shape
    have rounds := Decimal.roundsTo_shortestDigits canonical positive
    generalize decimal_eq : Decimal.shortestDigits mantissa exponent = decimal at rounds
    obtain ⟨count, place⟩ := decimal
    obtain ⟨digits, power, readsAs, number_eq⟩ :=
      exists_readsAs_shortestLayout (Nat.pos_of_ne_zero rounds.digits_ne_zero) place
    refine ⟨isMinus sign, _, digits, power, ?_, readsAs, eq_of_value_eq ?_⟩
    · rw [Decimal.shortest, parts, shape]
      simp only [binaryOf, if_neg (Nat.ne_of_gt positive), decimal_eq]
    · have size := value_ofScientific_of_roundsTo (number_eq ▸ rounds) small
      rw [shape]
      cases sign with
      | positive => exact size
      | negative =>
          change
            value (-(OfScientific.ofScientific digits (decide (power < 0)) power.natAbs : Float)) =
              _
          rw [value_neg, size, UnpackedFloat.neg, repacked_of_isCanonical _ _ canonical small]
          rfl

/-- What a double is that is written in a given way. -/
theorem writtenNumber_cases (double : Float) :
    (writtenNumber double = "NaN" ∧ double = 0.0 / 0.0) ∨
      (writtenNumber double = "Infinity" ∧ double = 1.0 / 0.0) ∨
      (writtenNumber double = "-Infinity" ∧ double = -(1.0 / 0.0)) ∨
      (writtenNumber double = Decimal.shortest double ∧ Arithmetic.isFinite double = true) := by
  have isNaN_eq : double.isNaN = (value double).isNaN := rfl
  have isInf_eq : double.isInf = (value double).isInf := rfl
  have less_eq : double.lt 0.0 = (value double).lt (value 0.0) := Bool.decide_eq_true
  rw [writtenNumber, isNaN_eq, isInf_eq, less_eq, value_zero, isFinite_eq]
  cases shape : value double with
  | notANumber => exact .inl ⟨rfl, eq_of_value_eq shape⟩
  | infinity sign =>
      cases sign with
      | positive => exact .inr (.inl ⟨rfl, eq_of_value_eq shape⟩)
      | negative => exact .inr (.inr (.inl ⟨rfl, eq_of_value_eq shape⟩))
  | zero _ | finite _ _ _ _ => exact .inr (.inr (.inr ⟨rfl, rfl⟩))

/-- Every double is read back, the three that are no numbers among them. -/
theorem readScalar_writtenNumber
    (double : Float)
    (ends : EndsValue after) :
    readScalar ((writtenNumber double).toList ++ after) = .ok (.number double, after) := by
  rcases writtenNumber_cases double with
    ⟨written, rfl⟩ | ⟨written, rfl⟩ | ⟨written, rfl⟩ | ⟨written, finite⟩
  · rw [written]
    rfl
  · rw [written]
    rfl
  · rw [written]
    rfl
  · obtain ⟨negative, text, digits, power, shortest_eq, readsAs, double_eq⟩ :=
      exists_readsAs_shortest finite
    rw [written, shortest_eq, readScalar_signed (readsAs.starts after),
      readsAs.reads negative after ends, double_eq]

/-- An integer is written as its digits behind its sign. -/
theorem toString_integer (integer : Int) :
    toString integer =
      Decimal.signed (decide (integer < 0)) (Nat.toDigits 10 integer.natAbs) := by
  have behindSign (text : List Char) : "-" ++ String.ofList text = String.ofList ('-' :: text) := by
    rw [String.ofList_cons]
    rfl
  rw [Int.toString_eq_repr, Int.repr_eq_if, Decimal.signed]
  by_cases below : integer < 0
  · have size_eq : (-integer).toNat = integer.natAbs := by omega
    rw [if_neg (by omega), if_pos (by simpa using below), size_eq, Nat.repr_eq_ofList_toDigits,
      behindSign]
  · have size_eq : integer.toNat = integer.natAbs := by omega
    rw [if_pos (by omega), if_neg (by simpa using below), size_eq, Nat.repr_eq_ofList_toDigits]

/-- Every integer is read back that has no more digits than are read. -/
theorem readScalar_integer
    {integer : Int}
    (short : (Nat.toDigits 10 integer.natAbs).length ≤ integerDigitLimit)
    (ends : EndsValue after) :
    readScalar ((toString integer).toList ++ after) = .ok (.integer integer, after) := by
  have isWhole := isWhole_toDigits integer.natAbs
  rw [toString_integer, readScalar_signed (isWhole.starts after),
    readNumber_integer isWhole short ends, Text.digitsValue_toDigits]
  by_cases below : integer < 0
  · have restored : -(integer.natAbs : Int) = integer := by omega
    rw [if_pos (by simpa using below), restored]
  · have restored : (integer.natAbs : Int) = integer := by omega
    rw [if_neg (by simpa using below), restored]

end Scalars

end JsonValue

end RootFinding
