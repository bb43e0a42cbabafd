import Mathlib.Data.List.Forall2
import RootFinding.Proofs.Double.Plain
import RootFinding.Proofs.Double.Bits
import RootFinding.Sample

/-!
# What is drawn

A source that keeps to the bounds of its draws yields finite coefficients, each with two to seven
decimals, and pairs every variable with another one. No coefficient is the zero of the minus sign
unless a square is drawn from that very zero. What a draw yields is said of its outcome alone, so
the facts about single draws make up those about a whole system.
-/

namespace RootFinding

/-- A scalar from zero up to, but not including, one. -/
def isFraction (share : Float) : Bool :=
  Arithmetic.atMost 0.0 share && Arithmetic.less share 1.0

/-- The zero that is written with a minus sign. -/
def isNegativeZero (double : Float) : Bool :=
  BinaryValue.ofDouble double = .finite true 0 (-1074)

/-- Every scalar that is drawn is a fraction, and every integer lies within its bounds. -/
structure KeepsBounds (σ : Type) [RandomSource σ Float] : Prop where
  uniform :
    ∀ {source rest : σ} {share : Float},
      RandomSource.uniform source = some (share, rest) → isFraction share = true
  integer :
    ∀ {low high k : Nat} {source rest : σ},
      RandomSource.integer Float low high source = some (k, rest) → low ≤ k ∧ k < high

/-- A source that fails where it breaks the bounds of a draw. -/
structure Confined (σ : Type) where
  source : σ
  deriving DecidableEq

instance {σ : Type} [RandomSource σ Float] : RandomSource (Confined σ) Float where
  uniform confined :=
    (RandomSource.uniform confined.source).bind fun ((share : Float), rest) =>
      if isFraction share then some (share, ⟨rest⟩) else none
  integer low high confined :=
    (RandomSource.integer Float low high confined.source).bind fun (k, rest) =>
      if low ≤ k ∧ k < high then some (k, ⟨rest⟩) else none

/-- A confined source keeps its bounds. -/
theorem keepsBounds_confined (σ : Type) [RandomSource σ Float] : KeepsBounds (Confined σ) where
  uniform := by
    intro source rest share drawn
    obtain ⟨⟨drawnShare, after⟩, _, kept⟩ := Option.bind_eq_some_iff.mp drawn
    dsimp only at kept
    split at kept
    · rename_i fraction
      cases kept
      exact fraction
    · cases kept
  integer := by
    intro low high k source rest drawn
    obtain ⟨⟨drawnInteger, after⟩, _, kept⟩ := Option.bind_eq_some_iff.mp drawn
    dsimp only at kept
    split at kept
    · rename_i inside
      cases kept
      exact inside
    · cases kept

/-- A list with one entry for each of `n` places is a vector. -/
theorem exists_vector_of_forall₂
    {α : Type}
    {n : Nat}
    {related : Fin n → α → Prop}
    {items : List α}
    (each : List.Forall₂ related (List.finRange n) items) :
    ∃ entries : Vector α n, entries.toList = items ∧ ∀ i, related i (entries.get i) := by
  have length_eq : items.length = n := by
    rw [← each.length_eq, List.length_finRange]
  refine ⟨⟨items.toArray, by simpa using length_eq⟩, by simp, fun i => ?_⟩
  have inside : i.val < items.length := by omega
  have entry := (List.forall₂_iff_get.mp each).2 i.val (by simp) inside
  simpa [Vector.get_eq_getElem] using entry

namespace Draw

section Yields

variable {σ α β : Type} {holds : α → Prop}

/-- Whatever a draw comes to has the property, from every state of the source. -/
def Yields (draw : Draw σ α) (holds : α → Prop) : Prop :=
  ∀ (source rest : σ) (value : α), draw source = some (value, rest) → holds value

theorem yields_pure
    {value : α}
    (fact : holds value) :
    Yields (pure value : Draw σ α) holds := by
  intro source rest result drawn
  cases drawn
  exact fact

/-- What fails yields anything. -/
theorem yields_failure : Yields (failure : Draw σ α) holds := by
  intro source rest result drawn
  cases drawn

/-- What is drawn next may rest on what was drawn before. -/
theorem Yields.bind
    {first : Draw σ α}
    {next : α → Draw σ β}
    {related : β → Prop}
    (yields : Yields first holds)
    (later : ∀ value, holds value → Yields (next value) related) :
    Yields (first >>= next) related := by
  intro source rest result drawn
  obtain ⟨⟨value, middle⟩, start, following⟩ := Option.bind_eq_some_iff.mp drawn
  exact later value (yields _ _ _ start) _ _ _ following

/-- A traversal yields a list if every item yields the entry at its place. -/
theorem yields_mapM
    {items : List α}
    {draw : α → Draw σ β}
    {related : α → β → Prop}
    (each : ∀ item ∈ items, Yields (draw item) (related item)) :
    Yields (items.mapM draw) (List.Forall₂ related items) := by
  induction items with
  | nil =>
      rw [List.mapM_nil]
      exact yields_pure .nil
  | cons item items inductionHypothesis =>
      rw [List.mapM_cons]
      refine (each item List.mem_cons_self).bind fun value first => ?_
      refine (inductionHypothesis fun other member =>
        each other (List.mem_cons_of_mem _ member)).bind fun values others => ?_
      exact yields_pure (.cons first others)

end Yields

section Composites

variable {σ K : Type} [RandomSource σ K]

/-- The entries of a vector have the property of a single scalar. -/
theorem yields_uniformVector
    {holds : K → Prop}
    (each : Yields (uniform : Draw σ K) holds)
    (n : Nat) :
    Yields (uniformVector n : Draw σ (Vector K n)) fun shares =>
      ∀ share ∈ shares.toList, holds share := by
  induction n with
  | zero =>
      exact yields_pure (by simp)
  | succ n inductionHypothesis =>
      refine inductionHypothesis.bind fun shares earlier => ?_
      refine each.bind fun share last => ?_
      apply yields_pure
      intro other member
      rw [Vector.toList_push, List.mem_append, List.mem_singleton] at member
      rcases member with inside | rfl
      · exact earlier other inside
      · exact last

/-- However often an index is drawn, the one that comes out is another one. -/
theorem yields_otherIndex
    {n : Nat}
    (i : Fin n)
    (draws : Nat) :
    Yields (otherIndex K i draws : Draw σ (Fin n)) fun j => j ≠ i := by
  induction draws with
  | zero => exact yields_failure
  | succ draws inductionHypothesis =>
      have anyIndex : Yields (integer K 0 n : Draw σ Nat) fun _ => True := fun _ _ _ _ => trivial
      refine anyIndex.bind fun j _ => ?_
      split
      · split
        · exact inductionHypothesis
        · rename_i different
          exact yields_pure fun same => different (congrArg Fin.val same)
      · exact yields_failure

/-- A coefficient is written with as many decimals as were drawn. -/
theorem yields_written
    [Arithmetic K]
    {holds : Nat → Prop}
    (range : Yields (integer K 2 8 : Draw σ Nat) holds)
    (coefficient : K) :
    Yields (written coefficient : Draw σ (WrittenCoefficient K)) fun result =>
      result.value = coefficient ∧ holds result.decimals :=
  range.bind fun _ inRange => yields_pure ⟨rfl, inRange⟩

/-- The first coefficient comes from a scalar and a sign. -/
theorem yields_linearCoefficient
    [Arithmetic K]
    {fraction : K → Prop}
    {holds : Nat → Prop}
    (scalar : Yields (uniform : Draw σ K) fraction)
    (range : Yields (integer K 2 8 : Draw σ Nat) holds) :
    Yields (linearCoefficient : Draw σ (WrittenCoefficient K)) fun linear =>
      (∃ size sign : K,
          fraction size ∧ (sign = 1.0 ∨ sign = -1.0) ∧
            linear.value = (size * 3.0 + 0.5) * sign) ∧
        holds linear.decimals := by
  have anySign : Yields (integer K 0 2 : Draw σ Nat) fun _ => True := fun _ _ _ _ => trivial
  refine scalar.bind fun size sizeFraction => ?_
  refine anySign.bind fun sign _ => ?_
  intro source rest linear drawn
  obtain ⟨value_eq, inRange⟩ := yields_written range _ source rest linear drawn
  refine ⟨⟨size, _, sizeFraction, ?_, value_eq⟩, inRange⟩
  split
  · exact .inl rfl
  · exact .inr rfl

end Composites

section Bounds

variable {σ : Type} [RandomSource σ Float]

theorem yields_uniform (bounds : KeepsBounds σ) :
    Yields (uniform : Draw σ Float) fun share => isFraction share = true :=
  fun _ _ _ drawn => bounds.uniform drawn

theorem yields_integer
    (bounds : KeepsBounds σ)
    (low high : Nat) :
    Yields (integer Float low high : Draw σ Nat) fun k => low ≤ k ∧ k < high :=
  fun _ _ _ drawn => bounds.integer drawn

end Bounds

end Draw

open Double
open Float.Model
open Float.Model.UnpackedFloat

section Literals

theorem value_half : value 0.5 = .finite .positive (2 ^ 52) (-53) (by decide) := rfl

theorem value_minusOne : value (-1.0) = .finite .negative (2 ^ 52) (-52) (by decide) := rfl

theorem value_onePointFive : value 1.5 = .finite .positive (3 * 2 ^ 51) (-52) (by decide) := rfl

theorem value_two : value 2.0 = .finite .positive (2 ^ 52) (-51) (by decide) := rfl

theorem value_three : value 3.0 = .finite .positive (3 * 2 ^ 51) (-51) (by decide) := rfl

theorem value_four : value 4.0 = .finite .positive (2 ^ 52) (-50) (by decide) := rfl

theorem value_fifth :
    value 0.2 = .finite .positive 7205759403792794 (-55) (by decide) := rfl

theorem value_twoFifths :
    value 0.4 = .finite .positive 7205759403792794 (-54) (by decide) := rfl

theorem value_threeQuarters : value 0.75 = .finite .positive (3 * 2 ^ 51) (-53) (by decide) := rfl

end Literals

section Coefficients

variable {share sign : Float}

/-- A share is small and not negative. -/
theorem isBelow_of_isFraction
    (fraction : isFraction share = true) :
    IsBelow 0 (value share) ∧ IsNotNegative (value share) := by
  rw [isFraction, Bool.and_eq_true] at fraction
  exact isBelow_of_fraction fraction.1 fraction.2

theorem ne_negativeZero
    {double : Float}
    (other : isNegativeZero double = false) :
    value double ≠ .zero .negative := by
  intro zero
  simp only [isNegativeZero, ofDouble_eq_binaryOf, zero] at other
  exact absurd other (by decide)

/-- The size of a linear coefficient is positive, so its sign is the one that is drawn. -/
theorem isPlain_linear
    (fraction : isFraction share = true)
    (unit : sign = 1.0 ∨ sign = -1.0) :
    IsPlain 7 ((share * 3.0 + 0.5) * sign) := by
  obtain ⟨below, notNegative⟩ := isBelow_of_isFraction fraction
  have threeBelow : IsBelow 2 (value 3.0) := isBelow_of_full value_three (by decide) (by decide)
  have halfBelow : IsBelow 3 (value 0.5) := isBelow_of_full value_half (by decide) (by decide)
  have tripled := isBelow_value_mul below threeBelow (by decide) (by decide)
  have tripledNotNegative : IsNotNegative (value (share * 3.0)) :=
    isNotNegative_value_mul notNegative (value_three ▸ .finite _) below threeBelow (by decide) (by decide)
  have sum := isBelow_value_add tripled halfBelow (by decide) (by decide)
  obtain ⟨_, _, _, size⟩ :=
    value_add_positive tripledNotNegative value_half tripled halfBelow (by decide) (by decide)
  rcases unit with rfl | rfl
  · have oneBelow : IsBelow 1 (value 1.0) := isBelow_of_full value_one (by decide) (by decide)
    refine ⟨isBelow_value_mul sum oneBelow (by decide) (by decide), ?_⟩
    obtain ⟨_, _, _, product⟩ := value_mul_of_one_le size value_one sum oneBelow (by decide)
      (by decide) (by decide) (by decide)
    rw [product]
    exact fun zero => by cases zero
  · have oneBelow : IsBelow 1 (value (-1.0)) :=
      isBelow_of_full value_minusOne (by decide) (by decide)
    refine ⟨isBelow_value_mul sum oneBelow (by decide) (by decide), ?_⟩
    obtain ⟨_, _, _, product⟩ := value_mul_of_one_le size value_minusOne sum oneBelow (by decide)
      (by decide) (by decide) (by decide)
    rw [product]
    exact fun zero => by cases zero

/-- The coefficient of a mixed term is small, and no zero of the minus sign. -/
theorem isPlain_cross
    (fraction : isFraction share = true) :
    IsPlain 7 ((share * 2.0 - 1.0) * 1.5) := by
  have twoBelow : IsBelow 2 (value 2.0) := isBelow_of_full value_two (by decide) (by decide)
  have oneBelow : IsBelow 3 (value 1.0) := isBelow_of_full value_one (by decide) (by decide)
  have factorBelow : IsBelow 1 (value 1.5) :=
    isBelow_of_full value_onePointFive (by decide) (by decide)
  have doubled := isBelow_value_mul (isBelow_of_isFraction fraction).1 twoBelow (by decide)
    (by decide)
  have centred := IsPlain.sub doubled oneBelow value_one (by decide) (by decide)
  exact centred.mul factorBelow value_onePointFive (by decide) (by decide) (by decide) (by decide)

theorem isBelow_square
    (fraction : isFraction share = true) :
    IsBelow 7 (value (share * 2.0)) := by
  have twoBelow : IsBelow 2 (value 2.0) := isBelow_of_full value_two (by decide) (by decide)
  have doubled := isBelow_value_mul (isBelow_of_isFraction fraction).1 twoBelow (by decide)
    (by decide)
  exact doubled.mono (by decide)

theorem isBelow_rootEntry
    (fraction : isFraction share = true) :
    IsBelow 6 (value (share * 4.0 - 2.0)) := by
  have fourBelow : IsBelow 3 (value 4.0) := isBelow_of_full value_four (by decide) (by decide)
  have twoBelow : IsBelow 4 (value 2.0) := isBelow_of_full value_two (by decide) (by decide)
  have scaled := isBelow_value_mul (isBelow_of_isFraction fraction).1 fourBelow (by decide)
    (by decide)
  exact isBelow_value_sub scaled twoBelow (by decide) (by decide)

/-- The coordinates of a starting point are finite. -/
theorem isBelow_startingEntry
    (fraction : isFraction share = true) :
    IsBelow 4 (value (share * 1.5 - 0.75)) := by
  have factorBelow : IsBelow 1 (value 1.5) :=
    isBelow_of_full value_onePointFive (by decide) (by decide)
  have otherBelow : IsBelow 2 (value 0.75) :=
    isBelow_of_full value_threeQuarters (by decide) (by decide)
  have scaled := isBelow_value_mul (isBelow_of_isFraction fraction).1 factorBelow (by decide)
    (by decide)
  exact isBelow_value_sub scaled otherBelow (by decide) (by decide)

/-- The constant balances terms of a moderate size, up to a small offset. -/
theorem isPlain_constant
    {a b d own other : Float}
    (linear : IsBelow 7 (value a))
    (cross : IsBelow 7 (value b))
    (square : IsBelow 7 (value d))
    (ownBelow : IsBelow 6 (value own))
    (otherBelow : IsBelow 6 (value other))
    (fraction : isFraction share = true) :
    IsPlain 27 (-(a * own + b * own * other + d * own * own) + (share * 0.4 - 0.2)) := by
  have scaleBelow : IsBelow 0 (value 0.4) :=
    isBelow_of_full value_twoFifths (by decide) (by decide)
  have fifthBelow : IsBelow 1 (value 0.2) := isBelow_of_full value_fifth (by decide) (by decide)
  have scaled := isBelow_value_mul (isBelow_of_isFraction fraction).1 scaleBelow (by decide)
    (by decide)
  have offset := IsPlain.sub scaled fifthBelow value_fifth (by decide) (by decide)
  have first := isBelow_value_mul linear ownBelow (by decide) (by decide)
  have second := isBelow_value_mul (isBelow_value_mul cross ownBelow (by decide) (by decide))
    otherBelow (by decide) (by decide)
  have third := isBelow_value_mul (isBelow_value_mul square ownBelow (by decide) (by decide))
    ownBelow (by decide) (by decide)
  have sum := isBelow_value_add (first.mono (by decide)) second (by decide) (by decide)
  have balance := isBelow_value_add sum (third.mono (by decide)) (by decide) (by decide)
  exact IsPlain.add (isBelow_value_neg balance (by decide)) (offset.mono (by decide)) (by decide)
    (by decide)

end Coefficients

/-- A coefficient that is finite, not the zero of the minus sign, and has two to seven decimals. -/
structure IsWritable (coefficient : WrittenCoefficient Float) : Prop where
  plain : IsPlain 27 coefficient.value
  two_le : 2 ≤ coefficient.decimals
  lt_eight : coefficient.decimals < 8

/-- A coefficient of a moderate size can be written. -/
theorem isWritable_of_written
    {coefficient : Float}
    {result : WrittenCoefficient Float}
    {bound : Int}
    (written : result.value = coefficient ∧ 2 ≤ result.decimals ∧ result.decimals < 8)
    (plain : IsPlain bound coefficient)
    (inside : bound ≤ 27) :
    IsWritable result where
  plain := written.1 ▸ plain.mono inside
  two_le := written.2.1
  lt_eight := written.2.2

/-- The equation for a variable pairs it with another one, and all its coefficients can be written. -/
structure IsDrawnFor {n : Nat} (i : Fin n) (equation : SampleEquation Float n) : Prop where
  own_eq : equation.own = i
  other_ne : equation.other ≠ i
  linear : IsWritable equation.linear
  cross : IsWritable equation.cross
  square : IsWritable equation.square
  constant : IsWritable equation.constant

namespace Draw

variable {σ : Type} [RandomSource σ Float]

/-- The coefficient of the square is the only one that can be the zero of the minus sign. -/
theorem yields_sampleEquation
    (bounds : KeepsBounds σ)
    (draws : Nat)
    {n : Nat}
    {root : Vector Float n}
    (rootBelow : ∀ i, IsBelow 6 (value (root.get i)))
    (i : Fin n) :
    Yields (sampleEquation draws root i : Draw σ (SampleEquation Float n)) fun equation =>
      isNegativeZero equation.square.value = false → IsDrawnFor i equation := by
  have scalar := yields_uniform bounds
  have decimals := yields_integer bounds 2 8
  refine (yields_linearCoefficient scalar decimals).bind fun linear
    ⟨⟨size, sign, sizeFraction, unit, linear_eq⟩, linearDecimals⟩ => ?_
  have linearPlain := isPlain_linear sizeFraction unit
  refine (yields_otherIndex i draws).bind fun j different => ?_
  refine scalar.bind fun share shareFraction => ?_
  have crossPlain := isPlain_cross shareFraction
  refine (yields_written decimals _).bind fun cross crossWritten => ?_
  refine scalar.bind fun bend bendFraction => ?_
  have squareBelow := isBelow_square bendFraction
  refine (yields_written decimals _).bind fun square squareWritten => ?_
  refine scalar.bind fun offset offsetFraction => ?_
  have constantPlain := isPlain_constant (linear_eq ▸ linearPlain.below) crossPlain.below squareBelow
    (rootBelow i) (rootBelow j) offsetFraction
  refine (yields_written decimals _).bind fun constant constantWritten => ?_
  apply yields_pure
  exact fun other => {
    own_eq := rfl
    other_ne := different
    linear := isWritable_of_written ⟨linear_eq, linearDecimals⟩ linearPlain (by decide)
    cross := isWritable_of_written crossWritten crossPlain (by decide)
    square :=
      isWritable_of_written squareWritten
        ⟨squareBelow, ne_negativeZero (squareWritten.1 ▸ other)⟩ (by decide)
    constant := isWritable_of_written constantWritten constantPlain (by decide) }

/-- The hidden root has small coordinates. -/
theorem yields_hiddenRoot
    (bounds : KeepsBounds σ)
    (n : Nat) :
    Yields (hiddenRoot n : Draw σ (Vector Float n)) fun root =>
      ∀ i, IsBelow 6 (value (root.get i)) := by
  refine (yields_uniformVector (yields_uniform bounds) n).bind fun shares fractions => ?_
  apply yields_pure
  intro i
  have entry := fractions (shares.get i) (by simp [Vector.get_eq_getElem])
  simpa [Vector.get_eq_getElem] using isBelow_rootEntry entry

/-- Every equation of a sample system is drawn for the variable at its place. -/
theorem yields_sampleSystem
    (bounds : KeepsBounds σ)
    (draws n : Nat) :
    Yields (sampleSystem draws n : Draw σ (Vector Float n × List (SampleEquation Float n)))
      fun system =>
        List.Forall₂
          (fun i equation => isNegativeZero equation.square.value = false → IsDrawnFor i equation)
          (List.finRange n) system.2 := by
  refine (yields_hiddenRoot bounds n).bind fun root rootBelow => ?_
  refine (yields_mapM fun i _ => yields_sampleEquation bounds draws rootBelow i).bind
    fun equations drawn => ?_
  exact yields_pure drawn

/-- The point to start from is finite. -/
theorem yields_startingPoint
    (bounds : KeepsBounds σ)
    (n : Nat) :
    Yields (startingPoint n : Draw σ (Vector Float n)) fun point =>
      ∀ entry ∈ point.toList, Arithmetic.isFinite entry = true := by
  refine (yields_uniformVector (yields_uniform bounds) n).bind fun shares fractions => ?_
  apply yields_pure
  intro entry member
  rw [Vector.toList_map, List.mem_map] at member
  obtain ⟨share, shareMember, rfl⟩ := member
  rw [isFinite_eq]
  exact (isBelow_startingEntry (fractions share shareMember)).isFinite

end Draw

end RootFinding
