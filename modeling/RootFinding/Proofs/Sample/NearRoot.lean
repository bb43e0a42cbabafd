import RootFinding.Proofs.Decimal.Nearest
import RootFinding.Proofs.Sample.Balance
import RootFinding.Proofs.Sample.Validity

/-!
# Near-roots of sample systems

A rational coefficient is written to within half a unit of its last decimal, and read as the
rational number that was written. So at the hidden point, the equations that are read from the texts
of a sample system differ from those that were drawn by little, and are close to zero with them.
-/

namespace RootFinding

open scoped Exact

namespace Exact

/-- A rational number is printed as the quotient of its numerator and its denominator. -/
scoped instance rationalValue : HasExactValue ℚ where
  exactValue value := .quotient (decide (value < 0)) value.num.natAbs value.den

end Exact

section Perturbation

variable {K ι : Type} [Field K] [LinearOrder K] {bound : K}

/-- The size of the product of its variables. -/
def Monomial.size (monomial : Monomial ι) (point : ι → K) : K :=
  (monomial.toList.map fun index => |point index|).prod

/-- Two terms over the same variables, whose coefficients differ by at most a bound. -/
structure Term.IsNear (bound : K) (first second : Term K ι) : Prop where
  monomial_eq : first.monomial = second.monomial
  coefficient_le : |first.coefficient - second.coefficient| ≤ bound

variable [IsStrictOrderedRing K]

/-- Terms with near coefficients have near values, as far as their variables are small. -/
theorem Term.abs_value_sub_le
    {first second : Term K ι}
    (near : IsNear bound first second)
    (point : ι → K) :
    |first.value point - second.value point| ≤ bound * first.monomial.size point := by
  obtain ⟨coefficient, monomial⟩ := first
  obtain ⟨otherCoefficient, otherMonomial⟩ := second
  obtain ⟨rfl, close⟩ := near
  cases monomial with
  | one => simpa [value, Monomial.size, Monomial.toList] using close
  | single index =>
      simp only [value, Monomial.size, Monomial.toList, List.map_cons, List.map_nil, List.prod_cons,
        List.prod_nil, mul_one]
      rw [← sub_mul, abs_mul]
      gcongr
  | product index other =>
      simp only [value, Monomial.size, Monomial.toList, List.map_cons, List.map_nil, List.prod_cons,
        List.prod_nil, mul_one]
      rw [← sub_mul, ← sub_mul, abs_mul, abs_mul, mul_assoc]
      gcongr

/-- Small changes of the coefficients change the value in proportion to the monomials. -/
theorem Expression.abs_value_sub_le
    {first second : Expression K ι}
    (near : List.Forall₂ (Term.IsNear bound) first second)
    (point : ι → K) :
    |first.value point - second.value point| ≤
      bound * (first.map fun term => term.monomial.size point).sum := by
  rw [value_eq_sum, value_eq_sum]
  induction near with
  | nil => simp
  | @cons term other rest others nearTerm _ inductionHypothesis =>
      have here := Term.abs_value_sub_le nearTerm point
      simp only [List.map_cons, List.sum_cons, mul_add, add_sub_add_comm]
      exact (abs_add_le _ _).trans (add_le_add here inductionHypothesis)

end Perturbation

section Rounding

theorem isQuotient_rational (value : ℚ) :
    IsQuotient value value.num.natAbs value.den where
  exactValue_eq := by
    rw [Exact.ofScientific_zero]
    rfl
  exactValue_magnitude := by
    have size : HasExactValue.exactValue |value| =
        .quotient (decide (|value| < 0)) (|value|).num.natAbs (|value|).den := rfl
    rw [Exact.magnitude_eq, size, Rat.num_abs_eq_abs_num, Rat.den_abs_eq_den, Int.natAbs_abs,
      decide_eq_false (abs_nonneg value).not_gt]
  magnitude_not_less := by
    rw [Exact.less_eq_false_iff, Exact.ofScientific_zero]
    exact abs_nonneg value

theorem abs_eq_natAbs_div (value : ℚ) : |value| = value.num.natAbs / value.den := by
  conv_lhs => rw [← Rat.num_div_den value]
  rw [abs_div, Nat.abs_cast, Nat.cast_natAbs, Int.cast_abs]

variable {coefficient : WrittenCoefficient ℚ}

/-- What is written of the size of a number is within half a unit of its last decimal. -/
theorem abs_units_sub_le :
    |(coefficient.units : ℚ) / 10 ^ coefficient.decimals - abs coefficient.value| ≤
      1 / 2 / 10 ^ coefficient.decimals := by
  have units_eq : coefficient.units =
      Decimal.roundedQuotient
        (coefficient.value.num.natAbs * Decimal.powerOfTen coefficient.decimals)
        coefficient.value.den := by
    rw [WrittenCoefficient.units, (isQuotient_rational coefficient.value).exactValue_eq]
  have rounded := Decimal.abs_roundedQuotient_sub_le
    (coefficient.value.num.natAbs * 10 ^ coefficient.decimals) coefficient.value.pos
  have scale : (0 : ℚ) < 10 ^ coefficient.decimals := by positivity
  have split :
      (coefficient.units : ℚ) / 10 ^ coefficient.decimals - abs coefficient.value =
        (coefficient.units - (coefficient.value.num.natAbs * 10 ^ coefficient.decimals : Nat) /
            coefficient.value.den) / 10 ^ coefficient.decimals := by
    rw [abs_eq_natAbs_div]
    push_cast
    field_simp
  rw [split, abs_div, abs_of_pos scale, units_eq]
  gcongr
  exact rounded

/-- A literal is read as the number that it spells, with the sign that stands in front of it. -/
theorem readCoefficient_eq (negative negated : Bool) (units decimals : Nat) :
    (readCoefficient negative negated units decimals : ℚ) =
      if negative != negated then -((units : ℚ) / 10 ^ decimals)
      else (units : ℚ) / 10 ^ decimals := by
  have literal : Rat.ofScientific units true decimals = units / 10 ^ decimals := by
    rw [Rat.ofScientific_def, if_pos rfl, Rat.mkRat_eq_div, Int.cast_natCast, Nat.cast_pow,
      Nat.cast_ofNat]
  rw [← literal]
  cases negative <;> cases negated <;> simp [readCoefficient] <;> rfl

/-- A coefficient is read as a number that is within half a unit of its last decimal. -/
theorem abs_readCoefficient_sub_le
    {negative negated : Bool}
    (minus : (negative != negated) = Arithmetic.less coefficient.value 0.0) :
    |readCoefficient negative negated coefficient.units coefficient.decimals - coefficient.value| ≤
      1 / 2 / 10 ^ coefficient.decimals := by
  have near := @abs_units_sub_le coefficient
  rw [readCoefficient_eq, minus]
  cases less : Arithmetic.less coefficient.value 0.0 with
  | true =>
      rw [Exact.less_iff, Exact.ofScientific_zero] at less
      rw [abs_of_neg less, sub_neg_eq_add] at near
      rwa [if_pos rfl, ← neg_add', abs_neg]
  | false =>
      rw [Exact.less_eq_false_iff, Exact.ofScientific_zero] at less
      rw [abs_of_nonneg less] at near
      rwa [if_neg (by decide)]

/-- With two decimals or more, the number that is read is off by at most five thousandths. -/
theorem abs_readCoefficient_sub_le_of_two_le
    {negative negated : Bool}
    (decimals : 2 ≤ coefficient.decimals)
    (minus : (negative != negated) = Arithmetic.less coefficient.value 0.0) :
    |readCoefficient negative negated coefficient.units coefficient.decimals - coefficient.value| ≤
      1 / 200 := by
  have hundred : (10 : ℚ) ^ 2 ≤ 10 ^ coefficient.decimals :=
    pow_le_pow_right₀ (by norm_num) decimals
  calc
    _ ≤ 1 / 2 / 10 ^ coefficient.decimals := abs_readCoefficient_sub_le minus
    _ ≤ 1 / 2 / 10 ^ 2 := by gcongr
    _ = 1 / 200 := by norm_num

end Rounding

section Equations

variable {n : Nat} {root : Vector ℚ n} {i : Fin n} {equation : SampleEquation ℚ n}

/-- A coefficient of two decimals or more is spelled by its digits. -/
theorem isSpelled_of_two_le
    {coefficient : WrittenCoefficient ℚ}
    (decimals : 2 ≤ coefficient.decimals) :
    coefficient.IsSpelled where
  quotient := ⟨_, _, isQuotient_rational coefficient.value⟩
  decimals_pos := Nat.lt_of_lt_of_le (by decide) decimals

theorem IsBalanced.isSpelled (balanced : IsBalanced root i equation) : equation.IsSpelled where
  linear := isSpelled_of_two_le balanced.linear_decimals
  cross := isSpelled_of_two_le balanced.cross_decimals
  square := isSpelled_of_two_le balanced.square_decimals
  constant := isSpelled_of_two_le balanced.constant_decimals

/-- The terms that are read are those that were drawn, up to the rounding of their coefficients. -/
theorem IsBalanced.near_drawnTerms (balanced : IsBalanced root i equation) :
    List.Forall₂ (Term.IsNear (1 / 200)) equation.readTerms equation.drawnTerms :=
  .cons ⟨rfl, abs_readCoefficient_sub_le_of_two_le balanced.linear_decimals (Bool.false_bne _)⟩
    (.cons ⟨rfl, abs_readCoefficient_sub_le_of_two_le balanced.cross_decimals (Bool.false_bne _)⟩
      (.cons ⟨rfl, abs_readCoefficient_sub_le_of_two_le balanced.square_decimals (Bool.false_bne _)⟩
        (.cons ⟨rfl,
          abs_readCoefficient_sub_le_of_two_le balanced.constant_decimals (Bool.bne_false _)⟩ .nil)))

/-- What was drawn is within a fifth of zero at the hidden point, and what is read is near to it. -/
theorem IsBalanced.abs_valueAt_readTerms_le (balanced : IsBalanced root i equation) :
    |equation.readTerms.valueAt root| ≤
      0.2 + 0.005 * (|root.get i| + |root.get i * root.get equation.other| + root.get i ^ 2 + 1) := by
  have near := Expression.abs_value_sub_le balanced.near_drawnTerms root.get
  have drawn := balanced.balanced
  have sizes :
      (equation.readTerms.map fun term => term.monomial.size root.get).sum =
        |root.get i| + |root.get i * root.get equation.other| + root.get i ^ 2 + 1 := by
    simp only [SampleEquation.readTerms, balanced.own_eq, Monomial.size, Monomial.toList,
      List.map_cons, List.map_nil, List.prod_cons, List.prod_nil, List.sum_cons, List.sum_nil,
      mul_one, abs_mul, abs_mul_abs_self]
    ring
  rw [sizes] at near
  rw [Expression.valueAt] at drawn ⊢
  have split := abs_sub_abs_le_abs_sub (equation.readTerms.value root.get)
    (equation.drawnTerms.value root.get)
  linarith

/-- The monomials are at most two, four, four and one in size. -/
theorem abs_valueAt_lt_of_bounded
    {x y value : ℚ}
    (own : |x| ≤ 2)
    (other : |y| ≤ 2)
    (near : |value| ≤ 0.2 + 0.005 * (|x| + |x * y| + x ^ 2 + 1)) :
    |value| < 0.256 := by
  have product : |x * y| ≤ 2 * 2 := by
    rw [abs_mul]
    gcongr
  have square : x ^ 2 ≤ 2 ^ 2 := sq_le_sq' (abs_le.mp own).1 (abs_le.mp own).2
  linarith

end Equations

section Systems

variable {σ : Type} [RandomSource σ ℚ]

/--
Without rounding, the texts of a sample system that is drawn within bounds are read as one equation
for each variable, in which it is multiplied with another one. The coordinates of the hidden point
are at most two in size, and every equation is close to zero there.
-/
theorem sampleEquations_nearlySolved
    (bounds : Exact.KeepsBounds σ ℚ)
    {draws n : Nat}
    (two_le : 2 ≤ n)
    (le_ten : n ≤ 10)
    {source rest : σ}
    {root : Vector ℚ n}
    {equations : List (SampleEquation ℚ n)}
    (drawn : (Draw.sampleSystem draws n).run source = some ((root, equations), rest)) :
    ∃ (texts : Vector String n) (system : ExpressionSystem ℚ n n),
      sampleEquations ℚ n source draws = .ok (texts.toList, rest) ∧
        ExpressionSystem.ofEquations texts = .ok system ∧
        (∀ k, |root.get k| ≤ 2) ∧
        ∀ i, ∃ j,
          j ≠ i ∧
            (system.get i).map Term.monomial =
              [.single i, .product i j, .product i i, .one] ∧
            |(residuals system root).get i| ≤
              0.2 + 0.005 * (|root.get i| + |root.get i * root.get j| + root.get i ^ 2 + 1) ∧
            |(residuals system root).get i| < 0.256 := by
  obtain ⟨bounded, balanced⟩ := Draw.yields_sampleSystem_balanced bounds draws n _ _ _ drawn
  obtain ⟨entries, rfl, balancedFor⟩ := exists_vector_of_forall₂ balanced
  refine ⟨entries.map SampleEquation.text, entries.map SampleEquation.readTerms, ?_,
    ofEquations_eq_readTerms (fun i => (balancedFor i).isSpelled) le_ten, bounded, fun i => ?_⟩
  · rw [Vector.toList_map]
    exact sampleEquations_of_sampleSystem two_le le_ten drawn
  · have read :
        (entries.map SampleEquation.readTerms).get i = (entries.get i).readTerms := by
      simp [Vector.get_eq_getElem]
    have value :
        (residuals (entries.map SampleEquation.readTerms) root).get i =
          (entries.get i).readTerms.valueAt root := by
      simp [Vector.get_eq_getElem]
    have near := (balancedFor i).abs_valueAt_readTerms_le
    rw [read, value]
    refine ⟨(entries.get i).other, (balancedFor i).other_ne, ?_, near,
      abs_valueAt_lt_of_bounded (bounded i) (bounded _) near⟩
    rw [SampleEquation.readTerms, (balancedFor i).own_eq]
    rfl

end Systems

section Sources

/-- A linear congruential source, which hands out sixteenths. -/
structure CongruentialSource where
  state : Nat
  deriving Repr, DecidableEq

namespace CongruentialSource

def next (source : CongruentialSource) : CongruentialSource where
  state := (5 * source.state + 3) % 16

instance : RandomSource CongruentialSource ℚ where
  uniform source := some ((source.next.state : ℚ) / 16, source.next)
  integer low high source :=
    if low < high then some (low + source.next.state % (high - low), source.next) else none

/-- The congruential source stays within its bounds. -/
theorem keepsBounds : Exact.KeepsBounds CongruentialSource ℚ where
  uniform := by
    intro source rest share drawn
    cases drawn
    have small : source.next.state < 16 := Nat.mod_lt _ (by decide)
    have below : (source.next.state : ℚ) < 16 := by exact_mod_cast small
    constructor
    · positivity
    · rwa [div_lt_one (by norm_num)]
  integer := by
    intro low high k source rest drawn
    obtain ⟨nonempty, same⟩ := Option.ite_none_right_eq_some.mp drawn
    cases same
    have small := Nat.mod_lt source.next.state (Nat.sub_pos_of_lt nonempty)
    omega

end CongruentialSource

/-- Two equations around the point (-1/2, -7/4); the last constant was rounded. -/
def congruentialPair : Vector String 2 :=
  #v["(-2.000000)*x1 + 0.75000*x1*x2 + 1.75000*x1*x1 - 2.29375 = 0",
    "(-0.875000)*x2 + (-1.3125)*x2*x1 + 1.375000*x2*x2 - 4.67 = 0"]

/-- The pair drawn from the congruential source is nearly solved by its root. -/
theorem congruentialPair_nearlySolved :
    ∃ system : ExpressionSystem ℚ 2 2,
      ExpressionSystem.ofEquations congruentialPair = .ok system ∧
        ∀ i, |(residuals system #v[-1 / 2, -7 / 4]).get i| < 0.256 := by
  let source : CongruentialSource := { state := 7 }
  let rest : CongruentialSource := { state := 12 }
  let first : Fin 2 := ⟨0, Nat.two_pos⟩
  let second : Fin 2 := ⟨1, Nat.one_lt_two⟩
  let equations : List (SampleEquation ℚ 2) :=
    [{ own := first, other := second, linear := ⟨-2, 6⟩, cross := ⟨3 / 4, 5⟩,
        square := ⟨7 / 4, 5⟩, constant := ⟨-367 / 160, 5⟩ },
      { own := second, other := first, linear := ⟨-7 / 8, 6⟩, cross := ⟨-21 / 16, 4⟩,
        square := ⟨11 / 8, 6⟩, constant := ⟨-747 / 160, 2⟩ }]
  have drawn :
      (Draw.sampleSystem 2 2).run source = some ((#v[-1 / 2, -7 / 4], equations), rest) := by
    decide +kernel
  have shown : sampleEquations ℚ 2 source 2 = .ok (congruentialPair.toList, rest) := by
    decide +kernel
  obtain ⟨texts, system, written, read, _, near⟩ :=
    sampleEquations_nearlySolved CongruentialSource.keepsBounds (by decide) (by decide) drawn
  have pair : (texts.toList, rest) = (congruentialPair.toList, rest) :=
    Except.ok.inj (written.symm.trans shown)
  rw [Vector.toList_inj.mp (Prod.mk.inj pair).1] at read
  refine ⟨system, read, fun i => ?_⟩
  obtain ⟨_, _, _, _, close⟩ := near i
  exact close

end Sources

end RootFinding
