import RootFinding.Proofs.Exact.Affine
import RootFinding.Proofs.Sample.Drawing

/-!
# The balance of an equation

Without rounding, the constant of an equation takes away what its other terms amount to at the
hidden point, and leaves a small offset there. So the coefficients as they were drawn come close to
zero at a point whose coordinates are at most two.
-/

namespace RootFinding

open scoped Exact

section Bounds

variable {K : Type} [Field K] [LinearOrder K]

namespace Exact

/-- Every scalar that is drawn is a fraction, and every integer lies within its bounds. -/
structure KeepsBounds (σ K : Type) [Field K] [LinearOrder K] [RandomSource σ K] : Prop where
  uniform :
    ∀ {source rest : σ} {share : K},
      RandomSource.uniform source = some (share, rest) → 0 ≤ share ∧ share < 1
  integer :
    ∀ {low high k : Nat} {source rest : σ},
      RandomSource.integer K low high source = some (k, rest) → low ≤ k ∧ k < high

end Exact

variable {n : Nat}

/-- The terms of an equation with the coefficients that were drawn. -/
def SampleEquation.drawnTerms (equation : SampleEquation K n) : Expression K (Fin n) :=
  [{ coefficient := equation.linear.value, monomial := .single equation.own },
    { coefficient := equation.cross.value, monomial := .product equation.own equation.other },
    { coefficient := equation.square.value, monomial := .product equation.own equation.own },
    { coefficient := equation.constant.value, monomial := .one }]

/--
The equation pairs a variable with another one, is close to zero at the hidden point, and is written
with at least two decimals.
-/
structure IsBalanced (root : Vector K n) (i : Fin n) (equation : SampleEquation K n) : Prop where
  own_eq : equation.own = i
  other_ne : equation.other ≠ i
  balanced : |equation.drawnTerms.valueAt root| ≤ 1 / 5
  linear_decimals : 2 ≤ equation.linear.decimals
  cross_decimals : 2 ≤ equation.cross.decimals
  square_decimals : 2 ≤ equation.square.decimals
  constant_decimals : 2 ≤ equation.constant.decimals

end Bounds

namespace Draw

variable {σ K : Type} [Field K] [LinearOrder K] [RandomSource σ K] {n : Nat}

/-- A source within its bounds yields shares of the unit interval. -/
theorem yields_fraction (bounds : Exact.KeepsBounds σ K) :
    Yields (uniform : Draw σ K) fun share => 0 ≤ share ∧ share < 1 :=
  fun _ _ _ drawn => bounds.uniform drawn

variable [IsStrictOrderedRing K]

/-- The coordinates of a hidden root lie between minus two and two. -/
theorem yields_hiddenRoot_bounded
    (bounds : Exact.KeepsBounds σ K)
    (n : Nat) :
    Yields (hiddenRoot n : Draw σ (Vector K n)) fun root => ∀ k, |root.get k| ≤ 2 := by
  refine (yields_uniformVector (yields_fraction bounds) n).bind fun shares fractions => ?_
  apply yields_pure
  intro k
  obtain ⟨nonneg, below⟩ := fractions (shares.get k) (by simp [Vector.get_eq_getElem])
  have entry :
      (shares.map fun share => share * 4.0 - 2.0).get k = shares.get k * 4.0 - 2.0 := by
    simp [Vector.get_eq_getElem]
  rw [entry, abs_le]
  constructor <;> norm_num <;> linarith

/-- The constant leaves the offset that was drawn. -/
theorem yields_sampleEquation_balanced
    (bounds : Exact.KeepsBounds σ K)
    (draws : Nat)
    (root : Vector K n)
    (i : Fin n) :
    Yields (sampleEquation draws root i : Draw σ (SampleEquation K n)) (IsBalanced root i) := by
  have scalar := yields_fraction bounds
  have decimals : Yields (integer K 2 8 : Draw σ Nat) fun k => 2 ≤ k :=
    fun _ _ _ drawn => (bounds.integer drawn).1
  refine (yields_linearCoefficient scalar decimals).bind fun linear ⟨_, linearDecimals⟩ => ?_
  refine (yields_otherIndex i draws).bind fun j different => ?_
  refine scalar.bind fun share _ => ?_
  refine (yields_written decimals _).bind fun cross crossWritten => ?_
  refine scalar.bind fun bend _ => ?_
  refine (yields_written decimals _).bind fun square squareWritten => ?_
  refine scalar.bind fun offset ⟨nonneg, below⟩ => ?_
  refine (yields_written decimals _).bind fun constant constantWritten => ?_
  apply yields_pure
  exact {
    own_eq := rfl
    other_ne := different
    balanced := by
      have remainder (a b d own other : K) :
          a * own + b * own * other + d * own * own +
              (-(a * own + b * own * other + d * own * own) + (offset * 0.4 - 0.2)) =
            offset * 0.4 - 0.2 := by
        ring
      simp only [SampleEquation.drawnTerms, Expression.valueAt, Expression.value, Term.value,
        List.foldl_cons, List.foldl_nil, Exact.ofScientific_zero, zero_add,
        crossWritten.1, squareWritten.1, constantWritten.1, remainder]
      rw [abs_le]
      constructor <;> norm_num <;> linarith
    linear_decimals := linearDecimals
    cross_decimals := crossWritten.2
    square_decimals := squareWritten.2
    constant_decimals := constantWritten.2 }

/-- Every equation of a system is balanced at the same hidden point. -/
theorem yields_sampleSystem_balanced
    (bounds : Exact.KeepsBounds σ K)
    (draws n : Nat) :
    Yields (sampleSystem draws n : Draw σ (Vector K n × List (SampleEquation K n))) fun system =>
      (∀ k, |system.1.get k| ≤ 2) ∧
        List.Forall₂ (IsBalanced system.1) (List.finRange n) system.2 := by
  refine (yields_hiddenRoot_bounded bounds n).bind fun root bounded => ?_
  refine (yields_mapM fun i _ => yields_sampleEquation_balanced bounds draws root i).bind
    fun equations drawn => ?_
  exact yields_pure ⟨bounded, drawn⟩

end Draw

end RootFinding
