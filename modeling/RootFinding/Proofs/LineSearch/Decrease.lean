import RootFinding.LineSearch
import RootFinding.Proofs.Double.Exact
import RootFinding.Proofs.Double.Shrinking

/-!
# What a line search takes

A line search takes the first length that is accepted, or the last where none is. The test asks the
new error to be below a share of the old one. The share is computed, so it may be rounded up; but it
is never rounded up beyond the old error, so a length that passes the test lowers the error in exact
values. That is a law about the scalars, and holds of doubles as well as of real numbers.
-/

namespace RootFinding

namespace LineSearch

section Choice

variable {K : Type}

/-- How a length is taken out of a list of lengths that are tried in order. -/
inductive IsChosen (isAccepted : K → Bool) (lengths : List K) (alpha : K) : Prop where
  | sufficient
      (larger smaller : List K)
      (split : lengths = larger ++ alpha :: smaller)
      (rejected : ∀ length ∈ larger, isAccepted length = false)
      (accepted : isAccepted alpha = true)
  | forced
      (last : lengths.getLast? = some alpha)
      (rejected : ∀ length ∈ lengths, isAccepted length = false)

/-- A search takes the first length that is accepted, or the last one. -/
theorem isChosen_choose
    (isAccepted : K → Bool)
    (alpha : K)
    (smaller : List K) :
    IsChosen isAccepted (alpha :: smaller) (choose isAccepted alpha smaller).alpha := by
  induction smaller generalizing alpha with
  | nil =>
      cases accepted : isAccepted alpha with
      | true => exact .sufficient [] [] rfl (by simp) accepted
      | false => exact .forced rfl (by simpa using accepted)
  | cons next rest inductionHypothesis =>
      cases accepted : isAccepted alpha with
      | true =>
          simp only [choose, accepted, ↓reduceIte]
          exact .sufficient [] (next :: rest) rfl (by simp) accepted
      | false =>
          simp only [choose, accepted, Bool.false_eq_true, ↓reduceIte]
          rcases inductionHypothesis next with
            ⟨larger, smaller, split, rejected, taken⟩ | ⟨last, rejected⟩
          · refine .sufficient (alpha :: larger) smaller ?_ ?_ taken
            · rw [List.cons_append, ← split]
            · exact List.forall_mem_cons.mpr ⟨accepted, rejected⟩
          · refine .forced ?_ (List.forall_mem_cons.mpr ⟨accepted, rejected⟩)
            rw [List.getLast?_cons_cons, last]

/-- The whole step is taken at the first trial if it is accepted. -/
theorem choose_of_isAccepted
    {isAccepted : K → Bool}
    {alpha : K}
    (accepted : isAccepted alpha = true)
    (smaller : List K) :
    choose isAccepted alpha smaller = { alpha, trials := 1 } := by
  cases smaller with
  | nil => rfl
  | cons next rest => simp [choose, accepted]

/-- A length that was taken although some length is accepted is accepted itself. -/
theorem IsChosen.accepted_of_not_forced
    {isAccepted : K → Bool}
    {lengths : List K}
    {alpha : K}
    (chosen : IsChosen isAccepted lengths alpha)
    (notForced : ¬∀ length ∈ lengths, isAccepted length = false) :
    alpha ∈ lengths ∧ isAccepted alpha = true := by
  rcases chosen with ⟨larger, smaller, split, _, accepted⟩ | ⟨_, rejected⟩
  · exact ⟨by simp [split], accepted⟩
  · exact absurd rejected notForced

end Choice

/-- The whole step and seven halvings of it, which no line search goes beyond. -/
def allLengths {K : Type} [Arithmetic K] : List K :=
  1.0 :: halvings 0.5 7

/-- More halvings come behind the fewer ones. -/
theorem halvings_prefix
    {K : Type}
    [Arithmetic K]
    (first : K)
    (count more : Nat) :
    halvings first count <+: halvings first (count + more) := by
  induction count generalizing first with
  | zero =>
      exact List.nil_prefix
  | succ count inductionHypothesis =>
      rw [Nat.succ_add, halvings, halvings, List.prefix_cons_inj]
      exact inductionHypothesis _

end LineSearch

/--
Scalars with exact values, where a length that passes the test of the line search lowers the exact
error.
-/
class ExactlyOrdered (K : Type) [Scalar K] where
  exact : K → EReal
  exact_lt_of_isSufficient :
    ∀ {square alpha after : K},
      alpha ∈ LineSearch.allLengths →
      LineSearch.isSufficient (Scalar.sqrt square) alpha after = true →
      exact after < exact (Scalar.sqrt square)

namespace Double

/-- None of the shares that the line search asks for is one or more. -/
theorem isShare_of_mem_allLengths :
    ∀ alpha ∈ LineSearch.allLengths,
      isShare (1.0 - LineSearch.sufficientShare * alpha) = true := by
  decide +kernel

end Double

noncomputable instance : ExactlyOrdered Float where
  exact := Double.exact
  exact_lt_of_isSufficient member sufficient :=
    Double.exact_lt_of_less
      (Double.less_of_less_share (Double.isShare_of_mem_allLengths _ member) sufficient)

/-- Exact arithmetic. -/
noncomputable instance : Scalar ℝ where
  magnitude x := |x|
  less x y := decide (x < y)
  atMost x y := decide (x ≤ y)
  isFinite _ := true
  sqrt := Real.sqrt

noncomputable instance : ExactlyOrdered ℝ where
  exact := Real.toEReal
  exact_lt_of_isSufficient {square alpha after} member sufficient := by
    have positive : 0 ≤ alpha := by
      simp only [LineSearch.allLengths, LineSearch.halvings, List.mem_cons, List.not_mem_nil,
        or_false] at member
      rcases member with rfl | rfl | rfl | rfl | rfl | rfl | rfl | rfl <;> norm_num
    have below : after < Real.sqrt square * (1.0 - 1e-4 * alpha) :=
      of_decide_eq_true sufficient
    have notMore : Real.sqrt square * (1.0 - 1e-4 * alpha) ≤ Real.sqrt square :=
      mul_le_of_le_one_right (Real.sqrt_nonneg square) (by norm_num; linarith)
    exact EReal.coe_lt_coe_iff.mpr (below.trans_le notMore)

end RootFinding
