import RootFinding.Expression.Basic

/-!
# Backtracking line search

Step lengths are tried in order, each half of the one before. The first that lowers the residual
norm by a sufficient share is taken, and when none does the last one is taken anyway.
-/

namespace RootFinding

namespace LineSearch

/-- The step length that was taken, and how many were tried. -/
structure Choice (K : Type) where
  alpha : K
  trials : Nat
  deriving Repr, DecidableEq

section Choice

variable {K : Type}

/-- The first length that is sufficient, else the last. -/
def choose (isAccepted : K → Bool) : (alpha : K) → (smaller : List K) → Choice K
  | alpha, [] => { alpha, trials := 1 }
  | alpha, next :: rest =>
      if isAccepted alpha then { alpha, trials := 1 }
      else
        let later := choose isAccepted next rest
        { later with trials := later.trials + 1 }

theorem trials_choose_pos (isAccepted : K → Bool) (alpha : K) (smaller : List K) :
    0 < (choose isAccepted alpha smaller).trials := by
  cases smaller with
  | nil => simp [choose]
  | cons next rest =>
      simp only [choose]
      split <;> simp

/-- No length is tried twice. -/
theorem trials_choose_le (isAccepted : K → Bool) (alpha : K) (smaller : List K) :
    (choose isAccepted alpha smaller).trials ≤ smaller.length + 1 := by
  induction smaller generalizing alpha with
  | nil => simp [choose]
  | cons next rest inductionHypothesis =>
      simp only [choose]
      split
      · simp
      · simpa using inductionHypothesis next

/-- A length is taken that is accepted, or none is. -/
theorem isAccepted_choose
    {isAccepted : K → Bool}
    {alpha : K}
    {smaller : List K}
    (acceptable : ∃ length ∈ alpha :: smaller, isAccepted length = true) :
    isAccepted (choose isAccepted alpha smaller).alpha = true := by
  induction smaller generalizing alpha with
  | nil =>
      obtain ⟨length, member, accepted⟩ := acceptable
      rw [List.mem_singleton] at member
      simpa [choose, member] using accepted
  | cons next rest inductionHypothesis =>
      by_cases first : isAccepted alpha = true
      · simp [choose, first]
      · simp only [choose, first, Bool.false_eq_true, ↓reduceIte]
        apply inductionHypothesis
        obtain ⟨length, member, accepted⟩ := acceptable
        rcases List.mem_cons.mp member with same | later
        · exact absurd (same ▸ accepted) first
        · exact ⟨length, later, accepted⟩

end Choice

section Arithmetic

variable {K : Type} [Arithmetic K]

/-- `count` lengths, the first as given and each later one half of the one before. -/
def halvings (first : K) : (count : Nat) → List K
  | 0 => []
  | count + 1 => first :: halvings (first * 0.5) count

@[simp]
theorem length_halvings (first : K) (count : Nat) :
    (halvings first count).length = count := by
  induction count generalizing first with
  | zero => rfl
  | succ count inductionHypothesis =>
      simp [halvings, inductionHypothesis]

/-- The decrease that is asked for is this share of the norm for a whole step. -/
def sufficientShare : K := 1e-4

/-- The norm after a step of length `alpha` is small enough against the norm before it. -/
def isSufficient (before alpha after : K) : Bool :=
  Arithmetic.less after (before * (1.0 - sufficientShare * alpha))

end Arithmetic

section Scalar

variable {K : Type} [Scalar K] {m n : Nat}

/-- The norm of the residuals after a step of length `alpha` along `dx`. -/
def normAfter (system : ExpressionSystem K m n) (x dx : Vector K n) (alpha : K) : K :=
  euclideanNorm (residuals system (moved x alpha dx))

/-- The length to walk from `x` along `dx`, out of `alpha` and the lengths after it. -/
def backtrack
    (system : ExpressionSystem K m n)
    (x dx : Vector K n)
    (before alpha : K)
    (smaller : List K) :
    Choice K :=
  choose (fun length => isSufficient before length (normAfter system x dx length)) alpha smaller

/-- The same out of a list, which has to hold a length. -/
def backtrack?
    (system : ExpressionSystem K m n)
    (x dx : Vector K n)
    (before : K) :
    List K → Option (Choice K)
  | [] => none
  | alpha :: smaller => some (backtrack system x dx before alpha smaller)

end Scalar

end LineSearch

end RootFinding
