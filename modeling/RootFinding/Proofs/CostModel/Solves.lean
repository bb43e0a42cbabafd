import RootFinding.CostModel
import RootFinding.Proofs.Decimal.Nearest
import RootFinding.Proofs.Decimal.Shortest
import RootFinding.Proofs.Outcome

/-!
# Counted solves

The secant method solves once for every period that its iterations begin. The count of solves goes
through a double, but is exact as long as the iterations fit into 53 binary digits.
-/

namespace RootFinding

open Outcome

namespace Quantity

variable {a b count : Nat}

/-- A count of a machine word's range does not overflow a double. -/
theorem cast_inRange (small : count ≤ 2 ^ 64) : (count : ℚ) < 2 ^ (1023 : Int) :=
  calc (count : ℚ) ≤ 2 ^ (64 : Int) := by exact_mod_cast small
    _ < 2 ^ (1023 : Int) := zpow_lt_zpow_right₀ (by norm_num) (by norm_num)

/-- A count that is in range is the double nearest to it. -/
theorem exists_toDouble
    (positive : 0 < count)
    (small : count ≤ 2 ^ 64) :
    ∃ magnitude, toDouble (.whole count) = .ok (some magnitude) := by
  obtain ⟨mantissa, exponent, nearest_eq, _⟩ :=
    DoubleMagnitude.exists_finite positive Nat.one_pos (by simpa using cast_inRange small)
  exact ⟨.finite mantissa exponent, by rw [toDouble, counted, nearest_eq]; rfl⟩

/-- A quotient that is in range is the double nearest to it. -/
theorem quotient_whole
    (positive : 0 < a)
    (positive' : 0 < b)
    (small : a ≤ 2 ^ 64) :
    quotient (.whole a) (.whole b) = .ok (some (DoubleMagnitude.nearest a b)) := by
  have inRange : (a : ℚ) / b < 2 ^ (1023 : Int) :=
    (div_le_self (Nat.cast_nonneg a) (by exact_mod_cast positive')).trans_lt (cast_inRange small)
  obtain ⟨mantissa, exponent, nearest_eq, _⟩ :=
    DoubleMagnitude.exists_finite positive positive' inRange
  simp only [quotient, nearest_eq]

theorem product_whole (a b : Nat) : product (.whole a) (.whole b) = .ok (.whole (a * b)) :=
  rfl

theorem sum_whole (a b : Nat) : sum (.whole a) (.whole b) = .ok (.whole (a + b)) :=
  rfl

/-- An integer that a double can hold is added to a double as that double. -/
theorem sum_whole_rounded
    {first : DoubleMagnitude}
    (known : toDouble (.whole a) = .ok (some first))
    (second : Option DoubleMagnitude) :
    sum (.whole a) (.rounded second) = .ok (.rounded (second.map first.add)) := by
  simp only [sum, combined, known, ok_bind]
  rfl

theorem sum_rounded_whole
    {second : DoubleMagnitude}
    (known : toDouble (.whole b) = .ok (some second))
    (first : Option DoubleMagnitude) :
    sum (.rounded first) (.whole b) = .ok (.rounded (first.map (·.add second))) := by
  simp only [sum, combined, known, ok_bind]
  cases first <;> rfl

/-- A count of a machine word's range is spelled in full. -/
theorem shown_whole (small : count ≤ 2 ^ 64) :
    shown (.whole count) = .ok (toString count) := by
  have short : count < Decimal.powerOfTen integerDigitLimit := by
    rw [Decimal.powerOfTen_eq]
    calc count ≤ 2 ^ 64 := small
      _ < 10 ^ 20 := by norm_num
      _ ≤ 10 ^ integerDigitLimit := pow_le_pow_right₀ (by norm_num) (by decide)
  rw [shown, if_pos short]

end Quantity

namespace CostModel

open Quantity

variable {n k p count : Nat}

/-- The operations of the secant method. -/
def secantOperations (n k p : Nat) : Nat :=
  2 * k * n + ⌈(k : ℚ) / p⌉₊ * n ^ 3 + k * n ^ 2 + 6 * k * n

/-- The ceiling of the rounded quotient is the number of periods that are begun. -/
theorem exists_solves
    (iterated : 1 ≤ k)
    (short : k ≤ 2 ^ 53)
    (periodic : 1 ≤ p)
    (inRange : p ≤ 2 ^ 1000) :
    ∃ share,
      quotient (.whole k) (.whole p) = .ok share ∧
        integral DoubleMagnitude.ceiling? share = .ok ⌈(k : ℚ) / p⌉₊ := by
  have reached : p ≤ 2 ^ 1022 := inRange.trans (pow_le_pow_right₀ one_le_two (by norm_num))
  refine ⟨_, quotient_whole iterated periodic (short.trans (by norm_num)), ?_⟩
  rw [integral, DoubleMagnitude.ceiling?_nearest iterated short periodic reached]

/-- The time of the secant method is known, and its operations are exact. -/
theorem exists_secantTime
    (size : 1 ≤ n ∧ n ≤ 10)
    (iterated : 1 ≤ k)
    (short : k ≤ 2 ^ 53)
    (periodic : 1 ≤ p)
    (inRange : p ≤ 2 ^ 1000)
    (iterations : String) :
    ∃ timed time,
      secantTime (.whole n) (.whole k) (.whole p) iterations = .ok timed ∧
        timed.operations = .whole (secantOperations n k p) ∧
        timed.time.toDouble = .ok time := by
  obtain ⟨n_pos, n_le⟩ := size
  have square : k * n * n ≤ 2 ^ 53 * 10 * 10 := Nat.mul_le_mul (Nat.mul_le_mul short n_le) n_le
  have cubed : k * (n * n * n) ≤ 2 ^ 53 * (10 * 10 * 10) :=
    Nat.mul_le_mul short (Nat.mul_le_mul (Nat.mul_le_mul n_le n_le) n_le)
  have trials : k * n * searchTrials ≤ 2 ^ 53 * 10 * 6 :=
    Nat.mul_le_mul (Nat.mul_le_mul short n_le) le_rfl
  obtain ⟨share, share_eq, solves_eq⟩ := exists_solves iterated short periodic inRange
  have shared :
      quotient (.whole (k * (n * n * n))) (.whole p) =
        .ok (some (DoubleMagnitude.nearest (k * (n * n * n)) p)) :=
    quotient_whole (Nat.mul_pos iterated (Nat.mul_pos (Nat.mul_pos n_pos n_pos) n_pos)) periodic
      (cubed.trans (by norm_num))
  obtain ⟨updates, updates_eq⟩ :=
    exists_toDouble (Nat.mul_pos (Nat.mul_pos iterated n_pos) n_pos) (square.trans (by norm_num))
  obtain ⟨searches, searches_eq⟩ :=
    exists_toDouble (Nat.mul_pos (Nat.mul_pos iterated n_pos) (by decide : 0 < searchTrials))
      (trials.trans (by norm_num))
  have shown :
      (Quantity.whole (k * searchTrials)).shown = .ok (toString (k * searchTrials)) :=
    shown_whole ((Nat.mul_le_mul short le_rfl).trans (by norm_num [searchTrials]))
  have operations :
      k * n * 2 + ⌈(k : ℚ) / p⌉₊ * (n * n * n) + k * n * n + k * n * searchTrials =
        secantOperations n k p := by
    rw [secantOperations, searchTrials]
    ring
  simp only [secantTime, share_eq, solves_eq, ok_bind, pure_bind, CostModel.searches, productOf,
    cube, product_whole, sum_whole, sumOf, List.foldlM_cons, List.foldlM_nil, shared,
    sum_whole_rounded updates_eq, sum_rounded_whole searches_eq, shown]
  exact ⟨_, _, rfl, congrArg Quantity.whole operations, rfl⟩

theorem given_integer (count : Nat) : given (.integer count) = .ok (.whole count) :=
  rfl

theorem shownGiven_integer (small : count ≤ 2 ^ 64) :
    shownGiven (.integer count) = .ok (toString count) := by
  rw [shownGiven, given_integer, ok_bind, shown_whole small]
  rintro value ⟨⟩

/-- A count between the bounds passes the check of its range. -/
theorem isWithin_integer
    {least greatest : Nat}
    (within : least ≤ count ∧ count ≤ greatest) :
    isWithin least greatest (.integer count) = .ok true := by
  simpa [isWithin] using within

theorem isBelow_integer (reached : 1 ≤ count) : isBelow 1 (.integer count) = .ok false := by
  simpa [isBelow] using Nat.one_le_iff_ne_zero.mp reached

/-- The word for Newton's method stands somewhere in the lowered name. -/
theorem isNewton_iff (method : String) :
    isNewton method = true ↔ "newton".toList <:+: (Text.lowered method).toList := by
  rw [isNewton]
  induction (Text.lowered method).toList with
  | nil => simp [Text.occursIn]
  | cons c rest inductionHypothesis =>
      rw [Text.occursIn, Bool.or_eq_true, inductionHypothesis, List.isPrefixOf_iff_prefix,
        List.infix_cons_iff]

/--
The operations of the secant method count one elimination for every period that is begun, although
the quotient of iterations and period is a double when its ceiling is taken.
-/
theorem solves_counted_exactly
    {method : JsonValue}
    {name : String}
    (size : 2 ≤ n ∧ n ≤ 10)
    (iterated : 1 ≤ k)
    (short : k ≤ 2 ^ 53)
    (periodic : 1 ≤ p)
    (inRange : p ≤ 2 ^ 1000)
    (named : methodName method = .ok name)
    (notNewton : ¬"newton".toList <:+: (Text.lowered name).toList) :
    ∃ estimated,
      estimate (.integer n) (.integer k) method (.integer p) = .ok estimated ∧
        estimated.operations = 2 * k * n + ⌈(k : ℚ) / p⌉₊ * n ^ 3 + k * n ^ 2 + 6 * k * n := by
  have isSecant : isNewton name = false := by
    rwa [← Bool.not_eq_true, isNewton_iff]
  obtain ⟨timed, time, timed_eq, operations_eq, time_eq⟩ :=
    exists_secantTime ⟨one_le_two.trans size.1, size.2⟩ iterated short periodic inRange (toString k)
  have n_pos : 0 < n := zero_lt_two.trans_le size.1
  have square_le : n * n ≤ 2 ^ 64 := (Nat.mul_le_mul size.2 size.2).trans (by norm_num)
  obtain ⟨space, space_eq⟩ := exists_toDouble (Nat.mul_pos n_pos n_pos) square_le
  have shown_n : (Quantity.whole n).shown = .ok (toString n) :=
    shown_whole (size.2.trans (by norm_num))
  simp only [estimate, isWithin_integer size, isBelow_integer iterated, isBelow_integer periodic,
    named, given_integer, shownGiven_integer (short.trans (by norm_num)), isSecant, ok_bind,
    pure_bind, Bool.not_true, Bool.false_eq_true, ↓reduceIte, timed_eq, operations_eq, time_eq,
    secantMemory, newtonMemory, product_whole, sum_whole, productOf, List.foldlM_cons,
    List.foldlM_nil, space_eq, toCount, shown_whole square_le, shown_n]
  exact ⟨_, rfl, rfl⟩

/-- One iteration more than a period begins a second one, however long the period is. -/
theorem oneMore_solvesTwice :
    ∃ estimated,
      estimate (.integer 2) (.integer 9007199254740992) (.text "secant")
          (.integer 9007199254740991) = .ok estimated ∧
        estimated.operations =
          2 * 9007199254740992 * 2 + 2 * 2 ^ 3 + 9007199254740992 * 2 ^ 2 +
            6 * 9007199254740992 * 2 := by
  have twice : ⌈((9007199254740992 : Nat) : ℚ) / (9007199254740991 : Nat)⌉₊ = 2 := by
    rw [Nat.ceil_eq_iff two_ne_zero]
    norm_num
  have inRange : 9007199254740991 ≤ 2 ^ 1000 :=
    le_trans (by norm_num : 9007199254740991 ≤ 2 ^ 53) (pow_le_pow_right₀ one_le_two (by norm_num))
  obtain ⟨estimated, estimate_eq, operations_eq⟩ :=
    solves_counted_exactly (n := 2) (k := 9007199254740992) (p := 9007199254740991)
      (by decide) (by decide) (by norm_num) (by decide) inRange
      (rfl : methodName (.text "secant") = .ok "secant") (by decide)
  rw [twice] at operations_eq
  exact ⟨estimated, estimate_eq, operations_eq⟩

/-- A name with a capital letter does not hold the word, but is the name of Newton's method. -/
theorem capitalName_countedAsNewton :
    ¬∀ (n k p : Nat) (method : JsonValue) (name : String),
        2 ≤ n ∧ n ≤ 10 → 1 ≤ k → k ≤ 2 ^ 53 → 1 ≤ p → p ≤ 2 ^ 1000 →
          methodName method = .ok name → ¬"newton".toList <:+: name.toList →
            ∃ estimated,
              estimate (.integer n) (.integer k) method (.integer p) = .ok estimated ∧
                estimated.operations =
                  2 * k * n + ⌈(k : ℚ) / p⌉₊ * n ^ 3 + k * n ^ 2 + 6 * k * n := by
  intro counted
  obtain ⟨estimated, estimate_eq, operations_eq⟩ :=
    counted 2 1 1 (.text "Newton") "Newton" (by decide) le_rfl (by norm_num) le_rfl
      (one_le_pow₀ one_le_two) rfl (by decide)
  have asNewton :
      (estimate (.integer (2 : Nat)) (.integer (1 : Nat)) (.text "Newton")
        (.integer (1 : Nat))).map (·.operations) = .ok 26 := by
    decide +kernel
  rw [estimate_eq, Except.map, operations_eq] at asNewton
  norm_num at asNewton

end CostModel

end RootFinding
