import RootFinding.Proofs.CostModel.Solves
import RootFinding.Proofs.Double.Magnitude

/-!
# Larger problems cost no less

More equations, more iterations or a shorter period do not make an estimate smaller. Its counts are
polynomials with a ceiling in one of them, and its time is a sum of doubles; every rounding on the
way keeps the order.
-/

namespace RootFinding

open Outcome

namespace Quantity

variable {a b : Nat}

/-- A count that has a double has the nearest one. -/
theorem eq_of_toDouble_whole
    {value : Option DoubleMagnitude}
    (known : toDouble (.whole a) = .ok value) :
    value = some (DoubleMagnitude.nearest a 1) := by
  rw [toDouble, counted] at known
  cases shape : DoubleMagnitude.nearest a 1 with
  | infinite =>
      rw [shape] at known
      cases known
  | finite mantissa exponent =>
      rw [shape] at known
      cases known
      rfl

/-- A quotient of counts that is known is the double nearest to it. -/
theorem eq_of_quotient_whole
    {share : Option DoubleMagnitude}
    (known : quotient (.whole a) (.whole b) = .ok share) :
    share = some (DoubleMagnitude.nearest a b) := by
  rw [quotient] at known
  cases shape : DoubleMagnitude.nearest a b with
  | infinite =>
      rw [shape] at known
      cases known
  | finite mantissa exponent =>
      rw [shape] at known
      cases known
      rfl

/-- A conversion to an integer that succeeds gives what its rounding gives. -/
theorem eq_of_integral
    {toInteger : DoubleMagnitude → Option Nat}
    {value : DoubleMagnitude}
    (known : integral toInteger (some value) = .ok a) :
    toInteger value = some a := by
  rw [integral] at known
  cases shape : toInteger value with
  | none =>
      rw [shape] at known
      cases known
  | some count =>
      rw [shape] at known
      cases known
      rfl

/-- An integer is rounded before a double is added to it. -/
theorem eq_of_sum_whole_rounded
    {second : DoubleMagnitude}
    {total : Quantity}
    (known : sum (.whole a) (.rounded (some second)) = .ok total) :
    total = .rounded (some ((DoubleMagnitude.nearest a 1).add second)) := by
  obtain ⟨value, value_eq, _⟩ := bind_eq_ok_iff.mp known
  obtain rfl := eq_of_toDouble_whole value_eq
  rw [sum_whole_rounded value_eq] at known
  cases known
  rfl

theorem eq_of_sum_rounded_whole
    {first : DoubleMagnitude}
    {total : Quantity}
    (known : sum (.rounded (some first)) (.whole b) = .ok total) :
    total = .rounded (some (first.add (DoubleMagnitude.nearest b 1))) := by
  obtain ⟨_, _, later⟩ := bind_eq_ok_iff.mp known
  obtain ⟨value, value_eq, _⟩ := bind_eq_ok_iff.mp later
  obtain rfl := eq_of_toDouble_whole value_eq
  rw [sum_rounded_whole value_eq] at known
  cases known
  rfl

end Quantity

namespace CostModel

open Quantity

/-- The time of the secant method, rounded where it is. -/
def secantDouble (n k p : Nat) : DoubleMagnitude :=
  ((DoubleMagnitude.nearest (k * n * n) 1).add
      (DoubleMagnitude.nearest (k * (n * n * n)) p)).add
    (DoubleMagnitude.nearest (k * n * searchTrials) 1)

/-- What an estimate for counts says of Newton's method or of the other one. -/
inductive IsReckoned (n k p : Nat) (estimated : CostEstimate) : Bool → Prop where
  | newton
      (operations :
        estimated.operations = k * n + k * n * n + k * (n * n * n) + k * n * searchTrials)
      (time :
        estimated.time =
          some (DoubleMagnitude.nearest (k * (n * n * n) + k * n * searchTrials) 1))
      (memory : estimated.memoryBytes = (n * n + 4 * n) * bytesPerNumber) :
      IsReckoned n k p estimated true
  | secant
      {solves : Nat}
      (begun : DoubleMagnitude.ceiling? (DoubleMagnitude.nearest k p) = some solves)
      (operations :
        estimated.operations =
          k * n * 2 + solves * (n * n * n) + k * n * n + k * n * searchTrials)
      (time : estimated.time = some (secantDouble n k p))
      (memory :
        estimated.memoryBytes =
          (n * n + 4 * n) * bytesPerNumber + 2 * n * n * bytesPerNumber) :
      IsReckoned n k p estimated false

section Formulas

variable {n k p : Nat} {iterations : String} {timed : TimeEstimate}

/-- For Newton's method the time and the operations are integers, and these are they. -/
theorem eq_of_newtonTime
    (known : newtonTime (.whole n) (.whole k) iterations = .ok timed) :
    timed.time = .whole (k * (n * n * n) + k * n * searchTrials) ∧
      timed.operations =
        .whole (k * n + k * n * n + k * (n * n * n) + k * n * searchTrials) := by
  simp only [newtonTime, searches, productOf, sumOf, cube, product_whole, sum_whole,
    List.foldlM_cons, List.foldlM_nil, ok_bind, pure_bind] at known
  obtain ⟨_, _, same⟩ := bind_eq_ok_iff.mp known
  cases same
  exact ⟨rfl, rfl⟩

/-- For the secant method the time is a double, and the solves are counted by a rounded quotient. -/
theorem eq_of_secantTime
    (known : secantTime (.whole n) (.whole k) (.whole p) iterations = .ok timed) :
    timed.time = .rounded (some (secantDouble n k p)) ∧
      ∃ solves,
        DoubleMagnitude.ceiling? (DoubleMagnitude.nearest k p) = some solves ∧
          timed.operations =
            .whole (k * n * 2 + solves * (n * n * n) + k * n * n + k * n * searchTrials) := by
  simp only [secantTime, searches, productOf, sumOf, cube, product_whole, sum_whole,
    List.foldlM_cons, List.foldlM_nil, ok_bind, pure_bind, bind_eq_ok_iff] at known
  obtain ⟨share, share_eq, solves, solves_eq, shared, shared_eq, later⟩ := known
  obtain ⟨_, ⟨part, part_eq, total, sum_eq, total_eq⟩, _, _, same⟩ := later
  cases total_eq
  obtain rfl := eq_of_quotient_whole share_eq
  obtain rfl := eq_of_quotient_whole shared_eq
  obtain rfl := eq_of_sum_whole_rounded part_eq
  obtain rfl := eq_of_sum_rounded_whole sum_eq
  cases same
  exact ⟨rfl, solves, eq_of_integral solves_eq, rfl⟩

end Formulas

/-- An estimate for integers says what it should, if there is one. -/
theorem isReckoned_of_estimate
    {n k p : Int}
    {method : JsonValue}
    {estimated : CostEstimate}
    (known : estimate (.integer n) (.integer k) method (.integer p) = .ok estimated) :
    0 < p ∧ ∃ name,
      methodName method = .ok name ∧
        IsReckoned n.toNat k.toNat p.toNat estimated (isNewton name) := by
  simp only [estimate, isWithin, isBelow, given, ok_bind, unless_eq_ok_iff, bind_eq_ok_iff,
    decide_eq_true_eq] at known
  obtain ⟨_, _, periodic, name, named, iterations, _, known⟩ := known
  refine ⟨by omega, name, named, ?_⟩
  generalize isNewton name = newton at known ⊢
  cases newton with
  | true =>
      simp only [↓reduceIte, bind_eq_ok_iff] at known
      obtain ⟨timed, timed_eq, _, memory_eq, time, time_eq, _, _, operations, operations_eq,
        _, _, _, _, _, _, bytes, bytes_eq, same⟩ := known
      obtain ⟨timed_time, timed_operations⟩ := eq_of_newtonTime timed_eq
      rw [timed_time] at time_eq
      rw [timed_operations] at operations_eq
      cases memory_eq
      cases operations_eq
      cases bytes_eq
      cases same
      exact .newton rfl (eq_of_toDouble_whole time_eq) rfl
  | false =>
      simp only [Bool.false_eq_true, ↓reduceIte, bind_eq_ok_iff] at known
      obtain ⟨timed, timed_eq, _, memory_eq, time, time_eq, _, _, operations, operations_eq,
        _, _, _, _, _, _, bytes, bytes_eq, same⟩ := known
      obtain ⟨timed_time, solves, solves_eq, timed_operations⟩ := eq_of_secantTime timed_eq
      rw [timed_time] at time_eq
      rw [timed_operations] at operations_eq
      cases memory_eq
      cases time_eq
      cases operations_eq
      cases bytes_eq
      cases same
      exact .secant solves_eq rfl rfl rfl

section Monotone

variable {n k p n' k' p' : Nat}

/-- Each part of the secant method's time is rounded, and so are the sums. -/
theorem secantDouble_mono
    (size : n ≤ n')
    (iterated : k ≤ k')
    (positive : 0 < p')
    (periodic : p' ≤ p) :
    secantDouble n k p ≤ secantDouble n' k' p' := by
  refine DoubleMagnitude.add_mono (DoubleMagnitude.add_mono ?_ ?_) ?_
  · refine DoubleMagnitude.nearest_mono Nat.one_pos Nat.one_pos ?_
    gcongr
  · refine DoubleMagnitude.nearest_mono (positive.trans_le periodic) positive ?_
    gcongr
  · refine DoubleMagnitude.nearest_mono Nat.one_pos Nat.one_pos ?_
    gcongr

/-- All three figures grow with the size and the iterations, and with a shorter period. -/
theorem IsReckoned.mono
    {newton : Bool}
    {fewer more : CostEstimate}
    (size : n ≤ n')
    (iterated : k ≤ k')
    (positive : 0 < p')
    (periodic : p' ≤ p)
    (reckoned : IsReckoned n k p fewer newton)
    (reckoned' : IsReckoned n' k' p' more newton) :
    fewer.operations ≤ more.operations ∧
      Arithmetic.atMost (doubleOf fewer.time) (doubleOf more.time) = true ∧
      fewer.memoryBytes ≤ more.memoryBytes := by
  cases reckoned with
  | newton operations time memory =>
      cases reckoned' with | newton operations' time' memory' =>
      rw [operations, operations', time, time', memory, memory']
      refine ⟨by gcongr, ?_, by gcongr⟩
      refine DoubleMagnitude.atMost_toDouble (DoubleMagnitude.isDouble_nearest _ Nat.one_pos)
        (DoubleMagnitude.isDouble_nearest _ Nat.one_pos) ?_
      refine DoubleMagnitude.nearest_mono Nat.one_pos Nat.one_pos ?_
      gcongr
  | @secant solves begun operations time memory =>
      cases reckoned' with | @secant solves' begun' operations' time' memory' =>
      have share : DoubleMagnitude.nearest k p ≤ DoubleMagnitude.nearest k' p' := by
        refine DoubleMagnitude.nearest_mono (positive.trans_le periodic) positive ?_
        gcongr
      have notFewer : solves ≤ solves' := DoubleMagnitude.ceiling?_mono share begun begun'
      rw [operations, operations', time, time', memory, memory']
      refine ⟨by gcongr, ?_, by gcongr⟩
      exact DoubleMagnitude.atMost_toDouble (DoubleMagnitude.isDouble_add _ _)
        (DoubleMagnitude.isDouble_add _ _) (secantDouble_mono size iterated positive periodic)

end Monotone

/--
More equations, more iterations and a shorter period make no part of an estimate smaller, wherever
there are both estimates, however large the integers are and however their quotients are rounded.
-/
theorem estimate_mono
    {n k p n' k' p' : Int}
    {method : JsonValue}
    {fewer more : CostEstimate}
    (size : n ≤ n')
    (iterated : k ≤ k')
    (periodic : p' ≤ p)
    (known : estimate (.integer n) (.integer k) method (.integer p) = .ok fewer)
    (known' : estimate (.integer n') (.integer k') method (.integer p') = .ok more) :
    fewer.operations ≤ more.operations ∧
      Arithmetic.atMost (doubleOf fewer.time) (doubleOf more.time) = true ∧
      fewer.memoryBytes ≤ more.memoryBytes := by
  obtain ⟨_, name, named, reckoned⟩ := isReckoned_of_estimate known
  obtain ⟨positive, name', named', reckoned'⟩ := isReckoned_of_estimate known'
  obtain rfl : name = name' := Except.ok.inj (named.symm.trans named')
  have positive' : 0 < p'.toNat := by omega
  exact reckoned.mono (Int.toNat_le_toNat size) (Int.toNat_le_toNat iterated) positive'
    (Int.toNat_le_toNat periodic) reckoned'

/-- No quotient is a double here, nor is the last count of either sum. -/
theorem largerSystem_costsMore :
    ∃ fewer more,
      estimate (.integer 2) (.integer 9007199254740994) (.text "secant") (.integer 7) = .ok fewer ∧
        estimate (.integer 3) (.integer 9007199254740995) (.text "secant") (.integer 3) =
          .ok more ∧
        fewer.operations ≤ more.operations ∧
        Arithmetic.atMost (doubleOf fewer.time) (doubleOf more.time) = true ∧
        fewer.memoryBytes ≤ more.memoryBytes := by
  obtain ⟨fewer, known⟩ :
      ∃ fewer, estimate (.integer 2) (.integer 9007199254740994) (.text "secant") (.integer 7) =
        .ok fewer :=
    exists_of_isOk (by decide +kernel)
  obtain ⟨more, known'⟩ :
      ∃ more, estimate (.integer 3) (.integer 9007199254740995) (.text "secant") (.integer 3) =
        .ok more :=
    exists_of_isOk (by decide +kernel)
  exact ⟨fewer, more, known, known',
    estimate_mono (by decide) (by decide) (by decide) known known'⟩

end CostModel

end RootFinding
