import RootFinding.Proofs.Double.Order
import RootFinding.Proofs.Iteration.Cancellation
import RootFinding.Proofs.Iteration.Measurement

/-!
# Runs with a larger limit

The limit of a run only says where the run is cut off. A run that finished before is the same under
every larger limit. One that was cut off is continued from the state where it stood: if its error is
small there, the next turn finds that out at once and reports the same point at the same cost.
A negative limit allows no turns, as zero does, but it is reported as it is.
-/

namespace RootFinding

namespace Scheme

variable {K σ ρ : Type}
variable {scheme other : Scheme K σ ρ}
variable {start : σ}

/-- Which states are reached is a matter of the turns alone. -/
theorem stateBefore?_congr
    (same : scheme.turn = other.turn)
    (start : σ)
    (iteration : Nat) :
    scheme.stateBefore? start iteration = other.stateBefore? start iteration := by
  induction iteration with
  | zero =>
      rfl
  | succ iteration inductionHypothesis =>
      simp only [stateBefore?, inductionHypothesis, same]

/-- Every turn before a reached one went on. -/
theorem exists_onward_of_stateBefore?_of_lt
    {iteration later : Nat}
    {last : σ}
    (before : iteration < later)
    (reached : scheme.stateBefore? start later = some last) :
    ∃ state next,
      scheme.stateBefore? start iteration = some state ∧
        (scheme.turn iteration state).2 = .onward next := by
  induction later generalizing last with
  | zero =>
      cases before
  | succ later inductionHypothesis =>
      obtain ⟨state, stateReached, turned⟩ := exists_onward_of_stateBefore?_succ reached
      rcases Nat.lt_succ_iff_lt_or_eq.mp before with earlier | same
      · exact inductionHypothesis earlier stateReached
      · subst same
        exact ⟨state, last, stateReached, turned⟩

/-- No turn is reached behind one that finished. -/
theorem le_of_finished
    {iteration later : Nat}
    {state last : σ}
    {result : ρ}
    (reached : scheme.stateBefore? start iteration = some state)
    (turned : (scheme.turn iteration state).2 = .finished result)
    (lastReached : scheme.stateBefore? start later = some last) :
    later ≤ iteration := by
  by_contra beyond
  obtain ⟨found, next, foundReached, onward⟩ :=
    exists_onward_of_stateBefore?_of_lt (Nat.lt_of_not_le beyond) lastReached
  rw [reached, Option.some.injEq] at foundReached
  subst found
  rw [turned] at onward
  cases onward

/-- A turn that finishes within the limit gives the result. -/
theorem Returns.eq_of_finished
    {limit iteration : Nat}
    {state : σ}
    {result last : ρ}
    (returned : scheme.Returns start limit last)
    (early : iteration < limit)
    (reached : scheme.stateBefore? start iteration = some state)
    (turned : (scheme.turn iteration state).2 = .finished result) :
    last = result := by
  cases returned with
  | @finished found _ _ _ foundReached foundTurned =>
      have notLater := le_of_finished reached turned foundReached
      have notEarlier := le_of_finished foundReached foundTurned reached
      have same : found = iteration := Nat.le_antisymm notLater notEarlier
      subst same
      rw [reached, Option.some.injEq] at foundReached
      subst foundReached
      rw [turned, Turn.finished.injEq] at foundTurned
      exact foundTurned.symm
  | exhausted limitReached =>
      have notLater := le_of_finished reached turned limitReached
      omega

end Scheme

/--
Schemes that differ in their limit only. At the limit they report the present state, and a turn
looks at the error first: where it is small, the turn reports the same state.
-/
structure LimitedSchemes
    {K σ : Type}
    [Scalar K]
    {n : Nat}
    (limited : Int → Scheme K σ (SolveResult K n))
    (epsilon : K) :
    Prop where
  turn_eq :
    ∀ limit other,
      (limited limit).turn = (limited other).turn
  numbersTurns :
    ∀ limit,
      (limited limit).NumbersTurns limit
  atLimit_eq :
    ∀ limit other state,
      ((limited other).atLimit state).2 =
        { ((limited limit).atLimit state).2 with iterations := other }
  converged_atLimit :
    ∀ limit state,
      ((limited limit).atLimit state).2.converged =
        Arithmetic.less ((limited limit).atLimit state).2.finalError epsilon
  finished_of_small :
    ∀ limit iteration state,
      Arithmetic.less ((limited limit).atLimit state).2.finalError epsilon = true →
      ((limited limit).turn iteration state).2 =
        .finished
          { ((limited limit).atLimit state).2 with iterations := iteration + 1, converged := true }
  converged_of_finished :
    ∀ limit {iteration state result},
      ((limited limit).turn iteration state).2 = .finished result →
      Arithmetic.less result.finalError epsilon = true →
      result.converged = true

/-- What a larger limit makes of a result. -/
structure SolveResult.IsLengthened
    {K : Type}
    [Scalar K]
    {n : Nat}
    (short long : SolveResult K n)
    (epsilon : K)
    (limit larger : Int) :
    Prop where
  same_of_finished :
    short.iterations < limit →
    long = short
  same_of_small :
    short.iterations = limit →
    Arithmetic.less short.finalError epsilon = true →
    long = { short with iterations := long.iterations, converged := true } ∧
      short.converged = true
  iterations_of_small :
    short.iterations = limit →
    Arithmetic.less short.finalError epsilon = true →
    if 0 ≤ limit then long.iterations = limit ∨ long.iterations = limit + 1
    else long.iterations = min larger 1
  iterations_le :
    short.iterations ≤ long.iterations

namespace LimitedSchemes

variable {K σ : Type} [Scalar K] {n : Nat}
variable {limited : Int → Scheme K σ (SolveResult K n)}
variable {epsilon : K}
variable {start : σ}
variable {limit larger : Int}
variable {short long : SolveResult K n}

/-- A run that was cut off is continued from the state where it stood. -/
private theorem isLengthened_of_exhausted
    (schemes : LimitedSchemes limited epsilon)
    (shorter : limit < larger)
    {state : σ}
    (reached : (limited larger).stateBefore? start limit.toNat = some state)
    (longReturned : (limited larger).Returns start larger.toNat long) :
    ((limited limit).atLimit state).2.IsLengthened long epsilon limit larger := by
  have atLimit := (schemes.numbersTurns limit).iterations_atLimit state
  have finish := schemes.finished_of_small limit limit.toNat state
  have converged := schemes.converged_atLimit limit state
  rw [schemes.turn_eq limit larger] at finish
  cases longReturned with
  | @finished iteration found _ early foundReached turned =>
      have notBefore := Scheme.le_of_finished foundReached turned reached
      have iterations_eq := (schemes.numbersTurns larger).iterations_of_finished turned
      -- The next turn finds a small error at once, so the run does not get any further.
      have atOnce
          (small : Arithmetic.less ((limited limit).atLimit state).2.finalError epsilon = true) :
          iteration = limit.toNat :=
        Nat.le_antisymm (Scheme.le_of_finished reached (finish small) foundReached) notBefore
      refine ⟨fun less => by omega, fun _ small => ⟨?_, ?_⟩, fun _ small => ?_, by omega⟩
      · have same := atOnce small
        subst same
        rw [reached, Option.some.injEq] at foundReached
        subst foundReached
        rw [finish small, Turn.finished.injEq] at turned
        subst turned
        rfl
      · rw [converged, small]
      · have same := atOnce small
        split <;> omega
  | @exhausted last lastReached =>
      have iterations_eq := (schemes.numbersTurns larger).iterations_atLimit last
      have atOnce
          (small : Arithmetic.less ((limited limit).atLimit state).2.finalError epsilon = true) :
          larger.toNat ≤ limit.toNat :=
        Scheme.le_of_finished reached (finish small) lastReached
      refine ⟨fun less => by omega, fun _ small => ⟨?_, ?_⟩, fun _ small => ?_, by omega⟩
      · have notAfter := atOnce small
        have same : larger.toNat = limit.toNat := by omega
        rw [same, reached, Option.some.injEq] at lastReached
        subst lastReached
        rw [schemes.atLimit_eq limit larger, ← small, ← converged]
      · rw [converged, small]
      · have notAfter := atOnce small
        split <;> omega

/-- A run under a larger limit returns the same or what it comes to in further turns. -/
theorem isLengthened_of_returns
    (schemes : LimitedSchemes limited epsilon)
    (shorter : limit < larger)
    (shortReturned : (limited limit).Returns start limit.toNat short)
    (longReturned : (limited larger).Returns start larger.toNat long) :
    short.IsLengthened long epsilon limit larger := by
  have turn_eq := schemes.turn_eq limit larger
  cases shortReturned with
  | @finished iteration state _ early reached turned =>
      have iterations_eq := (schemes.numbersTurns limit).iterations_of_finished turned
      have same : long = short := by
        rw [Scheme.stateBefore?_congr turn_eq] at reached
        rw [turn_eq] at turned
        exact longReturned.eq_of_finished (by omega) reached turned
      subst same
      refine ⟨fun _ => rfl, fun _ small => ?_, fun atLimit _ => ?_, Int.le_refl _⟩
      · have converged := schemes.converged_of_finished limit turned small
        exact ⟨by rw [← converged], converged⟩
      · rw [if_pos (by omega)]
        exact .inl atLimit
  | @exhausted state reached =>
      rw [Scheme.stateBefore?_congr turn_eq] at reached
      exact schemes.isLengthened_of_exhausted shorter reached longReturned

end LimitedSchemes

variable {n : Nat}

/-- A root below a tolerance is below ten times the tolerance, whatever number the tolerance is. -/
private theorem norm_less_times_ten
    {v : Vector Float n}
    {epsilon : Float}
    (small : Arithmetic.less (euclideanNorm v) epsilon = true) :
    Arithmetic.less (euclideanNorm v) (epsilon * 10.0) = true :=
  Double.less_times_ten (Double.positive_of_sqrt_less small) small

/-- Of Newton's method, only the report at the limit depends on the limit. -/
theorem Newton.limitedSchemes
    (system : ExpressionSystem Float n n)
    (epsilon : Float) :
    LimitedSchemes (scheme system epsilon) epsilon where
  turn_eq _ _ := rfl
  numbersTurns := numbersTurns system epsilon
  atLimit_eq _ _ _ := rfl
  converged_atLimit _ _ := rfl
  finished_of_small _ iteration _ small := turn_of_small iteration small
  converged_of_finished limit iteration state result turned small := by
    rcases finished_of_turn turned with ⟨_, shape⟩ | ⟨_, next, _, _, shape⟩
    · rw [shape]
      rfl
    · rw [shape] at small ⊢
      exact norm_less_times_ten small

/-- Of the secant method, only the report at the limit depends on the limit. -/
theorem Secant.limitedSchemes
    (system : ExpressionSystem Float n n)
    (epsilon : Float) :
    LimitedSchemes (scheme system epsilon) epsilon where
  turn_eq _ _ := rfl
  numbersTurns := numbersTurns system epsilon
  atLimit_eq _ _ _ := rfl
  converged_atLimit _ _ := rfl
  finished_of_small _ iteration _ small := turn_of_small iteration small
  converged_of_finished limit iteration state result turned small := by
    rcases finished_of_turn turned with ⟨_, shape⟩ | ⟨_, next, nextShape, _, shape⟩
    · rw [shape]
      rfl
    · have measured := isMeasured_advanced system epsilon iteration
        (settled system epsilon iteration state).2
      rw [← stepped, ← nextShape] at measured
      rw [shape] at small ⊢
      change Arithmetic.less next.error epsilon = true at small
      change Arithmetic.less next.error (epsilon * 10.0) = true
      rw [measured.error_eq] at small ⊢
      exact norm_less_times_ten small

/-- A larger limit leaves a run as it is, or takes it up where it was cut off. -/
theorem larger_limit_lengthens
    (method : Method)
    (system : ExpressionSystem Float n n)
    (x : Vector Float n)
    (epsilon : Float)
    {limit larger : Int}
    (shorter : limit < larger) :
    ∃ short long,
      (method.run system x epsilon limit .never).ending = .returned short ∧
        (method.run system x epsilon larger .never).ending = .returned long ∧
        short.IsLengthened long epsilon limit larger := by
  obtain ⟨short, shortReturned⟩ := method.exists_returned system x epsilon limit
  obtain ⟨long, longReturned⟩ := method.exists_returned system x epsilon larger
  refine ⟨short, long, shortReturned, longReturned, ?_⟩
  cases method with
  | newton =>
      exact (Newton.limitedSchemes system epsilon).isLengthened_of_returns shorter
        (Scheme.returns_of_ending shortReturned) (Scheme.returns_of_ending longReturned)
  | secant =>
      exact (Secant.limitedSchemes system epsilon).isLengthened_of_returns shorter
        (Scheme.returns_of_ending shortReturned) (Scheme.returns_of_ending longReturned)

/-- The root of two is found by four turns, but it takes a fifth to see that. -/
theorem squareRoot_lengthened :
    let system : ExpressionSystem Float 1 1 := #v[[⟨1.0, .product 0 0⟩, ⟨-2.0, .one⟩]]
    (4 : Int) < 100 ∧
      ∃ short long,
        (Method.newton.run system #v[1.0] 1e-6 4 .never).ending = .returned short ∧
          (Method.newton.run system #v[1.0] 1e-6 100 .never).ending = .returned long ∧
          short.iterations = 4 ∧
          long = { short with iterations := 5, converged := true } := by
  have cutOff :
      (Method.newton.run
        (#v[[⟨1.0, .product 0 0⟩, ⟨-2.0, .one⟩]] : ExpressionSystem Float 1 1)
        #v[1.0] 1e-6 4 .never).ending.passes
          (fun result => result.iterations = 4 && Arithmetic.less result.finalError 1e-6) =
        true := by
    decide +kernel
  have five :
      (Method.newton.run
        (#v[[⟨1.0, .product 0 0⟩, ⟨-2.0, .one⟩]] : ExpressionSystem Float 1 1)
        #v[1.0] 1e-6 100 .never).ending.passes (fun result => result.iterations = 5) = true := by
    decide +kernel
  intro system
  obtain ⟨short, long, shortReturned, longReturned, lengthened⟩ :=
    larger_limit_lengthens .newton system #v[1.0] 1e-6 (show (4 : Int) < 100 by decide)
  obtain ⟨foundShort, foundShortReturned, reported⟩ := Ending.exists_of_passes cutOff
  obtain ⟨foundLong, foundLongReturned, counted⟩ := Ending.exists_of_passes five
  rw [shortReturned, Ending.returned.injEq] at foundShortReturned
  rw [longReturned, Ending.returned.injEq] at foundLongReturned
  subst foundShortReturned foundLongReturned
  rw [Bool.and_eq_true, decide_eq_true_eq] at reported
  rw [decide_eq_true_eq] at counted
  have same := (lengthened.same_of_small reported.1 reported.2).1
  rw [counted] at same
  exact ⟨by decide, short, long, shortReturned, longReturned, reported.1, same⟩

/--
A negative limit is reported as the number of iterations, so that number can grow by two although no
turn is taken.
-/
theorem negative_limit_reported :
    let system : ExpressionSystem Float 1 1 := #v[[⟨1.0, .single 0⟩]]
    (-3 : Int) < -1 ∧
      ∃ short long,
        (Method.newton.run system #v[0.0] 0.01 (-3) .never).ending = .returned short ∧
          (Method.newton.run system #v[0.0] 0.01 (-1) .never).ending = .returned long ∧
          short.iterations = -3 ∧
          Arithmetic.less short.finalError 0.01 = true ∧
          ¬(long.iterations = -3 ∨ long.iterations = -3 + 1) :=
  ⟨by decide, _, _, rfl, rfl, rfl, by decide +kernel, by decide⟩

end RootFinding
