import RootFinding.Service.Endpoints

/-!
# More draws

A redraw ends by itself, or because all its draws are used up. What comes out before that does not
depend on the number of draws: with more of them the same values are drawn, and the source is left
in the same state. So the number tells only when to give up, and a sample that comes out at all is
the one that redraws without a bound would give.
-/

namespace RootFinding

namespace Draw

section Kept

variable {σ α β : Type} {grant : σ → σ}

/--
Whatever the one draw comes to from a source, the other one comes to from the source that more was
granted to.
-/
def IsKeptBy (grant : σ → σ) (draw other : Draw σ α) : Prop :=
  ∀ (source rest : σ) (value : α),
    draw source = some (value, rest) → other (grant source) = some (value, grant rest)

theorem isKeptBy_pure (value : α) : IsKeptBy grant (pure value) (pure value) := by
  intro source rest result drawn
  cases drawn
  rfl

/-- A failure comes to nothing that would have to be kept. -/
theorem isKeptBy_of_failure (other : Draw σ α) : IsKeptBy grant failure other := by
  intro source rest result drawn
  cases drawn

/-- A sequence is kept where both parts are. -/
theorem IsKeptBy.bind
    {first other : Draw σ α}
    {next following : α → Draw σ β}
    (kept : IsKeptBy grant first other)
    (later : ∀ value, IsKeptBy grant (next value) (following value)) :
    IsKeptBy grant (first >>= next) (other >>= following) := by
  intro source rest result drawn
  obtain ⟨⟨value, middle⟩, start, goesOn⟩ := Option.bind_eq_some_iff.mp drawn
  exact Option.bind_eq_some_iff.mpr
    ⟨(value, grant middle), kept _ _ _ start, later value _ _ _ goesOn⟩

/-- A traversal is kept where every item is. -/
theorem isKeptBy_mapM
    {draw other : α → Draw σ β}
    (each : ∀ item, IsKeptBy grant (draw item) (other item))
    (items : List α) :
    IsKeptBy grant (items.mapM draw) (items.mapM other) := by
  induction items with
  | nil =>
      rw [List.mapM_nil, List.mapM_nil]
      exact isKeptBy_pure _
  | cons item items inductionHypothesis =>
      rw [List.mapM_cons, List.mapM_cons]
      refine (each item).bind fun value => ?_
      refine inductionHypothesis.bind fun values => ?_
      exact isKeptBy_pure _

end Kept

/-- Granting more to a source keeps every scalar and every integer that it hands out. -/
structure IsGrant {σ : Type} (K : Type) [RandomSource σ K] (grant : σ → σ) : Prop where
  uniform : IsKeptBy grant (Draw.uniform : Draw σ K) Draw.uniform
  integer :
    ∀ low high,
      IsKeptBy grant (Draw.integer K low high : Draw σ Nat) (Draw.integer K low high)

/-- Nothing needs to be granted. -/
theorem isGrant_id {σ K : Type} [RandomSource σ K] : IsGrant K (id : σ → σ) where
  uniform _ _ _ drawn := drawn
  integer _ _ _ _ _ drawn := drawn

section Samples

variable {σ K : Type} [RandomSource σ K] {grant : σ → σ}

theorem isKeptBy_uniformVector
    (grants : IsGrant K grant)
    (n : Nat) :
    IsKeptBy grant (uniformVector n : Draw σ (Vector K n)) (uniformVector n) := by
  induction n with
  | zero => exact isKeptBy_pure _
  | succ n inductionHypothesis =>
      refine inductionHypothesis.bind fun entries => ?_
      exact grants.uniform.bind fun last => isKeptBy_pure _

theorem isKeptBy_written
    (grants : IsGrant K grant)
    (value : K) :
    IsKeptBy grant (written value : Draw σ (WrittenCoefficient K)) (written value) :=
  (grants.integer 2 8).bind fun _ => isKeptBy_pure _

/-- An index that is found in some draws is found in more. -/
theorem isKeptBy_otherIndex
    (grants : IsGrant K grant)
    {n : Nat}
    (i : Fin n)
    {draws more : Nat}
    (enough : draws ≤ more) :
    IsKeptBy grant (otherIndex K i draws : Draw σ (Fin n)) (otherIndex K i more) := by
  induction draws generalizing more with
  | zero => exact isKeptBy_of_failure _
  | succ draws inductionHypothesis =>
      cases more with
      | zero => omega
      | succ more =>
          refine (grants.integer 0 n).bind fun j => ?_
          split
          · split
            · exact inductionHypothesis (Nat.le_of_succ_le_succ enough)
            · exact isKeptBy_pure _
          · exact isKeptBy_of_failure _

variable [Arithmetic K]

theorem isKeptBy_linearCoefficient (grants : IsGrant K grant) :
    IsKeptBy grant (linearCoefficient : Draw σ (WrittenCoefficient K)) linearCoefficient := by
  refine grants.uniform.bind fun size => ?_
  exact (grants.integer 0 2).bind fun sign => isKeptBy_written grants _

theorem isKeptBy_pairedEquation
    (grants : IsGrant K grant)
    {n : Nat}
    (root : Vector K n)
    (i j : Fin n)
    (linear : WrittenCoefficient K) :
    IsKeptBy grant (pairedEquation root i j linear : Draw σ (SampleEquation K n))
      (pairedEquation root i j linear) := by
  refine grants.uniform.bind fun share => ?_
  refine (isKeptBy_written grants _).bind fun cross => ?_
  refine grants.uniform.bind fun bend => ?_
  refine (isKeptBy_written grants _).bind fun square => ?_
  refine grants.uniform.bind fun offset => ?_
  exact (isKeptBy_written grants _).bind fun constant => isKeptBy_pure _

/-- A sample system that comes out in some draws for each index comes out in more. -/
theorem isKeptBy_sampleSystem
    (grants : IsGrant K grant)
    {draws more : Nat}
    (enough : draws ≤ more)
    (n : Nat) :
    IsKeptBy grant (sampleSystem draws n : Draw σ (Vector K n × List (SampleEquation K n)))
      (sampleSystem more n) := by
  have equation (root : Vector K n) (i : Fin n) :
      IsKeptBy grant (sampleEquation draws root i : Draw σ (SampleEquation K n))
        (sampleEquation more root i) :=
    (isKeptBy_linearCoefficient grants).bind fun linear =>
      (isKeptBy_otherIndex grants i enough).bind fun j =>
        isKeptBy_pairedEquation grants root i j linear
  refine ((isKeptBy_uniformVector grants n).bind fun shares => isKeptBy_pure _).bind fun root => ?_
  exact (isKeptBy_mapM (equation root) _).bind fun equations => isKeptBy_pure _

/-- A point to start from takes no redraw. -/
theorem isKeptBy_startingPoint
    (grants : IsGrant K grant)
    (n : Nat) :
    IsKeptBy grant (startingPoint n : Draw σ (Vector K n)) (startingPoint n) :=
  (isKeptBy_uniformVector grants n).bind fun _ => isKeptBy_pure _

end Samples

end Draw

section Texts

variable {σ K : Type} [Arithmetic K] [HasExactValue K] [RandomSource σ K]
variable {size : Int} {source rest : σ} {draws more : Nat}

/-- A sample stays the same when more is granted to its source, unless that was exhausted. -/
theorem sampleEquations_granted
    {grant : σ → σ}
    (grants : Draw.IsGrant K grant)
    (enough : draws ≤ more)
    (found : sampleEquations K size source draws ≠ .error .exhausted) :
    sampleEquations K size (grant source) more =
      (sampleEquations K size source draws).map fun (texts, rest) => (texts, grant rest) := by
  rw [sampleEquations] at found
  rw [sampleEquations, sampleEquations]
  split
  · rfl
  · rename_i inside
    rw [if_neg inside] at found
    cases drawn : (Draw.sampleSystem (K := K) draws size.toNat).run source with
    | none =>
        rw [drawn] at found
        exact absurd rfl found
    | some outcome =>
        obtain ⟨⟨root, equations⟩, rest⟩ := outcome
        have kept :
            (Draw.sampleSystem (K := K) more size.toNat).run (grant source) =
              some ((root, equations), grant rest) :=
          Draw.isKeptBy_sampleSystem grants enough _ _ _ _ drawn
        rw [kept]
        rfl

/-- From any source, a sample does not depend on the number of draws that it came out in. -/
theorem sampleEquations_of_le
    {texts : List String}
    (enough : draws ≤ more)
    (sampled : sampleEquations K size source draws = .ok (texts, rest)) :
    sampleEquations K size source more = .ok (texts, rest) := by
  have found : sampleEquations K size source draws ≠ .error .exhausted := by
    rw [sampled]
    nofun
  rw [← id_eq source, sampleEquations_granted Draw.isGrant_id enough found, sampled]
  rfl

end Texts

namespace PermutedGenerator

/-- The generator with so many draws more. -/
def granted (more : Nat) (generator : PermutedGenerator) : PermutedGenerator :=
  { generator with draws := generator.draws + more }

theorem stepped_granted
    (more : Nat)
    (generator : PermutedGenerator) :
    (generator.granted more).stepped = generator.stepped.granted more := by
  -- Taken apart first: the fields then agree as they stand, and no product has to be computed.
  cases generator
  rfl

variable {more word : Nat} {generator next : PermutedGenerator}

theorem nextWord_granted (drawn : generator.nextWord = (word, next)) :
    (generator.granted more).nextWord = (word, next.granted more) := by
  rw [nextWord, stepped_granted]
  rw [nextWord] at drawn
  generalize generator.stepped = following at drawn ⊢
  cases drawn
  rfl

/-- Where nothing is left over, the next half is that of the next word. -/
theorem nextHalf_of_none
    (empty : generator.leftOver = none)
    (drawn : generator.nextWord = (word, next)) :
    generator.nextHalf =
      (word % SeedPool.wordBase, { next with leftOver := some (word / SeedPool.wordBase) }) := by
  rw [nextHalf, empty]
  dsimp only
  rw [drawn]

/-- What is left over does not depend on how often it may be drawn. -/
theorem nextHalf_granted (drawn : generator.nextHalf = (word, next)) :
    (generator.granted more).nextHalf = (word, next.granted more) := by
  have held : (generator.granted more).leftOver = generator.leftOver := rfl
  cases leftOver : generator.leftOver with
  | some half =>
      rw [nextHalf, held, leftOver]
      rw [nextHalf, leftOver] at drawn
      cases drawn
      rfl
  | none =>
      rcases parts : generator.nextWord with ⟨whole, following⟩
      rw [nextHalf_of_none (held.trans leftOver) (nextWord_granted parts)]
      rw [nextHalf_of_none leftOver parts] at drawn
      cases drawn
      rfl

/-- The words of a range do not depend on how often they may be drawn. -/
theorem next_wordSource_granted
    {range : Nat}
    (drawn : (wordSource range).next generator = (word, next)) :
    (wordSource range).next (generator.granted more) = (word, next.granted more) := by
  rw [wordSource] at drawn ⊢
  split at drawn
  · rename_i narrow
    rw [if_pos narrow]
    exact nextHalf_granted drawn
  · rename_i wide
    rw [if_neg wide]
    exact nextWord_granted drawn

/-- A word that is found in some draws is found in more. -/
theorem redrawn_granted
    {words : WordSource}
    (keeps :
      ∀ {generator next : PermutedGenerator} {word : Nat},
        words.next generator = (word, next) →
          words.next (generator.granted more) = (word, next.granted more))
    {range threshold product value : Nat}
    {draws later : Nat}
    (enough : draws ≤ later)
    (drawn : redrawn words range threshold draws product generator = some (value, next)) :
    redrawn words range threshold later product (generator.granted more) =
      some (value, next.granted more) := by
  induction draws generalizing later product generator with
  | zero => cases drawn
  | succ draws inductionHypothesis =>
      cases later with
      | zero => omega
      | succ later =>
          rw [redrawn] at drawn ⊢
          split at drawn
          · rename_i low
            rcases parts : words.next generator with ⟨word, following⟩
            rw [parts] at drawn
            rw [if_pos low, keeps parts]
            exact inductionHypothesis (Nat.le_of_succ_le_succ enough) drawn
          · rename_i fair
            rw [if_neg fair]
            cases drawn
            rfl

/-- An integer that comes out within some draws comes out within more. -/
theorem below_granted
    {range value : Nat}
    (drawn : generator.below range = some (value, next)) :
    (generator.granted more).below range = some (value, next.granted more) := by
  rw [below] at drawn ⊢
  split at drawn
  · cases drawn
  · rename_i nonzero
    rw [if_neg nonzero]
    split at drawn
    · rename_i single
      rw [if_pos single]
      cases drawn
      rfl
    · rename_i several
      rw [if_neg several]
      rcases parts : (wordSource range).next generator with ⟨word, following⟩
      simp only [parts] at drawn
      simp only [next_wordSource_granted parts]
      exact redrawn_granted next_wordSource_granted (Nat.le_add_right _ _) drawn

/-- More draws are a grant: they keep what a generator hands out. -/
theorem isGrant_granted (more : Nat) : Draw.IsGrant Float (granted more) where
  uniform source rest value drawn := by
    rcases parts : source.nextWord with ⟨word, following⟩
    change some source.uniform = _ at drawn
    change some (source.granted more).uniform = _
    rw [uniform, parts] at drawn
    rw [uniform, nextWord_granted parts]
    cases drawn
    rfl
  integer low high source rest value drawn := by
    obtain ⟨⟨offset, next⟩, found, outcome⟩ := Option.map_eq_some_iff.mp drawn
    cases outcome
    exact Option.map_eq_some_iff.mpr ⟨_, below_granted found, rfl⟩

/-- The draws of a generator may be granted when it is started. -/
theorem ofSeed?_granted (seed : Int) (draws more : Nat) :
    ofSeed? seed (draws + more) = (ofSeed? seed draws).map (granted more) := by
  rw [ofSeed?, ofSeed?]
  split <;> rfl

end PermutedGenerator

namespace Service

/-- The surroundings with so many draws more. -/
def Surroundings.granted (more : Nat) (surroundings : Surroundings) : Surroundings :=
  { surroundings with draws := surroundings.draws + more }

/-- An answer to a request for a sample stays the same with more draws, unless it is a failure. -/
theorem sample_granted
    {surroundings : Surroundings}
    {fields : SampleFields}
    (answered : sample surroundings fields ≠ Response.internalError)
    (more : Nat) :
    sample (surroundings.granted more) fields = sample surroundings fields := by
  have started :
      generator? (surroundings.granted more) fields.seed =
        (generator? surroundings fields.seed).map (PermutedGenerator.granted more) :=
    PermutedGenerator.ofSeed?_granted _ _ more
  rw [sample] at answered
  rw [sample, sample, started]
  cases made : generator? surroundings fields.seed with
  | none => rfl
  | some generator =>
      rw [made] at answered
      dsimp only [Option.map_some] at answered ⊢
      have grants := PermutedGenerator.isGrant_granted more
      have enough : surroundings.draws ≤ (surroundings.granted more).draws := Nat.le_add_right _ _
      have found :
          sampleEquations Float fields.size generator surroundings.draws ≠ .error .exhausted := by
        intro exhausted
        rw [exhausted] at answered
        exact answered rfl
      rw [sampleEquations_granted grants enough found]
      cases sampled : sampleEquations Float fields.size generator surroundings.draws with
      | error cause => rfl
      | ok outcome =>
          obtain ⟨texts, rest⟩ := outcome
          rw [sampled] at answered
          dsimp only [Except.map] at answered ⊢
          cases pointed : (Draw.startingPoint (K := Float) fields.size.toNat).run rest with
          | none =>
              rw [pointed] at answered
              exact absurd rfl answered
          | some place =>
              obtain ⟨point, last⟩ := place
              have kept :
                  (Draw.startingPoint (K := Float) fields.size.toNat).run (rest.granted more) =
                    some (point, last.granted more) :=
                Draw.isKeptBy_startingPoint grants _ _ _ _ pointed
              rw [kept]

end Service

end RootFinding
