import RootFinding.Proofs.Request.Sufficiency
import RootFinding.Proofs.Sample.Writing

/-!
# Sample systems are accepted

Whatever a source draws within its bounds, the texts of a sample system pass every check of a
request, together with the starting point that is drawn after them. They are read as the terms that
were drawn, in the same order and over the same variables, and no coefficient changes its sign.
-/

namespace RootFinding

open Double
open Grammar
open Outcome

namespace SampleEquation

variable {K : Type} [Arithmetic K] [HasExactValue K] {n : Nat} {equation : SampleEquation K n}

/-- The terms that the text of an equation is read as. -/
def readTerms (equation : SampleEquation K n) : Expression K (Fin n) :=
  let own := equation.own
  let other := equation.other
  let worth (coefficient : WrittenCoefficient K) : K :=
    readCoefficient false (Arithmetic.less coefficient.value 0.0) coefficient.units
      coefficient.decimals
  [{ coefficient := worth equation.linear, monomial := .single own },
    { coefficient := worth equation.cross, monomial := .product own other },
    { coefficient := worth equation.square, monomial := .product own own },
    { coefficient :=
        readCoefficient equation.subtracts false equation.constant.units equation.constant.decimals
      monomial := .one }]

/-- The variables of a system of their size are kept. -/
theorem within_writtenTerms (inside : n ≤ variableLimit) :
    Expression.within n ((equation.writtenTerms inside).map SignedTerm.toTerm) =
      .ok equation.readTerms := by
  rw [Expression.within, mapError_eq_ok_iff, Expression.restrict?, Expression.rename?,
    mapM_eq_ok_iff]
  have kept (index : Fin n) :
      (if small : (index.castLE inside).val < n then
          (.ok ⟨(index.castLE inside).val, small⟩ : Except (Fin variableLimit) (Fin n))
        else .error (index.castLE inside)) = .ok index :=
    dif_pos index.isLt
  have renamed (coefficient : K) (monomial : Monomial (Fin n)) :
      ({ coefficient, monomial := .ofList (monomial.toList.map (Fin.castLE inside)) } :
          Term K (Fin variableLimit)).rename?
          (fun index =>
            if small : index.val < n then .ok ⟨index.val, small⟩ else .error index) =
        .ok { coefficient, monomial } := by
    cases monomial <;>
      simp only [Term.rename?, Monomial.toList, List.map_cons, List.map_nil, Monomial.ofList,
        Monomial.rename?, kept] <;>
      rfl
  let own := equation.own
  exact .cons (renamed _ (.single own)) (.cons (renamed _ (.product own equation.other))
    (.cons (renamed _ (.product own own)) (.cons (renamed _ .one) .nil)))

/-- The text of an equation is read as its terms. -/
theorem read_text
    (spelled : equation.IsSpelled)
    (inside : n ≤ variableLimit) :
    (do Expression.parseWithin n (← Equation.leftSide equation.text) :
      Except ParseError (Expression K (Fin n))) = .ok equation.readTerms := by
  obtain ⟨left, split, parsed⟩ := parse_leftSide spelled inside
  rw [bind_eq_ok_iff]
  refine ⟨left, split, ?_⟩
  rw [Expression.parseWithin, bind_eq_ok_iff]
  exact ⟨_, parsed, within_writtenTerms inside⟩

end SampleEquation

section Texts

variable {K : Type} [Arithmetic K] [HasExactValue K] {n : Nat}

/-- The texts of a system are read as its terms. -/
theorem ofEquations_eq_readTerms
    {equations : Vector (SampleEquation K n) n}
    (spelled : ∀ i, (equations.get i).IsSpelled)
    (inside : n ≤ variableLimit) :
    ExpressionSystem.ofEquations (equations.map SampleEquation.text) =
      .ok (equations.map SampleEquation.readTerms) := by
  apply mapM_eq_ok_of_toList
  rw [mapM_eq_ok_iff, Vector.toList_map, Vector.toList_map, List.forall₂_map_left_iff,
    List.forall₂_map_right_iff]
  refine List.forall₂_same.mpr fun equation member => ?_
  obtain ⟨i, small, rfl⟩ := Vector.mem_iff_getElem.mp (Vector.mem_toList_iff.mp member)
  exact SampleEquation.read_text (spelled ⟨i, small⟩) inside

/-- The texts of a system of an admissible size are those of the equations that were drawn. -/
theorem sampleEquations_of_sampleSystem
    {σ : Type}
    [RandomSource σ K]
    (two_le : 2 ≤ n)
    (le_ten : n ≤ 10)
    {draws : Nat}
    {source rest : σ}
    {root : Vector K n}
    {equations : List (SampleEquation K n)}
    (drawn : (Draw.sampleSystem draws n).run source = some ((root, equations), rest)) :
    sampleEquations K n source draws = .ok (equations.map SampleEquation.text, rest) := by
  have admissible : ((n : Int) < 2 || (10 : Int) < n) = false := by
    simp only [Bool.or_eq_false_iff, decide_eq_false_iff_not]
    omega
  have run : (Draw.sampleSystem draws (n : Int).toNat).run source = some ((root, equations), rest) :=
    drawn
  simp only [sampleEquations, admissible, Bool.false_eq_true, ↓reduceIte]
  rw [run]

end Texts

section Agreement

variable {n : Nat} {i : Fin n} {equation : SampleEquation Float n}

theorem IsDrawnFor.isSpelled (drawn : IsDrawnFor i equation) : equation.IsSpelled where
  linear := WrittenCoefficient.isSpelled_of_isWritable drawn.linear
  cross := WrittenCoefficient.isSpelled_of_isWritable drawn.cross
  square := WrittenCoefficient.isSpelled_of_isWritable drawn.square
  constant := WrittenCoefficient.isSpelled_of_isWritable drawn.constant

/-- What was read of an equation: the variables that were drawn, and coefficients that agree. -/
structure IsReadAs
    (i : Fin n)
    (equation : SampleEquation Float n)
    (terms : Expression Float (Fin n)) :
    Prop where
  other_ne : equation.other ≠ i
  variables_eq :
    terms.map (fun term => term.monomial.toList) =
      [[i], [i, equation.other], [i, i], []]
  coefficients :
    List.Forall₂ AgreesWith (terms.map Term.coefficient)
      [equation.linear, equation.cross, equation.square, equation.constant]

/-- An equation that is drawn is read as the terms that it was made of. -/
theorem isReadAs_readTerms (drawn : IsDrawnFor i equation) :
    IsReadAs i equation equation.readTerms where
  other_ne := drawn.other_ne
  variables_eq := by
    rw [← drawn.own_eq]
    rfl
  coefficients := by
    have agrees {coefficient : WrittenCoefficient Float} (writable : IsWritable coefficient)
        {negative negated : Bool}
        (minus : (negative != negated) = Arithmetic.less coefficient.value 0.0) :
        AgreesWith (readCoefficient negative negated coefficient.units coefficient.decimals)
          coefficient :=
      agreesWith_readCoefficient writable.plain (Nat.lt_of_lt_of_le (by decide) writable.two_le)
        writable.lt_eight minus
    exact .cons (agrees drawn.linear (Bool.false_bne _)) (.cons (agrees drawn.cross (Bool.false_bne _))
      (.cons (agrees drawn.square (Bool.false_bne _))
        (.cons (agrees drawn.constant (Bool.bne_false _)) .nil)))

end Agreement

section Systems

variable {n : Nat} {equations : Vector (SampleEquation Float n) n}

/-- No text of a system that was drawn holds the name of a trigonometric function. -/
theorem refuseTrigonometric_texts
    (drawn : ∀ i, IsDrawnFor i (equations.get i))
    (inside : n ≤ variableLimit) :
    SolveRequest.refuseTrigonometric (equations.map SampleEquation.text).toList = .ok () := by
  apply SolveRequest.refuseTrigonometric_eq_ok
  intro text member
  obtain ⟨i, small, rfl⟩ := Vector.mem_iff_getElem.mp (Vector.mem_toList_iff.mp member)
  apply SolveRequest.trigonometricName?_eq_none
  intro c inText
  have spelled : equations[i].IsSpelled := (drawn ⟨i, small⟩).isSpelled
  rw [Vector.getElem_map, SampleEquation.toList_text spelled, List.mem_append] at inText
  have plainOrSpace : c = ' ' ∨ c = '=' ∨ Text.isPlainCharacter c = true := by
    rcases inText with left | right
    · exact (SampleEquation.mem_leftCharacters spelled inside left).imp id .inr
    · simp only [List.mem_cons, List.not_mem_nil, or_false] at right
      rcases right with rfl | rfl | rfl
      · exact .inr (.inl rfl)
      · exact .inl rfl
      · exact .inr (.inr (by decide))
  rcases plainOrSpace with rfl | rfl | plain
  · decide
  · decide
  · have native := Text.not_isForeign_of_isPlainCharacter plain
    simp only [Text.isForeign, Bool.or_eq_false_iff] at native
    exact native.2

/-- The texts of a system that was drawn are read as its terms. -/
theorem ofEquations_texts
    (drawn : ∀ i, IsDrawnFor i (equations.get i))
    (inside : n ≤ variableLimit) :
    ExpressionSystem.ofEquations (equations.map SampleEquation.text) =
      .ok (equations.map SampleEquation.readTerms) :=
  ofEquations_eq_readTerms (fun i => (drawn i).isSpelled) inside

end Systems

section Sources

variable {σ : Type} [RandomSource σ Float]

/-- The equations that were drawn are as many as the variables, each of them drawn for its own. -/
theorem exists_vector_of_sampleSystem
    (bounds : KeepsBounds σ)
    {draws n : Nat}
    {source rest : σ}
    {root : Vector Float n}
    {equations : List (SampleEquation Float n)}
    (drawn : (Draw.sampleSystem draws n).run source = some ((root, equations), rest))
    (plain : ∀ equation ∈ equations, isNegativeZero equation.square.value = false) :
    ∃ entries : Vector (SampleEquation Float n) n,
      entries.toList = equations ∧ ∀ i, IsDrawnFor i (entries.get i) := by
  have related := Draw.yields_sampleSystem bounds draws n _ _ _ drawn
  obtain ⟨entries, rfl, drawnFor⟩ := exists_vector_of_forall₂ related
  refine ⟨entries, rfl, fun i => drawnFor i (plain _ ?_)⟩
  rw [Vector.get_eq_getElem, Vector.mem_toList_iff]
  exact Vector.getElem_mem i.isLt

/--
A sample system that is drawn within bounds, with no square from the zero of the minus sign, and the
starting point that is drawn after it pass the checks of a request. The texts are read as four terms
each, over the variables that were drawn, and the coefficients agree with those that were drawn.
-/
theorem sampleEquations_accepted
    (bounds : KeepsBounds σ)
    {draws n : Nat}
    (two_le : 2 ≤ n)
    (le_ten : n ≤ 10)
    {source rest last : σ}
    {root point : Vector Float n}
    {equations : List (SampleEquation Float n)}
    (drawn : (Draw.sampleSystem draws n).run source = some ((root, equations), rest))
    (plain : ∀ equation ∈ equations, isNegativeZero equation.square.value = false)
    (started : (Draw.startingPoint n).run rest = some (point, last)) :
    ∃ texts : Vector String n,
      texts.toList = equations.map SampleEquation.text ∧
        sampleEquations Float n source draws = .ok (texts.toList, rest) ∧
        SolveRequest.refuseTrigonometric texts.toList = .ok () ∧
        (∀ (epsilon limit method : JsonValue) (tolerance : Float) (count : { k : Nat // 0 < k }),
          SolveRequest.checkedEpsilon epsilon = .ok tolerance →
            SolveRequest.checkedLimit limit = .ok count →
            ∃ inputs,
              SolveRequest.checkedInputs
                  { equations := .list (texts.toList.map .text)
                    guess := .list (point.toList.map .number)
                    epsilon, method, limit } = .ok inputs ∧
                inputs.equations.toList = texts.toList ∧ inputs.guess.toList = point.toList ∧
                inputs.epsilon = tolerance ∧ inputs.limit = count.val) ∧
        ∃ system,
          ExpressionSystem.ofEquations texts = .ok system ∧
            ∀ i : Fin n, ∃ equation,
              equations[i.val]? = some equation ∧ IsReadAs i equation (system.get i) := by
  obtain ⟨entries, rfl, drawnFor⟩ := exists_vector_of_sampleSystem bounds drawn plain
  have finite := Draw.yields_startingPoint bounds n _ _ _ started
  refine ⟨entries.map SampleEquation.text, Vector.toList_map, ?_,
    refuseTrigonometric_texts drawnFor le_ten, ?_, _, ofEquations_texts drawnFor le_ten, fun i => ?_⟩
  · rw [Vector.toList_map]
    exact sampleEquations_of_sampleSystem two_le le_ten drawn
  · intro epsilon limit method tolerance count tolerable limited
    have enough : equationMinimum ≤ (entries.map SampleEquation.text).toList.length := by
      rwa [Vector.length_toList]
    have notMany : (entries.map SampleEquation.text).toList.length ≤ equationMaximum := by
      rwa [Vector.length_toList]
    exact SolveRequest.exists_checkedInputs (by simp) enough notMany finite tolerable limited method
  · refine ⟨entries.get i, by simp [Vector.get_eq_getElem], ?_⟩
    have readHere := isReadAs_readTerms (drawnFor i)
    simpa [Vector.get_eq_getElem] using readHere

end Sources

section Scripts

/-- Two equations around the point (1, 1), the square of the first one drawn from `bend`. -/
def pairScript (bend : Float) : Confined (List (ScriptEntry Float)) where
  source :=
    let scalar (share : Float) : ScriptEntry Float := { scalar := share, count := 0 }
    let count (k : Nat) : ScriptEntry Float := { scalar := 0.0, count := k }
    [scalar 0.75, scalar 0.75,
      scalar 0.5, count 1, count 2, count 1, scalar 0.0, count 2, scalar bend, count 2, scalar 0.5,
      count 2,
      scalar 0.5, count 0, count 2, count 0, scalar 0.0, count 2, scalar 0.25, count 2, scalar 0.5,
      count 2,
      scalar 0.5, scalar 0.5]

/-- The equations of the script where the first square is drawn from a quarter. -/
def scriptedPair : List (SampleEquation Float 2) :=
  let first : Fin 2 := ⟨0, Nat.two_pos⟩
  let second : Fin 2 := ⟨1, Nat.one_lt_two⟩
  [{ own := first, other := second, linear := ⟨-2.0, 2⟩, cross := ⟨-1.5, 2⟩,
      square := ⟨0.5, 2⟩, constant := ⟨3.0, 2⟩ },
    { own := second, other := first, linear := ⟨2.0, 2⟩, cross := ⟨-1.5, 2⟩,
      square := ⟨0.5, 2⟩, constant := ⟨-1.0, 2⟩ }]

/-- The scripted pair is accepted and read as the terms that it was made of. -/
theorem scriptedPair_accepted :
    ∃ (texts : Vector String 2) (rest : Confined (List (ScriptEntry Float))),
      texts.toList = scriptedPair.map SampleEquation.text ∧
        sampleEquations Float 2 (pairScript 0.25) 1 = .ok (texts.toList, rest) ∧
        SolveRequest.refuseTrigonometric texts.toList = .ok () ∧
        ∃ system,
          ExpressionSystem.ofEquations texts = .ok system ∧
            ∀ i : Fin 2, ∃ equation,
              scriptedPair[i.val]? = some equation ∧ IsReadAs i equation (system.get i) := by
  let rest : Confined (List (ScriptEntry Float)) := ⟨[⟨0.5, 0⟩, ⟨0.5, 0⟩]⟩
  have drawn :
      (Draw.sampleSystem 1 2).run (pairScript 0.25) = some ((#v[1.0, 1.0], scriptedPair), rest) := by
    decide +kernel
  have started : (Draw.startingPoint 2).run rest = some (#v[(0.0 : Float), 0.0], ⟨[]⟩) := by
    decide +kernel
  obtain ⟨texts, same, written, allowed, _, read⟩ :=
    sampleEquations_accepted (keepsBounds_confined _) (by decide) (by decide) drawn
      (by decide +kernel) started
  exact ⟨texts, rest, same, written, allowed, read⟩

/-- A square that is drawn from the zero of the minus sign is written with a bare minus sign. -/
theorem negativeZero_square_refused :
    KeepsBounds (Confined (List (ScriptEntry Float))) ∧
      ∃ (texts : Vector String 2) (rest last : Confined (List (ScriptEntry Float)))
        (point : Vector Float 2),
        sampleEquations Float 2 (pairScript (-0.0)) 1 = .ok (texts.toList, rest) ∧
          (Draw.startingPoint 2).run rest = some (point, last) ∧
          ∃ cause, ExpressionSystem.ofEquations (K := Float) texts = .error cause := by
  refine ⟨keepsBounds_confined _,
    #v["(-2.00)*x1 + (-1.50)*x1*x2 + -0.00*x1*x1 + 3.50 = 0",
      "2.00*x2 + (-1.50)*x2*x1 + 0.50*x2*x2 - 1.00 = 0"],
    ⟨[⟨0.5, 0⟩, ⟨0.5, 0⟩]⟩, ⟨[]⟩, #v[0.0, 0.0], ?_, ?_,
    .grammar "(-2.00)*x1 + (-1.50)*x1*x2 + -0.00*x1*x1 + 3.50" (.unexpectedToken .minus), ?_⟩
  · decide +kernel
  · decide +kernel
  · decide +kernel

end Scripts

end RootFinding
