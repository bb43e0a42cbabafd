import RootFinding.Proofs.Guarded.Newton
import RootFinding.Proofs.Guarded.Secant
import RootFinding.Proofs.Iteration.Count
import RootFinding.Proofs.Request.Acceptance

/-!
# Accepted requests never fail

The equations of an accepted request are read to terms that keep to its variables, so the guarded
run on these very terms meets no fault and reports what the solver answers. A run that nobody
cancels returns after at least one turn and at most as many as it was allowed.
-/

namespace RootFinding

open Outcome

namespace Guarded

/-- The terms of the left-hand side of an equation, over all variable numbers. -/
def terms
    {K : Type}
    [Arithmetic K]
    (equation : String) :
    Except ParseError (Expression K (Fin variableLimit)) := do
  Expression.parse (← Equation.leftSide equation)

def runMethod
    {K : Type}
    [Scalar K]
    {bound : Nat} :
    Method →
    List (Expression K (Fin bound)) →
    Array K →
    (epsilon : K) →
    (limit : Int) →
    Checked K (Report K)
  | .newton => Newton.runFrom
  | .secant => Secant.runFrom

section Reading

variable {K : Type} [Arithmetic K] {n : Nat}

/-- An equation of a system was read to terms before they were compared with its size. -/
theorem exists_terms_of_parseWithin
    {equation : String}
    {fitted : Expression K (Fin n)}
    (read :
      (do Expression.parseWithin n (← Equation.leftSide equation)) =
        (.ok fitted : Except ParseError (Expression K (Fin n)))) :
    ∃ expression, terms equation = .ok expression ∧ expression.restrict? n = .ok fitted := by
  obtain ⟨left, split, read⟩ := bind_eq_ok_iff.mp read
  obtain ⟨expression, parsed, within⟩ := bind_eq_ok_iff.mp read
  refine ⟨expression, ?_, mapError_eq_ok_iff.mp within⟩
  rw [terms, split]
  exact parsed

/-- Equations that are read within a size are first read without it and then restricted. -/
private theorem exists_terms_of_mapM_parseWithin
    {equations : List String}
    {fitted : List (Expression K (Fin n))}
    (read :
      equations.mapM (fun equation => do
          Expression.parseWithin n (← Equation.leftSide equation)) =
        .ok fitted) :
    ∃ expressions,
      equations.mapM terms = .ok expressions ∧
        List.Forall₂ (fun expression fitted => expression.restrict? n = .ok fitted)
          expressions fitted := by
  simp only [mapM_eq_ok_iff] at read ⊢
  induction read with
  | nil =>
      exact ⟨[], .nil, .nil⟩
  | cons first _ inductionHypothesis =>
      obtain ⟨expression, readFirst, fits⟩ := exists_terms_of_parseWithin first
      obtain ⟨expressions, readRest, fitRest⟩ := inductionHypothesis
      exact ⟨expression :: expressions, .cons readFirst readRest, .cons fits fitRest⟩

/-- A system that was read is one of terms that were read and keep to its variables. -/
theorem exists_terms_of_ofEquations
    {equations : Vector String n}
    {system : ExpressionSystem K n n}
    (read : ExpressionSystem.ofEquations equations = .ok system) :
    ∃ expressions,
      equations.toList.mapM terms = .ok expressions ∧ AreTermsOf expressions system :=
  exists_terms_of_mapM_parseWithin (toList_mapM_eq_ok read)

end Reading

/-- A guarded run of either method reports what the run returns. -/
theorem runMethod_toArray
    {K : Type}
    [Scalar K]
    [SafeDivisors K]
    {bound n : Nat}
    {expressions : List (Expression K (Fin bound))}
    {system : ExpressionSystem K n n}
    (areTerms : AreTermsOf expressions system)
    {method : Method}
    {x : Vector K n}
    {epsilon : K}
    {limit : Int}
    {result : SolveResult K n}
    (returned :
      (method.run system x epsilon limit PollAnswers.never).ending = .returned result) :
    runMethod method expressions x.toArray epsilon limit = .ok ⟨n, result⟩ := by
  cases method with
  | newton =>
      exact Newton.runFrom_toArray areTerms x epsilon limit returned
  | secant =>
      exact Secant.runFrom_toArray areTerms x epsilon limit returned

/-- A third variable is missed at a point of two entries. -/
example :
    runMethod (K := Float) .newton [[⟨1.0, .single (2 : Fin 3)⟩], []] #[0.0, 0.0] 0.01 10 =
      .error (.missingEntry 2) := by
  rfl

end Guarded

/-- The answer to an accepted request is what its run came to. -/
theorem SolveRequest.outcome_of_prepare
    {request : SolveRequest}
    {prepared : PreparedSolve}
    {polls : PollAnswers}
    {result : SolveResult Float prepared.size}
    (accepted : request.prepare = .ok prepared)
    (returned : (prepared.run polls).ending = .returned result) :
    (request.answer polls).outcome = .ok ⟨prepared.size, result⟩ := by
  simp only [SolveRequest.answer, accepted, Run.answer, returned]

/--
A request that passes every check is answered by a result. The guarded run on the terms of its own
equations comes to the same result, so no fault was possible on the way.
-/
theorem wellFormed_request_returns
    {request : SolveRequest}
    {inputs : CheckedInputs}
    {method : Method}
    {system : ExpressionSystem Float inputs.size inputs.size}
    (checked : request.checkedInputs = .ok inputs)
    (named : SolveRequest.checkedMethod request.method = .ok method)
    (allowed : SolveRequest.refuseTrigonometric inputs.equations.toList = .ok ())
    (read : ExpressionSystem.ofEquations inputs.equations = .ok system) :
    ∃ expressions result,
      inputs.equations.toList.mapM Guarded.terms = .ok expressions ∧
        Guarded.runMethod method expressions inputs.guess.toArray inputs.epsilon inputs.limit =
          .ok ⟨inputs.size, result⟩ ∧
        (request.answer .never).outcome = .ok ⟨inputs.size, result⟩ ∧
        result.solution.toArray.size = (SolveRequest.items request.equations).length ∧
        request.limit = .integer inputs.limit ∧
        1 ≤ result.iterations ∧
        result.iterations ≤ inputs.limit ∧
        (∃ word,
          request.method = .text word ∧ Text.lowered (Text.trimmed word) = method.key) ∧
        result.methodUsed = method.label := by
  have accepted :
      request.prepare = .ok { toCheckedInputs := inputs, method, system } :=
    SolveRequest.prepare_eq_ok_iff.mpr ⟨checked, named, allowed, read⟩
  obtain ⟨expressions, termsRead, areTerms⟩ := Guarded.exists_terms_of_ofEquations read
  obtain ⟨result, returned⟩ :=
    method.exists_returned system inputs.guess inputs.epsilon inputs.limit
  have guarded := Guarded.runMethod_toArray areTerms returned
  have answered := SolveRequest.outcome_of_prepare accepted returned
  have isOf := Method.isOf_of_returned inputs.limit_pos returned
  have size :
      result.solution.toArray.size = (SolveRequest.items request.equations).length := by
    rw [result.solution.size_toArray, SolveRequest.length_items_equations checked]
  exact ⟨expressions, result, termsRead, guarded, answered, size,
    SolveRequest.limit_eq_integer checked, isOf.one_le_iterations, isOf.iterations_le,
    SolveRequest.exists_key_of_checkedMethod named, isOf.methodUsed_eq⟩

/-- The request to find two numbers of sum three and product two by the secant method. -/
def sumAndProduct : SolveRequest where
  equations := .list [.text "x1 + x2 - 3 = 0", .text "x1*x2 - 2 = 0"]
  guess := .list [.integer 1, .number 1.5]
  epsilon := .number 1e-6
  method := .text " Secant "
  limit := .integer 60

/-- Its parts after the checks. -/
def sumAndProductInputs : CheckedInputs where
  size := 2
  equations := #v["x1 + x2 - 3 = 0", "x1*x2 - 2 = 0"]
  guess := #v[1.0, 1.5]
  epsilon := 1e-6
  limit := 60
  equationMinimum_le := by decide
  le_equationMaximum := by decide
  limit_pos := by decide

/-- The request passes every check, so it is answered by a result of the secant method. -/
theorem sumAndProduct_returns :
    let system : ExpressionSystem Float 2 2 :=
      #v[[⟨1.0, .single 0⟩, ⟨1.0, .single 1⟩, ⟨-3.0, .one⟩],
        [⟨1.0, .product 0 1⟩, ⟨-2.0, .one⟩]]
    sumAndProduct.checkedInputs = .ok sumAndProductInputs ∧
      SolveRequest.checkedMethod sumAndProduct.method = .ok .secant ∧
      SolveRequest.refuseTrigonometric sumAndProductInputs.equations.toList = .ok () ∧
      ExpressionSystem.ofEquations sumAndProductInputs.equations = .ok system ∧
      ∃ result,
        (sumAndProduct.answer .never).outcome = .ok ⟨2, result⟩ ∧
          1 ≤ result.iterations ∧
          result.iterations ≤ 60 ∧
          result.methodUsed = "Secant" := by
  intro system
  have checked : sumAndProduct.checkedInputs = .ok sumAndProductInputs := rfl
  have named : SolveRequest.checkedMethod sumAndProduct.method = .ok .secant := by
    decide +kernel
  have allowed :
      SolveRequest.refuseTrigonometric sumAndProductInputs.equations.toList = .ok () := by
    decide +kernel
  have read : ExpressionSystem.ofEquations sumAndProductInputs.equations = .ok system := by
    decide +kernel
  obtain ⟨_, result, _, _, answered, _, _, atLeast, atMost, _, methodUsed⟩ :=
    wellFormed_request_returns checked named allowed read
  exact ⟨checked, named, allowed, read, result, answered, atLeast, atMost, methodUsed⟩

end RootFinding
