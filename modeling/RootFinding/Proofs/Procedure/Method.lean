import RootFinding.Proofs.Procedure.Newton
import RootFinding.Proofs.Procedure.Secant
import RootFinding.Solve

/-!
# Methods as procedures

Either method is a procedure that comes to the run of the method, whatever the system.
-/

namespace RootFinding

namespace Method

variable {K : Type} [Scalar K] {n : Nat}

/-- A method as a procedure. -/
def procedure :
    Method →
    Vector K n →
    (epsilon : K) →
    (limit : Int) →
    PollAnswers →
    Procedure K n (Run K (SolveResult K n))
  | .newton => Procedure.Newton.run
  | .secant => Procedure.Secant.run

/-- The procedure of a method computes its run. -/
theorem value_procedure
    (method : Method)
    (system : ExpressionSystem K n n)
    (x : Vector K n)
    (epsilon : K)
    (limit : Int)
    (polls : PollAnswers) :
    (method.procedure x epsilon limit polls).value system =
      method.run system x epsilon limit polls := by
  cases method with
  | newton => exact Procedure.Newton.value_run system x epsilon limit polls
  | secant => exact Procedure.Secant.value_run system x epsilon limit polls

end Method

end RootFinding
