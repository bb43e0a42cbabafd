import RootFinding.Cancellation
import RootFinding.CommandLine.Arguments
import RootFinding.CommandLine.Command
import RootFinding.CommandLine.Words
import RootFinding.CostModel
import RootFinding.CostModel.Quantity
import RootFinding.Deadline
import RootFinding.Decimal.Exact
import RootFinding.Decimal.Layout
import RootFinding.Decimal.Nearest
import RootFinding.Decimal.Numeral
import RootFinding.Decimal.Rounding
import RootFinding.Decimal.Shortest
import RootFinding.Expression.Basic
import RootFinding.Expression.Equation
import RootFinding.Expression.Grammar
import RootFinding.Expression.Token
import RootFinding.FiniteDifference
import RootFinding.Formula.Basic
import RootFinding.Formula.Grammar
import RootFinding.Formula.Lexeme
import RootFinding.Iteration.Event
import RootFinding.Iteration.Loose
import RootFinding.Iteration.Misfit
import RootFinding.Iteration.Newton
import RootFinding.Iteration.Run
import RootFinding.Iteration.Secant
import RootFinding.Iteration.State
import RootFinding.Json.Encoding
import RootFinding.Json.Reader
import RootFinding.Json.Value
import RootFinding.Json.Writer
import RootFinding.LineSearch
import RootFinding.Linear.Elimination
import RootFinding.Linear.Vector
import RootFinding.Main
import RootFinding.Proofs.CostModel.Monotone
import RootFinding.Proofs.CostModel.Solves
import RootFinding.Proofs.Decimal.Nearest
import RootFinding.Proofs.Decimal.Order
import RootFinding.Proofs.Decimal.Shortest
import RootFinding.Proofs.Double.Bits
import RootFinding.Proofs.Double.Decimal
import RootFinding.Proofs.Double.Exact
import RootFinding.Proofs.Double.Finite
import RootFinding.Proofs.Double.Magnitude
import RootFinding.Proofs.Double.Nearest
import RootFinding.Proofs.Double.Norm
import RootFinding.Proofs.Double.Order
import RootFinding.Proofs.Double.Packing
import RootFinding.Proofs.Double.Plain
import RootFinding.Proofs.Double.Range
import RootFinding.Proofs.Double.Reading
import RootFinding.Proofs.Double.Rounding
import RootFinding.Proofs.Double.Shrinking
import RootFinding.Proofs.Double.Sign
import RootFinding.Proofs.Double.Undefined
import RootFinding.Proofs.Double.Within
import RootFinding.Proofs.Exact.Affine
import RootFinding.Proofs.Exact.Curvature
import RootFinding.Proofs.Exact.Deviation
import RootFinding.Proofs.Exact.Distance
import RootFinding.Proofs.Exact.Elimination
import RootFinding.Proofs.Exact.Field
import RootFinding.Proofs.Exact.Growth
import RootFinding.Proofs.Exact.LeastChange
import RootFinding.Proofs.Exact.Norm
import RootFinding.Proofs.Exact.OneStep
import RootFinding.Proofs.Exact.Reach
import RootFinding.Proofs.Exact.Reordering
import RootFinding.Proofs.Formula.Cutting
import RootFinding.Proofs.Formula.Layout
import RootFinding.Proofs.Formula.Lexing
import RootFinding.Proofs.Formula.Names
import RootFinding.Proofs.Formula.Reading
import RootFinding.Proofs.Formula.Recognition
import RootFinding.Proofs.Formula.Separation
import RootFinding.Proofs.Formula.Spelling
import RootFinding.Proofs.Grammar.Characters
import RootFinding.Proofs.Grammar.Correctness
import RootFinding.Proofs.Grammar.Derivation
import RootFinding.Proofs.Grammar.Recognition
import RootFinding.Proofs.Grammar.Scope
import RootFinding.Proofs.Grammar.Words
import RootFinding.Proofs.Guarded.Basic
import RootFinding.Proofs.Guarded.Divisors
import RootFinding.Proofs.Guarded.Elimination
import RootFinding.Proofs.Guarded.Evaluation
import RootFinding.Proofs.Guarded.Newton
import RootFinding.Proofs.Guarded.Run
import RootFinding.Proofs.Guarded.Safety
import RootFinding.Proofs.Guarded.Secant
import RootFinding.Proofs.Iteration.Cancellation
import RootFinding.Proofs.Iteration.Consistency
import RootFinding.Proofs.Iteration.Count
import RootFinding.Proofs.Iteration.Exits
import RootFinding.Proofs.Iteration.Fallback
import RootFinding.Proofs.Iteration.Improvement
import RootFinding.Proofs.Iteration.Learning
import RootFinding.Proofs.Iteration.Lockstep
import RootFinding.Proofs.Iteration.Measurement
import RootFinding.Proofs.Iteration.Reachability
import RootFinding.Proofs.Iteration.Restarts
import RootFinding.Proofs.Iteration.Resumption
import RootFinding.Proofs.Iteration.Stalling
import RootFinding.Proofs.Iteration.Transcript
import RootFinding.Proofs.Iteration.Truncation
import RootFinding.Proofs.Iteration.Turns
import RootFinding.Proofs.Iteration.Verdict
import RootFinding.Proofs.Json.Acceptance
import RootFinding.Proofs.Json.Derivation
import RootFinding.Proofs.Json.Number
import RootFinding.Proofs.Json.Recognition
import RootFinding.Proofs.Json.Record
import RootFinding.Proofs.Json.RoundTrip
import RootFinding.Proofs.Json.Text
import RootFinding.Proofs.Json.Writing
import RootFinding.Proofs.LineSearch.Decrease
import RootFinding.Proofs.Linear.Overflow
import RootFinding.Proofs.Linear.Pivots
import RootFinding.Proofs.Outcome
import RootFinding.Proofs.Procedure.Accounting
import RootFinding.Proofs.Procedure.Basic
import RootFinding.Proofs.Procedure.Descent
import RootFinding.Proofs.Procedure.Evaluation
import RootFinding.Proofs.Procedure.Method
import RootFinding.Proofs.Procedure.Newton
import RootFinding.Proofs.Procedure.Run
import RootFinding.Proofs.Procedure.Secant
import RootFinding.Proofs.Procedure.Trail
import RootFinding.Proofs.Request.Acceptance
import RootFinding.Proofs.Request.Filtering
import RootFinding.Proofs.Request.Refusal
import RootFinding.Proofs.Request.Sufficiency
import RootFinding.Proofs.Sample.Balance
import RootFinding.Proofs.Sample.Coefficient
import RootFinding.Proofs.Sample.Digits
import RootFinding.Proofs.Sample.Drawing
import RootFinding.Proofs.Sample.NearRoot
import RootFinding.Proofs.Sample.Redraws
import RootFinding.Proofs.Sample.Validity
import RootFinding.Proofs.Sample.Writing
import RootFinding.Proofs.Service.Boundary
import RootFinding.Proofs.Service.Refusal
import RootFinding.Proofs.Service.Success
import RootFinding.Proofs.Settings.Store
import RootFinding.Proofs.Settings.Tolerance
import RootFinding.Proofs.Verification.Agreement
import RootFinding.Proofs.Verification.Readable
import RootFinding.Random.Permuted
import RootFinding.Random.Source
import RootFinding.Request
import RootFinding.Sample
import RootFinding.Scalar
import RootFinding.Service.Endpoints
import RootFinding.Service.Exchange
import RootFinding.Service.Fields
import RootFinding.Service.NumberText
import RootFinding.Service.Target
import RootFinding.Settings
import RootFinding.Solve
import RootFinding.Text.Blank
import RootFinding.Text.Digit
import RootFinding.Text.Letters
import RootFinding.Text.Printable
import RootFinding.Text.Quoted
import RootFinding.Verification
