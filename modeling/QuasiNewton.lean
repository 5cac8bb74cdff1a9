import QuasiNewton.Admissible
import QuasiNewton.Decimal.Layout
import QuasiNewton.Decimal.Shortest
import QuasiNewton.Descent
import QuasiNewton.Differences
import QuasiNewton.Fault.Basic
import QuasiNewton.Fault.Message
import QuasiNewton.Framework
import QuasiNewton.History
import QuasiNewton.Journal
import QuasiNewton.Lbfgs.Builder
import QuasiNewton.Lbfgs.Description
import QuasiNewton.Lbfgs.InPlace
import QuasiNewton.Lbfgs.Options
import QuasiNewton.Lbfgs.Solver
import QuasiNewton.Lbfgs.State
import QuasiNewton.LineSearch.Bracket
import QuasiNewton.LineSearch.Options
import QuasiNewton.LineSearch.Search
import QuasiNewton.Outcome
import QuasiNewton.Problem
import QuasiNewton.Proofs.Accounting
import QuasiNewton.Proofs.Agreement
import QuasiNewton.Proofs.Arithmetic
import QuasiNewton.Proofs.Course
import QuasiNewton.Proofs.Descent
import QuasiNewton.Proofs.Differences
import QuasiNewton.Proofs.Double
import QuasiNewton.Proofs.Exact.Bracketing
import QuasiNewton.Proofs.Exact.Definite
import QuasiNewton.Proofs.Exact.Equivariance
import QuasiNewton.Proofs.Exact.Interchange
import QuasiNewton.Proofs.Exact.InverseHessian
import QuasiNewton.Proofs.Exact.Isotropic
import QuasiNewton.Proofs.Exact.Motion
import QuasiNewton.Proofs.Exact.Narrowing
import QuasiNewton.Proofs.Exact.Rescaling
import QuasiNewton.Proofs.Exact.Scalar
import QuasiNewton.Proofs.Exact.Secant
import QuasiNewton.Proofs.Exact.Vector
import QuasiNewton.Proofs.Extension
import QuasiNewton.Proofs.Fitting
import QuasiNewton.Proofs.Framework
import QuasiNewton.Proofs.Halving
import QuasiNewton.Proofs.History.Built
import QuasiNewton.Proofs.History.Curvature
import QuasiNewton.Proofs.History.Offers
import QuasiNewton.Proofs.Honest
import QuasiNewton.Proofs.Infinite
import QuasiNewton.Proofs.Lbfgs.Agreement
import QuasiNewton.Proofs.Lbfgs.Builder
import QuasiNewton.Proofs.Lbfgs.Capacity
import QuasiNewton.Proofs.Lbfgs.InPlace
import QuasiNewton.Proofs.Lbfgs.Iteration
import QuasiNewton.Proofs.Lbfgs.Log
import QuasiNewton.Proofs.Lbfgs.Room
import QuasiNewton.Proofs.Lbfgs.Rules
import QuasiNewton.Proofs.Lbfgs.Shaped
import QuasiNewton.Proofs.Lbfgs.Slope
import QuasiNewton.Proofs.Lbfgs.Stall
import QuasiNewton.Proofs.Lbfgs.Tested
import QuasiNewton.Proofs.Lbfgs.Trajectory
import QuasiNewton.Proofs.LineSearch.Answers
import QuasiNewton.Proofs.LineSearch.Choice
import QuasiNewton.Proofs.LineSearch.Counting
import QuasiNewton.Proofs.LineSearch.Failures
import QuasiNewton.Proofs.LineSearch.Probes
import QuasiNewton.Proofs.LineSearch.Questions
import QuasiNewton.Proofs.LineSearch.Range
import QuasiNewton.Proofs.LineSearch.Rounds
import QuasiNewton.Proofs.LineSearch.Transport
import QuasiNewton.Proofs.LineSearch.Trials
import QuasiNewton.Proofs.Lockstep
import QuasiNewton.Proofs.Oracle
import QuasiNewton.Proofs.Preservation
import QuasiNewton.Proofs.Provenance
import QuasiNewton.Proofs.Quotient
import QuasiNewton.Proofs.Responder
import QuasiNewton.Proofs.Run
import QuasiNewton.Proofs.Transport
import QuasiNewton.Proofs.Triple
import QuasiNewton.Proofs.Unfinished
import QuasiNewton.Proofs.Validity
import QuasiNewton.Proofs.Visits
import QuasiNewton.Proofs.WellBehaved
import QuasiNewton.Proofs.Zero
import QuasiNewton.Responder
import QuasiNewton.Run
import QuasiNewton.Scalar
import QuasiNewton.SteepestDescent
import QuasiNewton.Stopping
import QuasiNewton.Vector.Arithmetic
import QuasiNewton.Vector.Basic
