import QuasiNewton.Fault.Basic
import QuasiNewton.Scalar

/-!
# When to stop

A run converges when the norm of the gradient falls below a tolerance, and gives up when its
budget of iterations is spent.
-/

namespace QuasiNewton

variable {α : Type}

/-- The limits of a run. -/
structure Stopping (α : Type) where
  /-- The run converges when the norm of the gradient is below this. -/
  tolerance : α
  /-- The run gives up after so many iterations. -/
  budget : Nat

namespace Stopping

variable [Scalar α]

/-- The limits that serve most objectives. -/
def standard : Stopping α where
  tolerance := 1e-6
  budget := 1000

/-- The least tolerance that is accepted. -/
def leastTolerance : α := 1e-12

/-- Accept a tolerance that is finite and not below the least one. -/
def checkTolerance (tolerance : α) : Except (Fault α) Unit :=
  if Scalar.isFinite tolerance then
    if leastTolerance ≤ tolerance then
      .ok ()
    else
      .error (.invalidTolerance tolerance "Tolerance must be at least 1e-12.")
  else
    .error (.invalidTolerance tolerance "Tolerance must be finite.")

/-- Accept a budget of at least one iteration. -/
def checkBudget (budget : Nat) : Except (Fault α) Unit :=
  if budget = 0 then
    .error (.invalidBudget budget "Maximum iterations must be greater than zero.")
  else
    .ok ()

/-- Accept limits whose tolerance and budget are accepted; the tolerance is looked at first. -/
def check (limits : Stopping α) : Except (Fault α) Unit := do
  checkTolerance limits.tolerance
  checkBudget limits.budget

end Stopping

end QuasiNewton
