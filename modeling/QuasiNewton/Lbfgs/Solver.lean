import QuasiNewton.Lbfgs.Options
import QuasiNewton.Lbfgs.State

/-!
# The L-BFGS solver

A solver holds options that have passed their check, and serves any number of runs.
-/

namespace QuasiNewton

variable {α : Type}

/-- A limited-memory quasi-Newton solver. -/
structure Lbfgs (α : Type) where
  options : Lbfgs.Options α

namespace Lbfgs

variable [Scalar α]

/-- The solver with these options, if they pass the check. -/
def create (options : Options α) : Except (Fault α) (Lbfgs α) := do
  options.check
  return ⟨options⟩

/-- The solver with the standard options overwritten by the settings, one after the other. -/
def build (settings : List (Setting α)) : Except (Fault α) (Lbfgs α) :=
  create (.ofSettings settings)

def standard : Lbfgs α :=
  ⟨.standard⟩

def method (A : Arithmetic α) (solver : Lbfgs α) : Method α (State α) where
  name := name
  start := State.create solver.options.memory
  iterate := State.toIterate
  stored s := s.history.size
  advance := State.advance A solver.options.lineSearch

/-- Minimize the objective from `x₀`. -/
def minimize (A : Arithmetic α) (solver : Lbfgs α) (o : Oracle α) (x₀ : List α) :
    Run α (Outcome α) :=
  (solver.method A).minimize solver.options.toStopping o x₀

/-- Build a solver for one run. Options that do not pass the check are refused before the start
point is looked at. -/
def minimizeWith (A : Arithmetic α) (options : Options α) (o : Oracle α) (x₀ : List α) :
    Run α (Outcome α) := do
  let solver ← Run.ofExcept (create options)
  solver.minimize A o x₀

end Lbfgs

end QuasiNewton
