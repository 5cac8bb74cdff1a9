import QuasiNewton.Descent
import QuasiNewton.LineSearch.Search

/-!
# Steepest descent

The plain method: always search against the gradient, with the line search and the limits that
the quasi-Newton method has, and remember nothing.
-/

namespace QuasiNewton

variable {α : Type}

/-- A solver that searches against the gradient. -/
structure SteepestDescent (α : Type) extends Stopping α where
  lineSearch : LineSearch.Options α

namespace SteepestDescent

variable [Scalar α]

/-- The solver, if its limits pass their check. The constants of the line search are taken as
they are. -/
def create (tolerance : α) (budget : Nat) (lineSearch : LineSearch.Options α) :
    Except (Fault α) (SteepestDescent α) := do
  let solver : SteepestDescent α := ⟨⟨tolerance, budget⟩, lineSearch⟩
  solver.toStopping.check
  return solver

def standard : SteepestDescent α :=
  ⟨.standard, .standard⟩

/-- Perform one iteration; the answer is the next iterate and the step that led to it. -/
def advance (A : Arithmetic α) (opts : LineSearch.Options α) (o : Oracle α) (i : Iterate α) :
    Run α (Iterate α × α) := do
  let direction := scale i.gradient (-1.0)
  let step ← LineSearch.search A opts o i.point direction i.gradient
  let point ← Run.ofOption (A.addScaled i.point direction step)
  let gradient ← o.gradient point
  return (⟨point, gradient, i.iteration + 1⟩, step)

def method (A : Arithmetic α) (solver : SteepestDescent α) : Method α (Iterate α) where
  name := "steepest descent"
  start x g := some ⟨x, g, 0⟩
  iterate := id
  stored _ := 0
  advance := advance A solver.lineSearch

theorem iteration_of_start {A : Arithmetic α} {solver : SteepestDescent α} {x g : List α}
    {i : Iterate α} (h : (solver.method A).start x g = some i) : i.iteration = 0 := by
  cases h
  rfl

/-- Minimize the objective from `x₀`. -/
def minimize (A : Arithmetic α) (solver : SteepestDescent α) (o : Oracle α) (x₀ : List α) :
    Run α (Outcome α) :=
  (solver.method A).minimize solver.toStopping o x₀

end SteepestDescent

end QuasiNewton
