import QuasiNewton.Fault.Basic
import QuasiNewton.Scalar

/-!
# Constants of the line search

The two constants of the strong Wolfe conditions and the first step that is tried. The search
itself takes any constants; `LineSearch.Options.check` accepts those for which the conditions can
be met.
-/

namespace QuasiNewton.LineSearch

variable {α : Type}

/-- What the search is tuned with. -/
structure Options (α : Type) where
  /-- The fraction of the slope by which the objective has to decrease. -/
  armijo : α
  /-- The fraction of the slope that may remain at the step. -/
  curvature : α
  /-- The first step that is tried. -/
  firstStep : α

namespace Options

variable [Scalar α]

/-- The constants that serve most objectives. -/
def standard : Options α where
  armijo := 1e-4
  curvature := 0.9
  firstStep := 1.0

/-- Accept constants that lie strictly between zero and one, the curvature constant above the
Armijo constant, and a first step that is finite and positive. The fault names the first constant
that is out of range. -/
def check (o : Options α) : Except (Fault α) Unit :=
  if ¬ (0.0 < o.armijo ∧ o.armijo < 1.0) then
    .error (.invalidConstant "c1" o.armijo "Armijo constant must lie in (0, 1).")
  else if ¬ (0.0 < o.curvature ∧ o.curvature < 1.0) then
    .error (.invalidConstant "c2" o.curvature "Curvature constant must lie in (0, 1).")
  else if ¬ o.armijo < o.curvature then
    .error (.invalidConstant "c2" o.curvature
      "Curvature constant must exceed the Armijo constant.")
  else if ¬ (Scalar.isFinite o.firstStep ∧ 0.0 < o.firstStep) then
    .error (.invalidConstant "initial_step" o.firstStep
      "Initial step must be finite and positive.")
  else
    .ok ()

/-- The constants, when they pass the check. -/
def create (armijo curvature firstStep : α) : Except (Fault α) (Options α) := do
  let o : Options α := ⟨armijo, curvature, firstStep⟩
  o.check
  return o

end Options

end QuasiNewton.LineSearch
