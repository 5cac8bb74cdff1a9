import QuasiNewton.Admissible

/-!
# Outcomes

The result of a run: where it ended, what was found there, and why it ended. An outcome is made
only of a point and a value that are admissible.
-/

namespace QuasiNewton

/-- Why a run ended, or that it did not. -/
inductive Termination where
  | running
  | converged
  | budgetSpent
  | targetReached
  | interrupted
  | timedOut
  /-- The solver gives a reason of its own. -/
  | exited (reason : String)
deriving DecidableEq, Repr

def Termination.text : Termination → String
  | running => "Not terminated"
  | converged => "Solver converged"
  | budgetSpent => "Maximum number of iterations reached"
  | targetReached => "Target cost value reached"
  | interrupted => "Interrupt"
  | timedOut => "Timeout reached"
  | exited reason => reason

/-- The result of a run. -/
structure Outcome (α : Type) where
  /-- The last point. -/
  point : List α
  /-- The value of the objective at the point. -/
  value : α
  termination : Termination
  iterations : Nat
  /-- How often the functions were evaluated, by name. -/
  evaluations : List (String × Nat)
  /-- The norm of the gradient at the point. -/
  gradNorm : α
deriving DecidableEq, Repr

namespace Outcome

variable {α : Type}

/-- The outcome, if its point and its value are admissible; the point is looked at first. -/
def create [Scalar α] (point : List α) (value : α) (termination : Termination)
    (iterations : Nat) (evaluations : List (String × Nat)) (gradNorm : α) :
    Except (Fault α) (Outcome α) := do
  checkPoint point
  checkValue value
  return ⟨point, value, termination, iterations, evaluations, gradNorm⟩

/-- Whether the run ended because the gradient was small enough. -/
def converged (o : Outcome α) : Bool :=
  o.termination = .converged

def status (o : Outcome α) : String :=
  o.termination.text

/-- The value with the point at which it was found. -/
def toPair (o : Outcome α) : α × List α :=
  (o.value, o.point)

end Outcome

end QuasiNewton
