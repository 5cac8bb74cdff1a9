import QuasiNewton.Problem

/-!
# Problems stated in a framework

A problem may be stated for another optimisation framework, whose functions fail in its own way:
with a complaint that has a name, with a fault that was handed to the framework, or with anything
else. Such a failure is read as a fault, so that a solver sees what it would see if the functions
reported the faults themselves.
-/

namespace QuasiNewton

/-- A failure as the framework reports it. -/
inductive FrameworkFailure (α : Type) where
  /-- A complaint that the framework has a name for. -/
  | complaint (complaint : Complaint) (text : String)
  /-- A fault that was handed to the framework. -/
  | carried (fault : Fault α)
  /-- Any other failure, with its text. -/
  | other (text : String)

variable {α : Type}

/-- Hand a fault to the framework. -/
def Fault.toFramework (f : Fault α) : FrameworkFailure α :=
  .carried f

/-- Read a failure of the framework. -/
def FrameworkFailure.toFault : FrameworkFailure α → Fault α
  | complaint c text => .framework c text
  | carried f => f
  | other text => .foreign text

@[simp] theorem Fault.toFault_toFramework (f : Fault α) : f.toFramework.toFault = f := rfl

/-- An objective and its gradient, as the framework states them. -/
structure FrameworkProblem (α : Type) where
  cost : List α → Except (FrameworkFailure α) α
  gradient : List α → Except (FrameworkFailure α) (List α)

/-- The same functions, with their failures read as faults. -/
def FrameworkProblem.toProblem (p : FrameworkProblem α) : Problem α where
  value x := (p.cost x).mapError FrameworkFailure.toFault
  gradient x := (p.gradient x).mapError FrameworkFailure.toFault

end QuasiNewton
