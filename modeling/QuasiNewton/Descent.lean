import QuasiNewton.Outcome
import QuasiNewton.Problem
import QuasiNewton.Stopping

/-!
# Descent

What all solvers have in common. A method goes from iterate to iterate; the run ends when the
gradient is small enough or the budget is spent, and the objective is evaluated once at the point
where it ends. The method sees the caller's functions only through a checked oracle, so that all
it computes with is admissible and all it asks is counted.
-/

namespace QuasiNewton

variable {α : Type} [Scalar α]

/-- A point with its gradient, and the number of iterations that led to it. -/
structure Iterate (α : Type) where
  point : List α
  gradient : List α
  iteration : Nat

/-- A way to go from one state to the next. -/
structure Method (α σ : Type) where
  /-- The name under which the method makes records. -/
  name : String
  /-- The state at a point whose gradient is known, before the first iteration, if there is room
  for it. -/
  start : List α → List α → Option σ
  iterate : σ → Iterate α
  /-- How many pairs the state remembers. -/
  stored : σ → Nat
  /-- Perform one iteration; the answer is the next state and the step that led to it. -/
  advance : Oracle α → σ → Run α (σ × α)

namespace Method

variable {σ : Type}

def gradNorm (m : Method α σ) (s : σ) : α :=
  norm (m.iterate s).gradient

/-- The record of an iteration that ended in state `s`. -/
def iterationRecord (m : Method α σ) (s : σ) (step : α) : Record α :=
  .iteration m.name (m.iterate s).iteration (m.gradNorm s) step (m.stored s)

/-- Iterate until the gradient is small enough or no iteration is left. -/
def descend (m : Method α σ) (tolerance : α) (o : Oracle α) :
    Nat → σ → Run α (Termination × σ)
  | left, s =>
    if m.gradNorm s < tolerance then
      pure (.converged, s)
    else
      match left with
      | 0 => pure (.budgetSpent, s)
      | left + 1 => do
        let (s, step) ← m.advance o s
        Run.note (m.iterationRecord s step)
        m.descend tolerance o left s

/-- Evaluate the objective where the run ended, and make the last record and the outcome. -/
def conclude (m : Method α σ) (o : Oracle α) (termination : Termination) (s : σ) :
    Run α (Outcome α) := do
  let last := m.iterate s
  let value ← o.value last.point
  Run.note (.terminated m.name termination.text last.iteration value (m.gradNorm s))
  let tally ← Run.tally
  Run.ofExcept
    (Outcome.create last.point value termination last.iteration tally.named (m.gradNorm s))

/-- Minimize the objective from `x₀`. The start point is checked before anything is asked. -/
def minimize (m : Method α σ) (limits : Stopping α) (o : Oracle α) (x₀ : List α) :
    Run α (Outcome α) := do
  Run.ofExcept (checkPoint x₀)
  -- what earlier runs evaluated is not counted
  Run.amend Journal.resetTally
  let o := o.checked x₀.length
  let g₀ ← o.gradient x₀
  let s₀ ← Run.reserve (m.start x₀ g₀)
  let (termination, s) ← m.descend limits.tolerance o limits.budget s₀
  m.conclude o termination s

end Method

end QuasiNewton
