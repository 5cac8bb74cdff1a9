import QuasiNewton.Admissible
import QuasiNewton.Run

/-!
# Problems and oracles

A problem is an objective with its gradient, both deterministic, either of which may fail at a
point. A solver sees it through an oracle, which enters every question into the journal of the
run. A checked oracle counts the questions as well, and refuses answers that are not admissible.
-/

namespace QuasiNewton

variable {α : Type}

/-- An objective and its gradient. -/
structure Problem (α : Type) where
  value : List α → Except (Fault α) α
  gradient : List α → Except (Fault α) (List α)

/-- The problem of two functions that never fail. -/
def Problem.ofFunctions (value : List α → α) (gradient : List α → List α) : Problem α where
  value x := .ok (value x)
  gradient x := .ok (gradient x)

/-- What a solver may ask in the course of a run. -/
structure Oracle (α : Type) where
  value : List α → Run α α
  gradient : List α → Run α (List α)

def Problem.oracle (p : Problem α) : Oracle α where
  value x := do
    Run.ask (.value x)
    Run.ofExcept (p.value x)
  gradient x := do
    Run.ask (.gradient x)
    Run.ofExcept (p.gradient x)

/-- Count every question, also one that fails, and then check the answer: the value is finite,
the gradient has `dim` entries and they are finite. -/
def Oracle.checked [Scalar α] (dim : Nat) (o : Oracle α) : Oracle α where
  value x := do
    Run.amend Journal.countValue
    let v ← o.value x
    Run.ofExcept (checkValue v)
    pure v
  gradient x := do
    Run.amend Journal.countGradient
    let g ← o.gradient x
    Run.ofExcept (checkGradient dim g)
    pure g

theorem Problem.perform_value (p : Problem α) (x : List α) (j : Journal α) :
    (p.oracle.value x).perform j =
      ((p.value x).mapError .fault, j.push (.asked (.value x))) := by
  unfold Problem.oracle
  cases h : p.value x <;> simp only [Run.perform_bind, Run.perform_ask, h] <;> rfl

theorem Problem.perform_gradient (p : Problem α) (x : List α) (j : Journal α) :
    (p.oracle.gradient x).perform j =
      ((p.gradient x).mapError .fault, j.push (.asked (.gradient x))) := by
  unfold Problem.oracle
  cases h : p.gradient x <;> simp only [Run.perform_bind, Run.perform_ask, h] <;> rfl

end QuasiNewton
