import QuasiNewton.Problem

/-!
# Functions that answer differently from call to call

The functions of a problem answer the same whenever they are asked at the same point. Functions in
general need not: a responder decides on an answer with all questions in view that were asked
before. A problem is a responder that takes no notice of them (`Responder.oracle_ofProblem`).
-/

namespace QuasiNewton

variable {α : Type}

/-- An objective and its gradient, whose answers may depend on the questions asked before. -/
structure Responder (α : Type) where
  value : List (Query α) → List α → Except (Fault α) α
  gradient : List (Query α) → List α → Except (Fault α) (List α)

namespace Responder

/-- Functions that take no notice of what was asked before. -/
def ofProblem (p : Problem α) : Responder α where
  value _ := p.value
  gradient _ := p.gradient

def oracle (f : Responder α) : Oracle α where
  value x := do
    let asked := (← get).queries
    Run.ask (.value x)
    Run.ofExcept (f.value asked x)
  gradient x := do
    let asked := (← get).queries
    Run.ask (.gradient x)
    Run.ofExcept (f.gradient asked x)

theorem oracle_ofProblem (p : Problem α) : (ofProblem p).oracle = p.oracle := rfl

theorem perform_value (f : Responder α) (x : List α) (j : Journal α) :
    (f.oracle.value x).perform j =
      ((f.value j.queries x).mapError .fault, j.push (.asked (.value x))) := by
  change (do Run.ask (.value x); Run.ofExcept (f.value j.queries x) : Run α α).perform j = _
  rw [Run.perform_bind, Run.perform_ask]
  cases f.value j.queries x <;> rfl

theorem perform_gradient (f : Responder α) (x : List α) (j : Journal α) :
    (f.oracle.gradient x).perform j =
      ((f.gradient j.queries x).mapError .fault, j.push (.asked (.gradient x))) := by
  change (do Run.ask (.gradient x); Run.ofExcept (f.gradient j.queries x) :
    Run α (List α)).perform j = _
  rw [Run.perform_bind, Run.perform_ask]
  cases f.gradient j.queries x <;> rfl

end Responder

end QuasiNewton
