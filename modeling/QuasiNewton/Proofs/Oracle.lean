import QuasiNewton.Problem
import QuasiNewton.Proofs.Run

/-!
# Answers of a checked oracle

What a solver learns when a question to a checked oracle is answered: the answer is that of the
problem, and it is admissible. The journal then holds the question and one more in the tally.
-/

namespace QuasiNewton

variable {α : Type}

def Query.isValue : Query α → Bool
  | value _ => true
  | gradient _ => false

def Query.isGradient : Query α → Bool
  | value _ => false
  | gradient _ => true

/-- A fault becomes a stop, and an answer remains what it is. -/
theorem mapError_eq_ok_iff {β : Type} {e : Except (Fault α) β} {b : β} :
    e.mapError Stop.fault = .ok b ↔ e = .ok b := by
  cases e with
  | ok c =>
    constructor
    · rintro ⟨⟩
      rfl
    · rintro ⟨⟩
      rfl
  | error f =>
    constructor
    · rintro ⟨⟩
    · rintro ⟨⟩

namespace Problem

variable {p : Problem α} {x : List α} {j j' : Journal α}

theorem perform_value_eq_ok_iff {v : α} :
    (p.oracle.value x).perform j = (.ok v, j') ↔
      p.value x = .ok v ∧ j' = j.push (.asked (.value x)) := by
  rw [perform_value, Prod.mk.injEq, mapError_eq_ok_iff, eq_comm (a := j')]

theorem perform_gradient_eq_ok_iff {g : List α} :
    (p.oracle.gradient x).perform j = (.ok g, j') ↔
      p.gradient x = .ok g ∧ j' = j.push (.asked (.gradient x)) := by
  rw [perform_gradient, Prod.mk.injEq, mapError_eq_ok_iff, eq_comm (a := j')]

variable [Scalar α]

/-- The admissible value of the objective at `x` is `v`. -/
structure ValueAt (p : Problem α) (x : List α) (v : α) : Prop where
  eq_ok : p.value x = .ok v
  finite : Scalar.isFinite v = true

/-- The admissible gradient at `x` is `g`, with `n` entries. -/
structure GradientAt (p : Problem α) (n : Nat) (x g : List α) : Prop where
  eq_ok : p.gradient x = .ok g
  length_eq : g.length = n
  finite : ∀ a ∈ g, Scalar.isFinite a = true

theorem perform_checked_value_eq_ok_iff {n : Nat} {v : α} :
    ((p.oracle.checked n).value x).perform j = (.ok v, j') ↔
      p.ValueAt x v ∧ j' = j.countValue.push (.asked (.value x)) := by
  rw [Oracle.checked, Run.perform_amend_check_eq_ok_iff, perform_value_eq_ok_iff,
    checkValue_eq_ok_iff]
  constructor
  · rintro ⟨⟨hv, hj⟩, hfin⟩
    exact ⟨⟨hv, hfin⟩, hj⟩
  · rintro ⟨⟨hv, hfin⟩, hj⟩
    exact ⟨⟨hv, hj⟩, hfin⟩

theorem perform_checked_gradient_eq_ok_iff {n : Nat} {g : List α} :
    ((p.oracle.checked n).gradient x).perform j = (.ok g, j') ↔
      p.GradientAt n x g ∧ j' = j.countGradient.push (.asked (.gradient x)) := by
  rw [Oracle.checked, Run.perform_amend_check_eq_ok_iff, perform_gradient_eq_ok_iff,
    checkGradient_eq_ok_iff]
  constructor
  · rintro ⟨⟨hg, hj⟩, hlen, hfin⟩
    exact ⟨⟨hg, hlen, hfin⟩, hj⟩
  · rintro ⟨⟨hg, hlen, hfin⟩, hj⟩
    exact ⟨⟨hg, hj⟩, hlen, hfin⟩

/-! ### An example -/

/-- The objective `x² + 10 y²` with its gradient. -/
def valley : Problem α :=
  .ofFunctions
    (fun x => orderedSum (List.zipWith (fun w a => w * (a * a)) [1.0, 10.0] x))
    (List.zipWith (fun w a => 2.0 * w * a) [1.0, 10.0])

end Problem

end QuasiNewton
