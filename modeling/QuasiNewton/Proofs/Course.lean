import QuasiNewton.Lbfgs.Solver
import QuasiNewton.Proofs.Honest
import QuasiNewton.Proofs.LineSearch.Questions

/-!
# The course of a run

The iterations that a run makes, each with the search and the point to which it moved. Both solvers
iterate in the same manner (`Method.Searches`): a search along the direction of the state, the move
that it chooses, and one question for the gradient where the move ends. So the loop of a solver
takes a course (`Method.Searches.exists_course`), and the course tells what was asked, in order
(`Method.Course.asks`).
-/

namespace QuasiNewton

open LineSearch

variable {α : Type}

/-- What one iteration looks at: its search, and the point at which the next one begins. -/
structure Stage (α : Type) where
  search : Search α
  point : List α

variable [Scalar α]

def Stage.queries (opts : Options α) (t : Stage α) : List (Query α) :=
  t.search.queries opts ++ [.gradient t.point]

namespace Method

variable {σ : Type}

section

variable (m : Method α σ) (A : Arithmetic α) (opts : Options α) (direction : σ → Option (List α))
  (o : Oracle α)

/-- One iteration from `s` to `s'`. Before its search and after its last question there is nothing
but records. -/
inductive Moved (s : σ) (j : Journal α) (search : Search α) (s' : σ) (j' : Journal α) : Prop where
  | intro {d : List α} {step : α} {j₁ j₂ j₃ : Journal α}
      (hdirection : direction s = some d) (hbefore : j.Asks [] j₁)
      (hsearch : Searched A opts o (m.iterate s).point d (m.iterate s).gradient search j₁ step j₂)
      (hmove : A.addScaled (m.iterate s).point d step = some (m.iterate s').point)
      (hgradient : (o.gradient (m.iterate s').point).perform j₂ =
        (.ok (m.iterate s').gradient, j₃))
      (hafter : j₃.Asks [] j') (hcount : (m.iterate s').iteration = (m.iterate s).iteration + 1)

/-- One iteration after the other, and the record of each. -/
inductive Course : σ → Journal α → List (Stage α) → σ → Journal α → Prop where
  | nil (s : σ) (j : Journal α) : Course s j [] s j
  | cons {s s₁ s' : σ} {j j₁ j' : Journal α} {search : Search α} {step : α}
      {later : List (Stage α)} (hmoved : m.Moved A opts direction o s j search s₁ j₁)
      (hlater : Course s₁ (j₁.push (.noted (m.iterationRecord s₁ step))) later s' j') :
      Course s j (⟨search, (m.iterate s₁).point⟩ :: later) s' j'

/-- Whenever the method makes an iteration, it searches along the direction of the state. -/
structure Searches : Prop where
  advance : ∀ {s s' : σ} {step : α} {j j' : Journal α},
    (m.advance o s).perform j = (.ok (s', step), j') →
      ∃ search, m.Moved A opts direction o s j search s' j'

end

variable {m : Method α σ} {A : Arithmetic α} {opts : Options α} {direction : σ → Option (List α)}
  {o : Oracle α} {s s' : σ} {j j' : Journal α}

theorem Searches.exists_course (hm : m.Searches A opts direction o) {tolerance : α} {left : Nat}
    {t : Termination} (h : (m.descend tolerance o left s).perform j = (.ok (t, s'), j')) :
    ∃ stages, m.Course A opts direction o s j stages s' j' := by
  induction left generalizing s j with
  | zero =>
    rw [descend] at h
    split at h <;> cases h <;> exact ⟨[], .nil _ _⟩
  | succ left ih =>
    by_cases hlt : m.gradNorm s < tolerance
    · rw [descend, if_pos hlt] at h
      cases h
      exact ⟨[], .nil _ _⟩
    · obtain ⟨s₁, step, j₁, hadvance, hrest⟩ := perform_descend_succ_of_not_lt hlt h
      obtain ⟨search, hmoved⟩ := hm.advance hadvance
      obtain ⟨later, hlater⟩ := ih hrest
      exact ⟨_ :: later, .cons hmoved hlater⟩

theorem Moved.asks {search : Search α} (ho : o.Counts)
    (h : m.Moved A opts direction o s j search s' j') :
    j.Asks (Stage.queries opts ⟨search, (m.iterate s').point⟩) j' := by
  obtain ⟨-, hbefore, hsearch, -, hgradient, hafter, -⟩ := h
  have hasks := hbefore.append ((hsearch.asks ho).append (ho.asks_gradient hgradient))
  simpa [Stage.queries] using hasks.append hafter

namespace Course

variable {stages : List (Stage α)} (h : m.Course A opts direction o s j stages s' j')
include h

theorem asks (ho : o.Counts) : j.Asks (stages.flatMap (·.queries opts)) j' := by
  induction h with
  | nil s j => exact Journal.Asks.refl j
  | cons hmoved _ ih => exact ((hmoved.asks ho).push_note _).append ih

theorem iteration_eq : (m.iterate s').iteration = (m.iterate s).iteration + stages.length := by
  induction h with
  | nil _ _ => rfl
  | cons hmoved _ ih =>
    obtain ⟨-, -, -, -, -, -, hcount⟩ := hmoved
    rw [ih, hcount, List.length_cons]
    omega

theorem withinRounds : ∀ t ∈ stages, t.search.WithinRounds := by
  induction h with
  | nil _ _ => exact List.forall_mem_nil _
  | cons hmoved _ ih =>
    obtain ⟨-, -, hsearch, -, -, -, -⟩ := hmoved
    exact List.forall_mem_cons.mpr ⟨hsearch.withinRounds, ih⟩

end Course

end Method

/-! ### Both solvers search along a direction -/

theorem Lbfgs.searches_method (A : Arithmetic α) (solver : Lbfgs α) (o : Oracle α) :
    (solver.method A).Searches A solver.options.lineSearch (State.direction A) o where
  advance := by
    intro s s' step j j' h
    obtain ⟨i⟩ := State.perform_advance_eq_ok_iff.mp h
    obtain ⟨search, hsearch⟩ := exists_searched i.search_eq
    have hafter := i.journal_eq.symm ▸ Journal.Asks.ite_note i.evaluated _
    exact ⟨search, .intro i.direction_eq (.ite_note j _) hsearch i.point_eq i.gradient_eq hafter
      i.iteration_eq⟩

theorem SteepestDescent.searches_method (A : Arithmetic α) (solver : SteepestDescent α)
    (o : Oracle α) :
    (solver.method A).Searches A solver.lineSearch
      (fun i => some (scale i.gradient (-1.0))) o where
  advance := by
    intro i i' step j j' h
    obtain ⟨j₁, hsearch, hpoint, hgradient, hcount⟩ := perform_advance_eq_ok h
    obtain ⟨search, hsearched⟩ := exists_searched hsearch
    exact ⟨search, .intro rfl (.refl j) hsearched hpoint hgradient (.refl j') hcount⟩

end QuasiNewton
