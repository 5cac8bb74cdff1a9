import QuasiNewton.Descent
import QuasiNewton.Proofs.Oracle

/-!
# The loop of a method

A run goes through a check of the start point, one question for the gradient there, the loop, and
the conclusion (`Method.perform_minimize_eq_ok_iff`, `Method.perform_conclude_eq_ok_iff`). What
each iteration of a method keeps holds of the state in which the loop ends, and the loop ends
either where the gradient is small or where the budget is spent (`Method.Invariant.descend`).
-/

namespace QuasiNewton

variable {α : Type} [Scalar α]

theorem Outcome.create_eq_ok_iff {point : List α} {value gradNorm : α} {t : Termination}
    {iterations : Nat} {evaluations : List (String × Nat)} {out : Outcome α} :
    Outcome.create point value t iterations evaluations gradNorm = .ok out ↔
      checkPoint point = .ok () ∧ checkValue value = .ok () ∧
        out = ⟨point, value, t, iterations, evaluations, gradNorm⟩ := by
  rw [Outcome.create]
  cases checkPoint point with
  | error f => simp [bind, Except.bind]
  | ok u =>
    cases checkValue value with
    | error f => simp [bind, Except.bind]
    | ok v => simp [bind, Except.bind, pure, Except.pure, eq_comm]

namespace Method

variable {σ : Type} {m : Method α σ} {o : Oracle α} {j j' : Journal α}

/-! ### Inversion -/

theorem perform_conclude_eq_ok_iff {t : Termination} {s : σ} {out : Outcome α} :
    (m.conclude o t s).perform j = (.ok out, j') ↔
      ∃ value j₁, (o.value (m.iterate s).point).perform j = (.ok value, j₁) ∧
        j' = j₁.push (.noted (.terminated m.name t.text (m.iterate s).iteration value
          (m.gradNorm s))) ∧
        checkPoint (m.iterate s).point = .ok () ∧ checkValue value = .ok () ∧
        out = ⟨(m.iterate s).point, value, t, (m.iterate s).iteration, j₁.tally.named,
          m.gradNorm s⟩ := by
  rw [conclude]
  constructor
  · intro h
    obtain ⟨value, j₁, hv, hrest⟩ := Run.perform_bind_eq_ok_iff.mp h
    rw [Run.perform_bind, Run.perform_note] at hrest
    dsimp only at hrest
    rw [Run.perform_bind, Run.perform_tally] at hrest
    obtain ⟨hcreate, rfl⟩ := Run.perform_ofExcept_eq_ok_iff.mp hrest
    obtain ⟨hp, hfin, hout⟩ := Outcome.create_eq_ok_iff.mp hcreate
    exact ⟨value, j₁, hv, rfl, hp, hfin, hout⟩
  · rintro ⟨value, j₁, hv, rfl, hp, hfin, hout⟩
    refine Run.perform_bind_eq_ok_iff.mpr ⟨value, j₁, hv, ?_⟩
    rw [Run.perform_bind, Run.perform_note]
    dsimp only
    rw [Run.perform_bind, Run.perform_tally]
    exact Run.perform_ofExcept_eq_ok_iff.mpr
      ⟨Outcome.create_eq_ok_iff.mpr ⟨hp, hfin, hout⟩, rfl⟩

theorem perform_minimize_eq_ok_iff {limits : Stopping α} {x₀ : List α} {out : Outcome α} :
    (m.minimize limits o x₀).perform j = (.ok out, j') ↔
      checkPoint x₀ = .ok () ∧
      ∃ g₀ j₁ s₀ t s j₂,
        ((o.checked x₀.length).gradient x₀).perform j.resetTally = (.ok g₀, j₁) ∧
        m.start x₀ g₀ = some s₀ ∧
        (m.descend limits.tolerance (o.checked x₀.length) limits.budget s₀).perform j₁ =
          (.ok (t, s), j₂) ∧
        (m.conclude (o.checked x₀.length) t s).perform j₂ = (.ok out, j') := by
  rw [minimize]
  constructor
  · intro h
    obtain ⟨⟨⟩, hp, hrest⟩ := Run.perform_ofExcept_bind_eq_ok_iff.mp h
    rw [Run.perform_bind, Run.perform_amend] at hrest
    obtain ⟨g₀, _, hg, hstart⟩ := Run.perform_bind_eq_ok_iff.mp hrest
    obtain ⟨s₀, j₁, hreserve, hrun⟩ := Run.perform_bind_eq_ok_iff.mp hstart
    obtain ⟨hs₀, rfl⟩ := Run.perform_reserve_eq_ok_iff.mp hreserve
    obtain ⟨⟨t, s⟩, j₂, hd, hc⟩ := Run.perform_bind_eq_ok_iff.mp hrun
    exact ⟨hp, g₀, j₁, s₀, t, s, j₂, hg, hs₀, hd, hc⟩
  · rintro ⟨hp, g₀, j₁, s₀, t, s, j₂, hg, hs₀, hd, hc⟩
    refine Run.perform_ofExcept_bind_eq_ok_iff.mpr ⟨(), hp, ?_⟩
    rw [Run.perform_bind, Run.perform_amend]
    refine Run.perform_bind_eq_ok_iff.mpr ⟨g₀, j₁, hg, ?_⟩
    refine Run.perform_bind_eq_ok_iff.mpr
      ⟨s₀, j₁, Run.perform_reserve_eq_ok_iff.mpr ⟨hs₀, rfl⟩, ?_⟩
    exact Run.perform_bind_eq_ok_iff.mpr ⟨(t, s), j₂, hd, hc⟩

/-- One round of the loop that iterates: the step, its record, and the rest of the loop. -/
theorem perform_descend_succ_of_not_lt {tolerance : α} {left : Nat} {s s' : σ}
    {t : Termination} (hlt : ¬ m.gradNorm s < tolerance)
    (h : (m.descend tolerance o (left + 1) s).perform j = (.ok (t, s'), j')) :
    ∃ s₁ step j₁, (m.advance o s).perform j = (.ok (s₁, step), j₁) ∧
      (m.descend tolerance o left s₁).perform
        (j₁.push (.noted (m.iterationRecord s₁ step))) = (.ok (t, s'), j') := by
  rw [descend, if_neg hlt] at h
  obtain ⟨⟨s₁, step⟩, j₁, ha, hrest⟩ := Run.perform_bind_eq_ok_iff.mp h
  rw [Run.perform_bind, Run.perform_note] at hrest
  exact ⟨s₁, step, j₁, ha, hrest⟩

/-! ### Invariants -/

/-- What holds after each iteration of the method if it held before; the iterations are counted. -/
structure Invariant (m : Method α σ) (o : Oracle α) (I : σ → Prop) : Prop where
  advance : ∀ {s s' : σ} {step : α} {j j' : Journal α}, I s →
    (m.advance o s).perform j = (.ok (s', step), j') →
      I s' ∧ (m.iterate s').iteration = (m.iterate s).iteration + 1

/-- How the loop ends when it may count up to `last`. -/
inductive Ends (m : Method α σ) (tolerance : α) (last : Nat) : Termination → σ → Prop where
  | converged {s : σ} (hlt : m.gradNorm s < tolerance) (hle : (m.iterate s).iteration ≤ last) :
      Ends m tolerance last .converged s
  | budgetSpent {s : σ} (hlt : ¬ m.gradNorm s < tolerance)
      (heq : (m.iterate s).iteration = last) : Ends m tolerance last .budgetSpent s

theorem Invariant.descend {I : σ → Prop} (hI : m.Invariant o I) {tolerance : α} {left : Nat}
    {s s' : σ} {t : Termination} (hs : I s)
    (h : (m.descend tolerance o left s).perform j = (.ok (t, s'), j')) :
    I s' ∧ m.Ends tolerance ((m.iterate s).iteration + left) t s' := by
  induction left generalizing s j with
  | zero =>
    by_cases hlt : m.gradNorm s < tolerance
    · rw [Method.descend, if_pos hlt] at h
      cases h
      exact ⟨hs, .converged hlt (Nat.le_refl _)⟩
    · rw [Method.descend, if_neg hlt] at h
      cases h
      exact ⟨hs, .budgetSpent hlt rfl⟩
  | succ left ih =>
    by_cases hlt : m.gradNorm s < tolerance
    · rw [Method.descend, if_pos hlt] at h
      cases h
      exact ⟨hs, .converged hlt (Nat.le_add_right _ _)⟩
    · obtain ⟨s₁, step, j₁, ha, hrest⟩ := perform_descend_succ_of_not_lt hlt h
      obtain ⟨hs₁, hcount⟩ := hI.advance hs ha
      have hend := ih hs₁ hrest
      rwa [hcount, Nat.add_assoc, Nat.add_comm 1 left] at hend

end Method

end QuasiNewton
