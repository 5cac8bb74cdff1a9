import QuasiNewton.Lbfgs.Solver
import QuasiNewton.Proofs.Agreement
import QuasiNewton.SteepestDescent

/-!
# Solvers that agree

Agreement of two line searches carries over to the iterations of both solvers
(`Lbfgs.State.agrees_advance`, `SteepestDescent.agrees_advance`), and from the iterations of a
method to its whole runs (`Method.agrees_minimize`).
-/

namespace QuasiNewton

variable {α : Type} [Scalar α] {A B : Arithmetic α}

/-! ### Histories -/

namespace History

theorem sweep_within (h : A.Within B) {γ : α} {ps : List (Pair α)} {q r : List α}
    (hr : sweep A γ ps q = some r) : sweep B γ ps q = some r := by
  induction ps generalizing q r with
  | nil => exact hr
  | cons p older ih =>
    simp only [sweep, Option.bind_eq_bind, Option.bind_eq_some_iff] at hr ⊢
    obtain ⟨c, hc, q', hq', r', hr', d, hd, hadd⟩ := hr
    exact ⟨c, h.inner hc, q', h.sub hq', r', ih hr', d, h.inner hd, h.add hadd⟩

theorem scaling_within (h : A.Within B) {m : History α} {γ : α} (hγ : m.scaling A = some γ) :
    m.scaling B = some γ := by
  rw [scaling] at hγ ⊢
  cases hp : m.newest? with
  | none =>
    rw [hp] at hγ
    exact hγ
  | some p =>
    simp only [hp, Option.bind_eq_bind, Option.bind_eq_some_iff] at hγ ⊢
    obtain ⟨c, hc, d, hd, hdiv⟩ := hγ
    exact ⟨c, h.inner hc, d, h.inner hd, hdiv⟩

theorem twoLoop_within (h : A.Within B) {m : History α} {g r : List α}
    (hr : m.twoLoop A g = some r) : m.twoLoop B g = some r := by
  simp only [twoLoop, Option.bind_eq_bind, Option.bind_eq_some_iff] at hr ⊢
  obtain ⟨γ, hγ, hsweep⟩ := hr
  exact ⟨γ, scaling_within h hγ, sweep_within h hsweep⟩

theorem offer_within (h : A.Within B) {m : History α} {s y : List α} {answer : Bool × History α}
    (ho : m.offer A s y = some answer) : m.offer B s y = some answer := by
  simp only [offer, Option.bind_eq_bind, Option.bind_eq_some_iff] at ho ⊢
  obtain ⟨c, hc, hstore⟩ := ho
  exact ⟨c, h.inner hc, hstore⟩

end History

theorem Lbfgs.State.direction_within (h : A.Within B) {s : State α} {d : List α}
    (hd : s.direction A = some d) : s.direction B = some d := by
  simp only [direction, Option.bind_eq_bind, Option.bind_eq_some_iff] at hd ⊢
  obtain ⟨r, hr, hscale⟩ := hd
  exact ⟨r, History.twoLoop_within h hr, hscale⟩

/-! ### Iterations -/

variable {J : Journal α → Journal α → Prop} {o o' : Oracle α}

theorem Lbfgs.State.agrees_advance (h : A.Within B) (hJ : Run.Recording J) (ho : o.Agrees J o')
    (opts : LineSearch.Options α) (s : State α) :
    (s.advance A opts o).Agrees J (s.advance B opts o') := by
  apply (Run.agrees_ofOption fun _ => direction_within h).bind
  intro direction
  apply (Run.agrees_ofOption fun _ => h.inner).bind
  intro slope
  apply Run.Agrees.ite_note hJ
  apply (LineSearch.agrees_search h ho opts _ _ _).bind
  intro step
  apply (Run.agrees_ofOption fun _ => h.addScaled).bind
  intro point
  apply (ho.gradient point).bind
  intro gradient
  apply (Run.agrees_ofOption fun _ => h.sub).bind
  intro move
  apply (Run.agrees_ofOption fun _ => h.sub).bind
  intro change
  apply (Run.agrees_ofOption fun _ => h.inner).bind
  intro curvature
  apply (Run.agrees_ofOption fun _ => History.offer_within h).bind
  rintro ⟨stored, history⟩
  apply Run.Agrees.ite_note hJ
  exact Run.agrees_pure _

theorem SteepestDescent.agrees_advance (h : A.Within B) (ho : o.Agrees J o')
    (opts : LineSearch.Options α) (i : Iterate α) :
    (SteepestDescent.advance A opts o i).Agrees J (SteepestDescent.advance B opts o' i) := by
  apply (LineSearch.agrees_search h ho opts _ _ _).bind
  intro step
  apply (Run.agrees_ofOption fun _ => h.addScaled).bind
  intro point
  apply (ho.gradient point).bind
  intro gradient
  exact Run.agrees_pure _

/-! ### Whole runs -/

namespace Method

variable {σ : Type} {m : Method α σ} {advance : Oracle α → σ → Run α (σ × α)}

/-- Two methods that differ only in how they iterate. -/
theorem agrees_descend (hJ : Run.Recording J)
    (hadvance : ∀ s, (m.advance o s).Agrees J (advance o' s)) (tolerance : α) (left : Nat)
    (s : σ) :
    (m.descend tolerance o left s).Agrees J
      ({ m with advance }.descend tolerance o' left s) := by
  induction left generalizing s with
  | zero =>
    rw [descend, descend]
    exact (Run.agrees_pure _).ite (Run.agrees_pure _)
  | succ left ih =>
    rw [descend, descend]
    apply (Run.agrees_pure _).ite
    apply (hadvance s).bind
    rintro ⟨s', step⟩
    apply (Run.agrees_note hJ _).bind
    intro _
    exact ih s'

theorem agrees_minimize
    (hadvance : ∀ n s, (m.advance (o.checked n) s).Agrees Eq (advance (o.checked n) s))
    (limits : Stopping α) (x₀ : List α) :
    (m.minimize limits o x₀).Agrees Eq ({ m with advance }.minimize limits o x₀) := by
  apply (Run.agrees_ofExcept _).bind
  intro _
  apply (Run.agrees_refl _).bind
  intro _
  apply (Run.agrees_refl _).bind
  intro g₀
  apply (Run.agrees_refl _).bind
  intro s₀
  apply (agrees_descend Run.recording_eq (hadvance _) _ _ _).bind
  rintro ⟨t, s⟩
  exact Run.agrees_refl _

end Method

theorem Lbfgs.agrees_minimize (h : A.Within B) (solver : Lbfgs α) (o : Oracle α) (x₀ : List α) :
    (solver.minimize A o x₀).Agrees Eq (solver.minimize B o x₀) :=
  Method.agrees_minimize
    (fun n s => State.agrees_advance h Run.recording_eq (o.checked n).agrees_refl _ s) _ _

theorem SteepestDescent.agrees_minimize (h : A.Within B) (solver : SteepestDescent α)
    (o : Oracle α) (x₀ : List α) :
    (solver.minimize A o x₀).Agrees Eq (solver.minimize B o x₀) :=
  Method.agrees_minimize
    (fun n i => SteepestDescent.agrees_advance h (o.checked n).agrees_refl _ i) _ _

end QuasiNewton
