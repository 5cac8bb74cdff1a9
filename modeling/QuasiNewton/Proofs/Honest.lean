import QuasiNewton.Lbfgs.Solver
import QuasiNewton.Proofs.Descent
import QuasiNewton.Proofs.Lbfgs.Shaped
import QuasiNewton.SteepestDescent

/-!
# Honest outcomes

The outcome of a run says what is true of the problem: its value and the norm of its gradient are
those of the objective and the gradient at its point, and it has converged exactly when this norm
is below the tolerance. Whatever a method does in between, all this follows from one property of
its iterations, that they leave an iterate whose gradient is the gradient at its point
(`Method.Invariant.honest`).
-/

namespace QuasiNewton

variable {α : Type} [Scalar α]

/-- An iterate whose gradient is the gradient of the problem at its point. -/
structure Iterate.Sound (p : Problem α) (n : Nat) (i : Iterate α) : Prop where
  length_point : i.point.length = n
  gradientAt : p.GradientAt n i.point i.gradient

/-- What an outcome promises of a run from a point with `n` coordinates. -/
structure Outcome.Honest (p : Problem α) (limits : Stopping α) (n : Nat) (out : Outcome α) :
    Prop where
  point_ne_nil : out.point ≠ []
  point_finite : ∀ a ∈ out.point, Scalar.isFinite a = true
  length_point : out.point.length = n
  valueAt : p.ValueAt out.point out.value
  gradientAt : ∃ g, p.GradientAt n out.point g ∧ norm g = out.gradNorm
  converged_iff : out.converged = true ↔ out.gradNorm < limits.tolerance
  iterations_le : out.iterations ≤ limits.budget
  iterations_eq : out.converged = false → out.iterations = limits.budget
  status_eq : out.status =
    if out.converged then "Solver converged" else "Maximum number of iterations reached"

namespace Method

variable {σ : Type} {m : Method α σ}

theorem length_pos_of_minimize {o : Oracle α} {limits : Stopping α} {x₀ : List α}
    {j j' : Journal α} {out : Outcome α}
    (h : (m.minimize limits o x₀).perform j = (.ok out, j')) : 0 < x₀.length := by
  obtain ⟨hx₀, -⟩ := perform_minimize_eq_ok_iff.mp h
  exact length_pos_of_checkPoint hx₀

/-- A method whose iterations leave sound iterates has honest outcomes. -/
theorem Invariant.honest {p : Problem α} {limits : Stopping α} {x₀ : List α} {I : σ → Prop}
    (hI : m.Invariant (p.oracle.checked x₀.length) I)
    (hsound : ∀ {s}, I s → (m.iterate s).Sound p x₀.length)
    (hstart : ∀ {g₀ s₀}, p.GradientAt x₀.length x₀ g₀ → m.start x₀ g₀ = some s₀ →
      I s₀ ∧ (m.iterate s₀).iteration = 0)
    {j j' : Journal α} {out : Outcome α}
    (h : (m.minimize limits p.oracle x₀).perform j = (.ok out, j')) :
    out.Honest p limits x₀.length := by
  obtain ⟨-, g₀, j₁, s₀, t, s, j₂, hg₀, hs₀, hdescend, hconclude⟩ :=
    perform_minimize_eq_ok_iff.mp h
  have hgrad₀ := (p.perform_checked_gradient_eq_ok_iff.mp hg₀).1
  obtain ⟨hinit, hzero⟩ := hstart hgrad₀ hs₀
  obtain ⟨hs, hends⟩ := hI.descend hinit hdescend
  obtain ⟨value, j₃, hv, -, hpoint, -, rfl⟩ := perform_conclude_eq_ok_iff.mp hconclude
  obtain ⟨hpne, hpfin⟩ := checkPoint_eq_ok_iff.mp hpoint
  have hval := (p.perform_checked_value_eq_ok_iff.mp hv).1
  have hgrad : ∃ g, p.GradientAt x₀.length (m.iterate s).point g ∧ norm g = m.gradNorm s :=
    ⟨(m.iterate s).gradient, (hsound hs).gradientAt, rfl⟩
  rw [hzero, Nat.zero_add] at hends
  -- the two ways in which the loop ends are the two terminations that an outcome reports
  cases hends with
  | converged hlt hle =>
    exact ⟨hpne, hpfin, (hsound hs).length_point, hval, hgrad, iff_of_true rfl hlt, hle,
      (nomatch ·), rfl⟩
  | budgetSpent hlt heq =>
    exact ⟨hpne, hpfin, (hsound hs).length_point, hval, hgrad, iff_of_false (nomatch ·) hlt,
      heq.le, fun _ => heq, rfl⟩

end Method

variable {A : Arithmetic α}

/-! ### Both methods keep their iterates sound -/

theorem Lbfgs.invariant_method (hA : A.Lawful) {n : Nat} (hn : 0 < n) (solver : Lbfgs α)
    (p : Problem α) :
    (solver.method A).Invariant (p.oracle.checked n) fun s =>
      s.Shaped A n ∧ s.toIterate.Sound p n where
  advance := by
    rintro s s' step j j' ⟨hs, -⟩ h
    obtain ⟨i⟩ := State.perform_advance_eq_ok_iff.mp h
    have hs' := i.shaped hA hn (p.shapedAt_checked n) hs
    have hgrad := (p.perform_checked_gradient_eq_ok_iff.mp i.gradient_eq).1
    exact ⟨⟨hs', hs'.length_point, hgrad⟩, i.iteration_eq⟩

theorem SteepestDescent.perform_advance_eq_ok {opts : LineSearch.Options α} {o : Oracle α}
    {i i' : Iterate α} {step : α} {j j' : Journal α}
    (h : (SteepestDescent.advance A opts o i).perform j = (.ok (i', step), j')) :
    ∃ j₁, (LineSearch.search A opts o i.point (scale i.gradient (-1.0)) i.gradient).perform j =
        (.ok step, j₁) ∧
      A.addScaled i.point (scale i.gradient (-1.0)) step = some i'.point ∧
      (o.gradient i'.point).perform j₁ = (.ok i'.gradient, j') ∧
      i'.iteration = i.iteration + 1 := by
  rw [SteepestDescent.advance] at h
  obtain ⟨step', j₁, hsearch, h₁⟩ := Run.perform_bind_eq_ok_iff.mp h
  obtain ⟨point, hpoint, h₂⟩ := Run.perform_ofOption_bind_eq_ok_iff.mp h₁
  obtain ⟨gradient, j₂, hgradient, h₃⟩ := Run.perform_bind_eq_ok_iff.mp h₂
  rw [Run.perform_pure] at h₃
  cases h₃
  exact ⟨j₁, hsearch, hpoint, hgradient, rfl⟩

theorem SteepestDescent.invariant_method (hA : A.Lawful) {n : Nat} (hn : 0 < n)
    (solver : SteepestDescent α) (p : Problem α) :
    (solver.method A).Invariant (p.oracle.checked n) fun i => i.Sound p n where
  advance := by
    intro i i' step j j' hi h
    obtain ⟨j₁, -, hpoint, hgradient, hcount⟩ := perform_advance_eq_ok h
    have hdir : (scale i.gradient (-1.0)).length = n :=
      (length_scale _ _).trans hi.gradientAt.length_eq
    exact ⟨⟨hA.length_of_addScaled_eq_some hn hi.length_point hdir hpoint,
      (p.perform_checked_gradient_eq_ok_iff.mp hgradient).1⟩, hcount⟩

/-- The outcome of a run is honest, whatever the solver, the problem and the start point. -/
theorem honest_of_minimize (hA : A.Standard) (p : Problem α) (x₀ : List α) {j j' : Journal α}
    {out : Outcome α} :
    (∀ solver : Lbfgs α, (solver.minimize A p.oracle x₀).perform j = (.ok out, j') →
      out.Honest p solver.options.toStopping x₀.length) ∧
    (∀ solver : SteepestDescent α, (solver.minimize A p.oracle x₀).perform j = (.ok out, j') →
      out.Honest p solver.toStopping x₀.length) := by
  constructor
  · intro solver h
    have hn := Method.length_pos_of_minimize h
    refine (solver.invariant_method hA.lawful hn p).honest (fun hs => hs.2) ?_ h
    intro g₀ s₀ hg₀ hs₀
    obtain ⟨-, rfl⟩ := Lbfgs.State.create_eq_some_iff.mp hs₀
    exact ⟨⟨Lbfgs.State.shaped_initial _ rfl hg₀.length_eq, rfl, hg₀⟩, rfl⟩
  · intro solver h
    have hn := Method.length_pos_of_minimize h
    refine (solver.invariant_method hA.lawful hn p).honest (fun hi => hi) ?_ h
    intro g₀ s₀ hg₀ hs₀
    cases hs₀
    exact ⟨⟨rfl, hg₀⟩, rfl⟩

/-- Two runs in the valley, each of which spends its budget of two iterations. -/
theorem honest_of_minimize_valley :
    (∃ out j', ((⟨.ofSettings [.budget 2]⟩ : Lbfgs Float).minimize .laned
        Problem.valley.oracle [3.0, -2.0]).perform {} = (.ok out, j') ∧
      out.Honest .valley ⟨1e-6, 2⟩ 2) ∧
    (∃ out j', ((⟨⟨1e-6, 2⟩, .standard⟩ : SteepestDescent Float).minimize .sequential
        Problem.valley.oracle [0.0, 0.05]).perform {} = (.ok out, j') ∧
      out.Honest .valley ⟨1e-6, 2⟩ 2) := by
  constructor
  · obtain ⟨out, j', h⟩ := Run.exists_perform_of_isOk (j := {}) (r := (⟨.ofSettings [.budget 2]⟩ :
      Lbfgs Float).minimize .laned Problem.valley.oracle [3.0, -2.0]) (by decide +kernel)
    exact ⟨out, j', h, (honest_of_minimize .laned _ _).1 _ h⟩
  · obtain ⟨out, j', h⟩ := Run.exists_perform_of_isOk (j := {}) (r := (⟨⟨1e-6, 2⟩, .standard⟩ :
      SteepestDescent Float).minimize .sequential Problem.valley.oracle [0.0, 0.05])
      (by decide +kernel)
    exact ⟨out, j', h, (honest_of_minimize .sequential _ _).2 _ h⟩

end QuasiNewton
