import Mathlib.Data.Real.Basic
import QuasiNewton.Proofs.Exact.Vector
import QuasiNewton.Proofs.Fitting

/-!
# The arithmetics are interchangeable

In exact arithmetic the order of a sum does not matter, so on operands of one length that is not
zero the two arithmetics compute the same. They differ on other operands: `laned` spreads a single
coordinate, `sequential` cuts a factor short. But no solver meets such operands, so a run in one
arithmetic is the run in the other (`arithmetics_interchangeable`).
-/

namespace QuasiNewton

/-! ### Arithmetics that agree where lengths do -/

section

variable {α : Type} [Scalar α]

/-- On these operands both arithmetics have an answer to everything, and it is the same. Multiples
and norms take no arithmetic; the norm is the root of the inner product in either. -/
structure Arithmetic.AgreeAt (A B : Arithmetic α) (x y : List α) : Prop where
  add : ∃ z, A.add x y = some z ∧ B.add x y = some z
  sub : ∃ z, A.sub x y = some z ∧ B.sub x y = some z
  addScaled : ∀ s, ∃ z, A.addScaled x y s = some z ∧ B.addScaled x y s = some z
  inner : ∃ c, A.inner x y = some c ∧ B.inner x y = some c
  norm : ∃ c, A.inner x x = some c ∧ B.inner x x = some c ∧ norm x = Scalar.sqrt c

variable {A B : Arithmetic α}

/-- What one arithmetic makes of operands that fit together, the other one makes of them, too. -/
theorem Arithmetic.strict_within_of_lawful (hA : A.Lawful) (hB : B.Lawful)
    (hinner : ∀ {x y : List α}, x.length = y.length → A.inner x y = B.inner x y) :
    A.strict.Within B where
  add h := by
    obtain ⟨⟨hx, hxy⟩, hz⟩ := Option.ite_none_right_eq_some.mp h
    rw [hB.add_eq hx hxy, ← hA.add_eq hx hxy, hz]
  sub h := by
    obtain ⟨⟨hx, hxy⟩, hz⟩ := Option.ite_none_right_eq_some.mp h
    rw [hB.sub_eq hx hxy, ← hA.sub_eq hx hxy, hz]
  inner h := by
    obtain ⟨hxy, hc⟩ := Option.ite_none_right_eq_some.mp h
    rw [← hinner hxy, hc]

end

/-! ### Exact arithmetics -/

variable {K : Type} [Field K] [LinearOrder K] {A B : Arithmetic K}

namespace Arithmetic.Exact

theorem inner_congr (hA : A.Exact) (hB : B.Exact) {x y : List K} (h : x.length = y.length) :
    A.inner x y = B.inner x y := by
  rw [hA.inner_eq h, hB.inner_eq h]

theorem agreeAt [IsStrictOrderedRing K] (hA : A.Exact) (hB : B.Exact) {x y : List K}
    (hx : 0 < x.length) (hxy : x.length = y.length) : A.AgreeAt B x y where
  add := ⟨_, hA.add_eq hx hxy, hB.add_eq hx hxy⟩
  sub := ⟨_, hA.sub_eq hx hxy, hB.sub_eq hx hxy⟩
  addScaled s := by
    have hscaled : x.length = (scale y s).length := hxy.trans (length_scale y s).symm
    exact ⟨_, hA.add_eq hx hscaled, hB.add_eq hx hscaled⟩
  inner := ⟨_, hA.inner_eq hxy, hB.inner_eq hxy⟩
  norm := by
    obtain ⟨c, hc, hnorm⟩ := hA.norm_eq x
    exact ⟨c, hc, (hA.inner_congr hB rfl).symm.trans hc, hnorm⟩

theorem strict_within (hA : A.Exact) (hB : B.Exact) : A.strict.Within B :=
  Arithmetic.strict_within_of_lawful hA.toLawful hB.toLawful (hA.inner_congr hB)

/-- A run in which all operands fit together does not depend on the arithmetic. -/
theorem perform_congr {β : Type} (hA : A.Exact) (hB : B.Exact) {r : Arithmetic K → Run K β}
    (hagrees : ∀ {C : Arithmetic K}, A.strict.Within C → (r A.strict).Agrees Eq (r C))
    {j : Journal K} (hfits : ((r A.strict).perform j).1 ≠ .error .misfit) :
    (r A).perform j = (r B).perform j := by
  have hstrict := (hagrees A.strict_within).perform_eq hfits
  have hother := (hagrees (hA.strict_within hB)).perform_eq hfits
  exact hstrict.symm.trans hother

end Arithmetic.Exact

/-! ### Whole runs -/

/-- In exact arithmetic the two arithmetics compute the same from vectors of one length that is not
zero, and whichever of them a solver computes in, it asks the same questions, makes the same records
and ends with the same result. -/
theorem arithmetics_interchangeable [IsStrictOrderedRing K] :
    (∀ x y : List K, 0 < x.length → x.length = y.length →
      Arithmetic.laned.AgreeAt .sequential x y) ∧
    (∀ (f : Responder K) (x₀ : List K) (j : Journal K),
      (∀ solver : Lbfgs K,
        (solver.minimize .laned f.oracle x₀).perform j =
          (solver.minimize .sequential f.oracle x₀).perform j) ∧
      (∀ solver : SteepestDescent K,
        (solver.minimize .laned f.oracle x₀).perform j =
          (solver.minimize .sequential f.oracle x₀).perform j)) := by
  have hlaned : (Arithmetic.laned : Arithmetic K).Exact := Arithmetic.Standard.laned.exact
  have hsequential : (Arithmetic.sequential : Arithmetic K).Exact :=
    Arithmetic.Standard.sequential.exact
  constructor
  · intro x y hx hxy
    exact hlaned.agreeAt hsequential hx hxy
  · intro f x₀ j
    have hstrict := hlaned.toLawful.strict
    constructor
    · intro solver
      exact hlaned.perform_congr hsequential (r := fun C => solver.minimize C f.oracle x₀)
        (fun h => solver.agrees_minimize h f.oracle x₀)
        (Method.minimize_ne_misfit f (fun hn => solver.keeps_method hstrict hn) _ j)
    · intro solver
      exact hlaned.perform_congr hsequential (r := fun C => solver.minimize C f.oracle x₀)
        (fun h => solver.agrees_minimize h f.oracle x₀)
        (Method.minimize_ne_misfit f (fun hn => solver.keeps_method hstrict hn) _ j)

/-- Nine products, of which the last one fills no block. -/
theorem arithmetics_interchangeable_nine :
    (∃ c, Arithmetic.laned.inner [1, 2, 3, 4, 5, 6, 7, 8, 9] [9, 8, 7, 6, 5, 4, 3, 2, (1 : ℝ)] =
        some c ∧
      Arithmetic.sequential.inner [1, 2, 3, 4, 5, 6, 7, 8, 9] [9, 8, 7, 6, 5, 4, 3, 2, (1 : ℝ)] =
        some c) ∧
    ((Lbfgs.standard.minimize .laned (Responder.ofProblem .valley).oracle
        [3, (-2 : ℝ)]).perform {} =
      (Lbfgs.standard.minimize .sequential (Responder.ofProblem .valley).oracle
        [3, (-2 : ℝ)]).perform {}) :=
  ⟨(arithmetics_interchangeable.1 [1, 2, 3, 4, 5, 6, 7, 8, 9] [9, 8, 7, 6, 5, 4, 3, 2, (1 : ℝ)]
      (by decide) (by decide)).inner,
    (arithmetics_interchangeable.2 (Responder.ofProblem .valley) [3, (-2 : ℝ)] {}).1 _⟩

end QuasiNewton
