import QuasiNewton.Lbfgs.State
import QuasiNewton.Proofs.Oracle

/-!
# Iterations that succeed

An iteration of L-BFGS that succeeds, with all that is computed on the way from the old state to
the new one (`State.perform_advance_eq_ok_iff`). Theorems on states take an iteration apart through
the fields of `Iteration` and never open the definition of `State.advance`. An attempt ends in the
state that a successful iteration leaves, and otherwise in the state where it began.
-/

namespace QuasiNewton

namespace Lbfgs

variable {α : Type} [Scalar α]

/-- One iteration from `s` to `s'`, and the journals in between. -/
structure Iteration (A : Arithmetic α) (opts : LineSearch.Options α) (o : Oracle α) (s : State α)
    (j : Journal α) (s' : State α) (step : α) (j' : Journal α) where
  direction : List α
  slope : α
  /-- The journal after the line search. -/
  searched : Journal α
  /-- The journal after the gradient at the new point is known. -/
  evaluated : Journal α
  move : List α
  change : List α
  curvature : α
  stored : Bool
  direction_eq : s.direction A = some direction
  slope_eq : A.inner s.gradient direction = some slope
  search_eq : (LineSearch.search A opts o s.point direction s.gradient).perform
    (if 0.0 ≤ slope then j.push (.noted (.nonDescent name s.iteration slope)) else j) =
      (.ok step, searched)
  point_eq : A.addScaled s.point direction step = some s'.point
  gradient_eq : (o.gradient s'.point).perform searched = (.ok s'.gradient, evaluated)
  move_eq : A.sub s'.point s.point = some move
  change_eq : A.sub s'.gradient s.gradient = some change
  curvature_eq : A.inner move change = some curvature
  offer_eq : s.history.offer A move change = some (stored, s'.history)
  iteration_eq : s'.iteration = s.iteration + 1
  journal_eq : j' =
    if !stored then evaluated.push (.noted (.skipped s.iteration curvature)) else evaluated

variable {A : Arithmetic α} {opts : LineSearch.Options α} {o : Oracle α} {s s' : State α}
  {step : α} {j j' : Journal α}

theorem State.perform_advance_eq_ok_iff :
    (s.advance A opts o).perform j = (.ok (s', step), j') ↔
      Nonempty (Iteration A opts o s j s' step j') := by
  rw [State.advance]
  constructor
  · intro h
    obtain ⟨direction, hdirection, h₁⟩ := Run.perform_ofOption_bind_eq_ok_iff.mp h
    obtain ⟨slope, hslope, h₂⟩ := Run.perform_ofOption_bind_eq_ok_iff.mp h₁
    rw [Run.perform_ite_note] at h₂
    obtain ⟨step', searched, hsearch, h₃⟩ := Run.perform_bind_eq_ok_iff.mp h₂
    obtain ⟨point, hpoint, h₄⟩ := Run.perform_ofOption_bind_eq_ok_iff.mp h₃
    obtain ⟨gradient, evaluated, hgradient, h₅⟩ := Run.perform_bind_eq_ok_iff.mp h₄
    obtain ⟨move, hmove, h₆⟩ := Run.perform_ofOption_bind_eq_ok_iff.mp h₅
    obtain ⟨change, hchange, h₇⟩ := Run.perform_ofOption_bind_eq_ok_iff.mp h₆
    obtain ⟨curvature, hcurvature, h₈⟩ := Run.perform_ofOption_bind_eq_ok_iff.mp h₇
    obtain ⟨⟨stored, history⟩, hoffer, h₉⟩ := Run.perform_ofOption_bind_eq_ok_iff.mp h₈
    dsimp only at h₉
    rw [Run.perform_ite_note, Run.perform_pure] at h₉
    cases h₉
    exact ⟨⟨direction, slope, searched, evaluated, move, change, curvature, stored, hdirection,
      hslope, hsearch, hpoint, hgradient, hmove, hchange, hcurvature, hoffer, rfl, rfl⟩⟩
  · rintro ⟨i⟩
    refine Run.perform_ofOption_bind_eq_ok_iff.mpr ⟨i.direction, i.direction_eq, ?_⟩
    refine Run.perform_ofOption_bind_eq_ok_iff.mpr ⟨i.slope, i.slope_eq, ?_⟩
    rw [Run.perform_ite_note]
    refine Run.perform_bind_eq_ok_iff.mpr ⟨step, i.searched, i.search_eq, ?_⟩
    refine Run.perform_ofOption_bind_eq_ok_iff.mpr ⟨s'.point, i.point_eq, ?_⟩
    refine Run.perform_bind_eq_ok_iff.mpr ⟨s'.gradient, i.evaluated, i.gradient_eq, ?_⟩
    refine Run.perform_ofOption_bind_eq_ok_iff.mpr ⟨i.move, i.move_eq, ?_⟩
    refine Run.perform_ofOption_bind_eq_ok_iff.mpr ⟨i.change, i.change_eq, ?_⟩
    refine Run.perform_ofOption_bind_eq_ok_iff.mpr ⟨i.curvature, i.curvature_eq, ?_⟩
    refine Run.perform_ofOption_bind_eq_ok_iff.mpr ⟨(i.stored, s'.history), i.offer_eq, ?_⟩
    dsimp only
    rw [Run.perform_ite_note, Run.perform_pure, ← i.iteration_eq]
    exact congrArg (Prod.mk _) i.journal_eq.symm

/-! ### Attempts -/

/-- An attempt makes an iteration, or it fails and stays where it began. -/
theorem State.attempt_cases (A : Arithmetic α) (opts : LineSearch.Options α) (o : Oracle α)
    (s : State α) (j : Journal α) :
    ((s.attempt A opts o j).1.isOk = true ∧
      ∃ step j', Nonempty (Iteration A opts o s j (s.attempt A opts o j).2.1 step j')) ∨
    ((s.attempt A opts o j).1.isOk = false ∧ (s.attempt A opts o j).2.1 = s) := by
  rcases h : (s.advance A opts o).perform j with ⟨stop | ⟨s', step⟩, j'⟩
  · have hattempt : s.attempt A opts o j = (.error stop, s, j') := by
      rw [attempt, h]
    rw [hattempt]
    exact Or.inr ⟨rfl, rfl⟩
  · have hattempt : s.attempt A opts o j = (.ok step, s', j') := by
      rw [attempt, h]
    rw [hattempt]
    exact Or.inl ⟨rfl, step, j', perform_advance_eq_ok_iff.mp h⟩

end Lbfgs

end QuasiNewton
