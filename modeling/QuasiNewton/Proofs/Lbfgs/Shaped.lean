import QuasiNewton.Proofs.History.Built
import QuasiNewton.Proofs.Lbfgs.Iteration

/-!
# The shape of a state

The point, the gradient and all remembered vectors of a state have one length. An iteration keeps
this as long as the gradients have the length of the points (`Iteration.shaped`), and so do all
states that a solver can reach (`State.Reachable.shaped`). In such a state there is always a
direction (`State.Shaped.exists_direction`).
-/

namespace QuasiNewton

variable {α : Type} [Scalar α] {A : Arithmetic α} {n : Nat}

/-- At points of length `n` the gradients have length `n`. -/
def Oracle.ShapedAt (o : Oracle α) (n : Nat) : Prop :=
  ∀ {x g : List α} {j j' : Journal α}, x.length = n →
    (o.gradient x).perform j = (.ok g, j') → g.length = n

theorem Problem.shapedAt_checked (p : Problem α) (n : Nat) :
    (p.oracle.checked n).ShapedAt n := by
  intro x g j j' _ h
  exact (p.perform_checked_gradient_eq_ok_iff.mp h).1.length_eq

namespace Lbfgs

/-- A state of vectors of length `n`. -/
structure State.Shaped (A : Arithmetic α) (n : Nat) (s : State α) : Prop where
  length_point : s.point.length = n
  length_gradient : s.gradient.length = n
  built : s.history.Built A n

theorem State.shaped_initial {x g : List α} (memory : Nat) (hx : x.length = n)
    (hg : g.length = n) : (State.initial memory x g).Shaped A n :=
  ⟨hx, hg, .empty memory⟩

theorem State.Shaped.exists_direction (hA : A.Lawful) (hn : 0 < n) {s : State α}
    (hs : s.Shaped A n) : ∃ d, s.direction A = some d ∧ d.length = n := by
  obtain ⟨r, hr, hlen⟩ := hs.built.exists_twoLoop hA hn hs.length_gradient
  refine ⟨scale r (-1.0), ?_, (length_scale r _).trans hlen⟩
  rw [direction, hr]
  rfl

theorem State.Shaped.length_direction (hA : A.Lawful) (hn : 0 < n) {s : State α}
    (hs : s.Shaped A n) {d : List α} (hd : s.direction A = some d) : d.length = n :=
  Arithmetic.length_of_exists (hs.exists_direction hA hn) hd

namespace Iteration

variable {opts : LineSearch.Options α} {o : Oracle α} {s s' : State α} {step : α}
  {j j' : Journal α}

/-- The pair of the iteration is stored if its curvature is large enough. -/
theorem offer_cases (i : Iteration A opts o s j s' step j') :
    (History.leastCurvature < i.curvature ∧ i.stored = true ∧
      s'.history = s.history.store ⟨i.move, i.change, 1.0 / i.curvature⟩) ∨
    (¬ History.leastCurvature < i.curvature ∧ i.stored = false ∧ s'.history = s.history) := by
  obtain ⟨c, hc, hcases⟩ := History.offer_eq_some_iff.mp i.offer_eq
  obtain rfl := Option.some.inj (i.curvature_eq.symm.trans hc)
  exact hcases

theorem length_point (i : Iteration A opts o s j s' step j') (hA : A.Lawful) (hn : 0 < n)
    (hs : s.Shaped A n) : s'.point.length = n :=
  hA.length_of_addScaled_eq_some hn hs.length_point
    (hs.length_direction hA hn i.direction_eq) i.point_eq

theorem length_move (i : Iteration A opts o s j s' step j') (hA : A.Lawful) (hn : 0 < n)
    (hs : s.Shaped A n) : i.move.length = n :=
  hA.length_of_sub_eq_some hn (i.length_point hA hn hs) hs.length_point i.move_eq

/-- An iteration keeps the shape of the state. -/
theorem shaped (i : Iteration A opts o s j s' step j') (hA : A.Lawful) (hn : 0 < n)
    (ho : o.ShapedAt n) (hs : s.Shaped A n) : s'.Shaped A n := by
  have hpoint := i.length_point hA hn hs
  have hgradient := ho hpoint i.gradient_eq
  have hchange := hA.length_of_sub_eq_some hn hgradient hs.length_gradient i.change_eq
  exact ⟨hpoint, hgradient, hs.built.offer (i.length_move hA hn hs) hchange i.offer_eq⟩

theorem move_eq_zipWith (i : Iteration A opts o s j s' step j') (hA : A.Lawful) (hn : 0 < n)
    (hs : s.Shaped A n) (hs' : s'.Shaped A n) :
    i.move = List.zipWith (· - ·) s'.point s.point := by
  have hsub := hA.sub_eq (hs'.length_point ▸ hn)
    (hs'.length_point.trans hs.length_point.symm)
  exact Option.some.inj (i.move_eq.symm.trans hsub)

theorem change_eq_zipWith (i : Iteration A opts o s j s' step j') (hA : A.Lawful) (hn : 0 < n)
    (hs : s.Shaped A n) (hs' : s'.Shaped A n) :
    i.change = List.zipWith (· - ·) s'.gradient s.gradient := by
  have hsub := hA.sub_eq (hs'.length_gradient ▸ hn)
    (hs'.length_gradient.trans hs.length_gradient.symm)
  exact Option.some.inj (i.change_eq.symm.trans hsub)

end Iteration

/-- A state in which attempts to iterate can end that begin at a point with `n` coordinates. From
one attempt to the next the options and the oracle may change. -/
inductive State.Reachable (A : Arithmetic α) (n : Nat) : State α → Prop where
  | initial (memory : Nat) {x g : List α} (hx : x.length = n) (hg : g.length = n) :
      Reachable A n (.initial memory x g)
  | attempt {s : State α} {o : Oracle α} (hs : Reachable A n s) (ho : o.ShapedAt n)
      (opts : LineSearch.Options α) (j : Journal α) :
      Reachable A n (s.attempt A opts o j).2.1

theorem State.Reachable.shaped (hA : A.Lawful) (hn : 0 < n) {s : State α}
    (hs : s.Reachable A n) : s.Shaped A n := by
  induction hs with
  | initial memory hx hg => exact shaped_initial memory hx hg
  | @attempt s o _ ho opts j ih =>
    obtain ⟨-, _, _, ⟨i⟩⟩ | ⟨-, hsame⟩ := s.attempt_cases A opts o j
    · exact i.shaped hA hn ho ih
    · rwa [hsame]

end Lbfgs

end QuasiNewton
