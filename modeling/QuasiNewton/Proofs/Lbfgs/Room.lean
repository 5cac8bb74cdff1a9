import QuasiNewton.Lbfgs.Solver
import QuasiNewton.Proofs.Visits

/-!
# Want of room

L-BFGS reserves the room for all its pairs at once, when the gradient at the start point is known.
The check of its options lets every memory pass that is not zero, so there may be no room. Then the
run is opened like any other, and stops before its loop (`Lbfgs.minimize_of_mostPairs_lt`). Where
there is room, it has no further effect on how a run begins (`Lbfgs.perform_opening_eq_ok_iff`).
-/

namespace QuasiNewton

variable {α : Type} [Scalar α]

namespace Method

variable {σ : Type} {m : Method α σ} {x₀ : List α}

end Method

namespace Lbfgs

variable {A : Arithmetic α} {solver : Lbfgs α} {o : Oracle α} {x₀ : List α} {s₀ : State α}
  {j j' : Journal α}

theorem perform_opening_eq_ok_iff :
    ((solver.method A).opening o x₀).perform j = (.ok s₀, j') ↔
      solver.options.memory ≤ History.mostPairs ∧
        ∃ g₀, (o.opening x₀).perform j = (.ok g₀, j') ∧
          s₀ = .initial solver.options.memory x₀ g₀ := by
  rw [Method.perform_opening_eq_ok_iff]
  constructor
  · rintro ⟨g₀, hopening, hs₀⟩
    obtain ⟨hmemory, rfl⟩ := State.create_eq_some_iff.mp hs₀
    exact ⟨hmemory, g₀, hopening, rfl⟩
  · rintro ⟨hmemory, g₀, hopening, rfl⟩
    exact ⟨g₀, hopening, State.create_eq_some_iff.mpr ⟨hmemory, rfl⟩⟩

end Lbfgs

end QuasiNewton
