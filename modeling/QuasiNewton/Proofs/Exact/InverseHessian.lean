import Mathlib.LinearAlgebra.Matrix.Symmetric
import QuasiNewton.Proofs.Exact.Vector
import QuasiNewton.Proofs.History.Built

/-!
# The inverse Hessian of a history

A history stands for a matrix, which begins as a multiple of the identity and takes one rank-two
update for each pair, the oldest first. Over exact scalars the two-loop recursion applies this
matrix to a vector (`History.Built.twoLoop_ofFn`), without ever forming it.
-/

namespace QuasiNewton

open Matrix

variable {K : Type} [Field K] {n : Nat}

theorem smul_vecMulVec_mulVec (c : K) (u v w : Fin n → K) :
    (c • vecMulVec u v) *ᵥ w = (c * (v ⬝ᵥ w)) • u := by
  rw [smul_mulVec, vecMulVec_mulVec, op_smul_eq_smul, smul_smul]

theorem one_sub_smul_vecMulVec_mulVec (c : K) (u v w : Fin n → K) :
    (1 - c • vecMulVec u v) *ᵥ w = w - (c * (v ⬝ᵥ w)) • u := by
  rw [sub_mulVec, one_mulVec, smul_vecMulVec_mulVec]

/-! ### Updates -/

/-- `(I - ρ s yᵀ) H (I - ρ y sᵀ) + ρ s sᵀ`. -/
def Pair.update (n : Nat) (p : Pair K) (H : Matrix (Fin n) (Fin n) K) :
    Matrix (Fin n) (Fin n) K :=
  (1 - p.rho • vecMulVec (coords n p.s) (coords n p.y)) * H *
      (1 - p.rho • vecMulVec (coords n p.y) (coords n p.s)) +
    p.rho • vecMulVec (coords n p.s) (coords n p.s)

namespace History

/-- The scale of the newest pair, one if there is none. -/
def initialScale (n : Nat) (h : History K) : K :=
  match h.newest? with
  | some p => (coords n p.s ⬝ᵥ coords n p.y) / (coords n p.y ⬝ᵥ coords n p.y)
  | none => 1

/-- The matrix for which a history of vectors of length `n` stands. -/
def inverseHessian (n : Nat) (h : History K) : Matrix (Fin n) (Fin n) K :=
  h.pairs.foldl (fun H p => p.update n H) (h.initialScale n • 1)

end History

/-- An updated matrix is applied by one step down and one step up of the sweep. -/
theorem Pair.update_mulVec (H : Matrix (Fin n) (Fin n) K) (p : Pair K) {q r : Fin n → K} {a : K}
    (ha : a = p.rho * (coords n p.s ⬝ᵥ q)) (hr : r = H *ᵥ (q - a • coords n p.y)) :
    p.update n H *ᵥ q = r + (a - p.rho * (coords n p.y ⬝ᵥ r)) • coords n p.s := by
  have hdown : (1 - p.rho • vecMulVec (coords n p.y) (coords n p.s)) *ᵥ q =
      q - a • coords n p.y := by
    rw [one_sub_smul_vecMulVec_mulVec, ha]
  calc
    p.update n H *ᵥ q
        = (1 - p.rho • vecMulVec (coords n p.s) (coords n p.y)) *ᵥ r + a • coords n p.s := by
          rw [Pair.update, add_mulVec, ← mulVec_mulVec, ← mulVec_mulVec, hdown,
            smul_vecMulVec_mulVec, hr, ha]
    _ = r - (p.rho * (coords n p.y ⬝ᵥ r)) • coords n p.s + a • coords n p.s := by
          rw [one_sub_smul_vecMulVec_mulVec]
    _ = r + (a - p.rho * (coords n p.y ⬝ᵥ r)) • coords n p.s := by
          rw [sub_smul, sub_add_eq_add_sub, add_sub_assoc]

/-! ### The two-loop recursion -/

variable [LinearOrder K] [IsStrictOrderedRing K] {A : Arithmetic K}

namespace Pair.Accepted

variable {p : Pair K}

theorem curvature_eq_dotProduct (hA : A.Exact) (hp : p.Accepted A n) :
    History.leastCurvature < coords n p.s ⬝ᵥ coords n p.y ∧
      p.rho = 1 / (coords n p.s ⬝ᵥ coords n p.y) := by
  obtain ⟨c, hc, hlt, hrho⟩ := hp.curvature
  rw [hA.inner_eq_dotProduct hp.length_s hp.length_y] at hc
  obtain rfl := Option.some.inj hc
  refine ⟨hlt, ?_⟩
  rw [hrho]
  norm_num

theorem dotProduct_pos (hA : A.Exact) (hp : p.Accepted A n) :
    0 < coords n p.s ⬝ᵥ coords n p.y :=
  leastCurvature_pos.trans (hp.curvature_eq_dotProduct hA).1

/-- Vectors without coordinates have no curvature. -/
theorem length_pos (hA : A.Exact) (hp : p.Accepted A n) : 0 < n := by
  refine Nat.pos_of_ne_zero fun hn => ?_
  subst hn
  exact (hp.dotProduct_pos hA).ne' (Finset.sum_of_isEmpty _)

end Pair.Accepted

namespace History

/-- The sweep applies the updates of its pairs, of which it gets the newest first. -/
theorem sweep_ofFn (hA : A.Exact) (γ : K) {ps : List (Pair K)} (hps : ∀ p ∈ ps, p.Accepted A n)
    (q : Fin n → K) :
    sweep A γ ps (List.ofFn q) =
      some (List.ofFn (ps.foldr (fun p H => p.update n H) (γ • 1) *ᵥ q)) := by
  induction ps generalizing q with
  | nil => rw [sweep, scale_ofFn, List.foldr_nil, smul_mulVec, one_mulVec]
  | cons p older ih =>
    have hp := hps p List.mem_cons_self
    have hn := hp.length_pos hA
    have hs := ofFn_coords hp.length_s
    have hy := ofFn_coords hp.length_y
    have hinner (v : Fin n → K) : A.inner p.s (List.ofFn v) = some (coords n p.s ⬝ᵥ v) := by
      rw [← hA.inner_ofFn, hs]
    have hinner' (v : Fin n → K) : A.inner p.y (List.ofFn v) = some (coords n p.y ⬝ᵥ v) := by
      rw [← hA.inner_ofFn, hy]
    have hsub (v : Fin n → K) (a : K) :
        A.sub (List.ofFn v) (scale p.y a) = some (List.ofFn (v - a • coords n p.y)) := by
      rw [← hA.sub_ofFn hn, ← scale_ofFn, hy]
    have hadd (v : Fin n → K) (b : K) :
        A.add (List.ofFn v) (scale p.s b) = some (List.ofFn (v + b • coords n p.s)) := by
      rw [← hA.add_ofFn hn, ← scale_ofFn, hs]
    rw [List.foldr_cons, Pair.update_mulVec _ p rfl rfl]
    simp only [sweep, hinner, hsub, ih fun p hp => hps p (List.mem_cons_of_mem _ hp), hinner',
      hadd, Option.bind_eq_bind, Option.bind_some]

theorem scaling_eq_initialScale (hA : A.Exact) {h : History K}
    (hps : ∀ p ∈ h.pairs, p.Accepted A n) : h.scaling A = some (h.initialScale n) := by
  rw [scaling, initialScale]
  cases hp : h.newest? with
  | none => exact congrArg some (by norm_num)
  | some p =>
    have hacc := hps p (mem_pairs_of_newest? hp)
    simp only [hA.inner_eq_dotProduct hacc.length_s hacc.length_y,
      hA.inner_eq_dotProduct hacc.length_y hacc.length_y, Option.bind_eq_bind, Option.bind_some,
      Option.pure_def]

theorem twoLoop_ofFn (hA : A.Exact) {h : History K} (hps : ∀ p ∈ h.pairs, p.Accepted A n)
    (g : Fin n → K) :
    h.twoLoop A (List.ofFn g) = some (List.ofFn (h.inverseHessian n *ᵥ g)) := by
  rw [twoLoop, scaling_eq_initialScale hA hps, Option.bind_eq_bind, Option.bind_some,
    sweep_ofFn hA _ (fun p hp => hps p (List.mem_reverse.mp hp)), List.foldr_reverse]
  rfl

theorem Built.twoLoop_ofFn (hA : A.Exact) {h : History K} (hb : Built A n h) (g : Fin n → K) :
    h.twoLoop A (List.ofFn g) = some (List.ofFn (h.inverseHessian n *ᵥ g)) :=
  History.twoLoop_ofFn hA hb.accepted g

/-- The two-loop recursion applies the inverse Hessian of the history. -/
theorem twoLoop_eq_inverseHessian_mulVec (hA : A.Standard) {h : History K} (hb : Built A n h)
    {g : List K} (hg : g.length = n) :
    h.twoLoop A g = some (List.ofFn (h.inverseHessian n *ᵥ coords n g)) := by
  rw [← hb.twoLoop_ofFn hA.exact, ofFn_coords hg]

/-- What is left of three pairs of rational vectors where there is room for two. -/
def bent : History ℚ :=
  ⟨2, [⟨[1 / 2, 1 / 2], [1 / 2, 5], 4 / 11⟩, ⟨[0, 1 / 10], [1, 1], 10⟩]⟩

theorem built_bent : Built .laned 2 bent := by
  have h₁ : (empty 2 : History ℚ).offer .laned [1, 0] [1, 0] =
      some (true, ⟨2, [⟨[1, 0], [1, 0], 1⟩]⟩) := by
    decide +kernel
  have h₂ : (⟨2, [⟨[1, 0], [1, 0], 1⟩]⟩ : History ℚ).offer .laned [1 / 2, 1 / 2] [1 / 2, 5] =
      some (true, ⟨2, [⟨[1, 0], [1, 0], 1⟩, ⟨[1 / 2, 1 / 2], [1 / 2, 5], 4 / 11⟩]⟩) := by
    decide +kernel
  have h₃ : (⟨2, [⟨[1, 0], [1, 0], 1⟩, ⟨[1 / 2, 1 / 2], [1 / 2, 5], 4 / 11⟩]⟩ :
      History ℚ).offer .laned [0, 1 / 10] [1, 1] = some (true, bent) := by
    decide +kernel
  have hb₁ := (Built.empty 2).offer (by rfl) (by rfl) h₁
  have hb₂ := hb₁.offer (by rfl) (by rfl) h₂
  exact hb₂.offer (by rfl) (by rfl) h₃

theorem twoLoop_eq_inverseHessian_mulVec_bent :
    Arithmetic.Standard (.laned : Arithmetic ℚ) ∧ Built .laned 2 bent ∧
      ([1, 2] : List ℚ).length = 2 ∧
      bent.twoLoop .laned [1, 2] =
        some (List.ofFn (bent.inverseHessian 2 *ᵥ coords 2 [1, 2])) :=
  ⟨.laned, built_bent, rfl, twoLoop_eq_inverseHessian_mulVec .laned built_bent rfl⟩

end History

end QuasiNewton
