import Mathlib.LinearAlgebra.Matrix.ToLin
import QuasiNewton.Proofs.Exact.InverseHessian
import QuasiNewton.Proofs.Lbfgs.Shaped

/-!
# Definite matrices and directions of descent

The inverse Hessian of a history is symmetric and positive definite: a positive multiple of the
identity is, and an update by an accepted pair keeps it so (`Definite.update`). Over exact
scalars the direction of an L-BFGS iteration therefore descends wherever the gradient is not zero,
and its line search does not fall back on the step for directions that do not descend.
-/

namespace QuasiNewton

open Matrix

variable {K : Type} [Field K] {n : Nat}

/-! ### Updates -/

theorem Pair.isSymm_update (p : Pair K) {H : Matrix (Fin n) (Fin n) K} (hH : H.IsSymm) :
    (p.update n H).IsSymm := by
  rw [IsSymm, Pair.update, transpose_add, transpose_mul, transpose_mul, hH.eq, transpose_sub,
    transpose_sub, transpose_one, transpose_smul, transpose_smul, transpose_smul,
    transpose_vecMulVec, transpose_vecMulVec, transpose_vecMulVec, Matrix.mul_assoc]

/-- The form of an updated matrix is that of the old one at what the step down leaves of the
vector, and a square for what it takes away. -/
theorem Pair.dotProduct_update_mulVec (p : Pair K) (H : Matrix (Fin n) (Fin n) K) {v w : Fin n → K}
    (hw : w = v - (p.rho * (coords n p.s ⬝ᵥ v)) • coords n p.y) :
    v ⬝ᵥ p.update n H *ᵥ v =
      w ⬝ᵥ H *ᵥ w + p.rho * (coords n p.s ⬝ᵥ v * (coords n p.s ⬝ᵥ v)) := by
  rw [p.update_mulVec H rfl rfl, ← hw, dotProduct_add, dotProduct_smul, smul_eq_mul,
    dotProduct_comm v (coords n p.s)]
  have hdown : w ⬝ᵥ H *ᵥ w =
      v ⬝ᵥ H *ᵥ w - p.rho * (coords n p.s ⬝ᵥ v) * (coords n p.y ⬝ᵥ H *ᵥ w) := by
    nth_rewrite 1 [hw]
    rw [sub_dotProduct, smul_dotProduct, smul_eq_mul]
  rw [hdown]
  ring

variable [LinearOrder K]

/-! ### Definite matrices -/

/-- A symmetric matrix that is positive definite. -/
structure Definite (H : Matrix (Fin n) (Fin n) K) : Prop where
  isSymm : H.IsSymm
  pos : ∀ {v : Fin n → K}, v ≠ 0 → 0 < v ⬝ᵥ H *ᵥ v

variable {H : Matrix (Fin n) (Fin n) K}

theorem Definite.nonneg (hH : Definite H) (v : Fin n → K) : 0 ≤ v ⬝ᵥ H *ᵥ v := by
  by_cases hv : v = 0
  · rw [hv, zero_dotProduct]
  · exact (hH.pos hv).le

theorem Definite.dotProduct_mulVec_comm (hH : Definite H) (u v : Fin n → K) :
    u ⬝ᵥ H *ᵥ v = v ⬝ᵥ H *ᵥ u := by
  rw [← dotProduct_transpose_mulVec, hH.isSymm.eq]

variable [IsStrictOrderedRing K]

theorem dotProduct_self_pos {v : Fin n → K} (hv : v ≠ 0) : 0 < v ⬝ᵥ v := by
  have hnonneg : 0 ≤ v ⬝ᵥ v := Finset.sum_nonneg fun i _ => mul_self_nonneg (v i)
  exact lt_of_le_of_ne hnonneg (Ne.symm (mt dotProduct_self_eq_zero.mp hv))

theorem Definite.smul_one {γ : K} (hγ : 0 < γ) : Definite (γ • (1 : Matrix (Fin n) (Fin n) K)) where
  isSymm := isSymm_one.smul γ
  pos := by
    intro v hv
    rw [smul_mulVec, one_mulVec, dotProduct_smul, smul_eq_mul]
    exact mul_pos hγ (dotProduct_self_pos hv)

theorem Definite.update {p : Pair K} (hp : 0 < p.rho) (hH : Definite H) :
    Definite (p.update n H) where
  isSymm := p.isSymm_update hH.isSymm
  pos := by
    intro v hv
    rw [p.dotProduct_update_mulVec H rfl]
    by_cases hs : coords n p.s ⬝ᵥ v = 0
    · -- the step down takes nothing away
      rw [hs, mul_zero, zero_smul, sub_zero, mul_zero, mul_zero, add_zero]
      exact hH.pos hv
    · exact add_pos_of_nonneg_of_pos (hH.nonneg _) (mul_pos hp (mul_self_pos.mpr hs))

theorem Definite.foldl_update {ps : List (Pair K)} (hps : ∀ p ∈ ps, 0 < p.rho)
    (hH : Definite H) : Definite (ps.foldl (fun H p => p.update n H) H) := by
  induction ps generalizing H with
  | nil => exact hH
  | cons p newer ih =>
    rw [List.foldl_cons]
    exact ih (fun q hq => hps q (List.mem_cons_of_mem p hq))
      (hH.update (hps p List.mem_cons_self))

/-! ### The matrix of a history -/

variable {A : Arithmetic K}

theorem Pair.Accepted.rho_pos (hA : A.Exact) {p : Pair K} (hp : p.Accepted A n) : 0 < p.rho := by
  rw [(hp.curvature_eq_dotProduct hA).2]
  exact one_div_pos.mpr (hp.dotProduct_pos hA)

namespace History

theorem initialScale_pos (hA : A.Exact) {h : History K} (hps : ∀ p ∈ h.pairs, p.Accepted A n) :
    0 < h.initialScale n := by
  rw [initialScale]
  cases hp : h.newest? with
  | none => exact one_pos
  | some p =>
    have hsy := (hps p (mem_pairs_of_newest? hp)).dotProduct_pos hA
    have hy : coords n p.y ≠ 0 := by
      intro h0
      rw [h0, dotProduct_zero] at hsy
      exact lt_irrefl 0 hsy
    exact div_pos hsy (dotProduct_self_pos hy)

theorem Built.definite_inverseHessian (hA : A.Exact) {h : History K} (hb : Built A n h) :
    Definite (h.inverseHessian n) :=
  (Definite.smul_one (initialScale_pos hA hb.accepted)).foldl_update
    fun p hp => (hb.accepted p hp).rho_pos hA

end History

/-! ### Directions -/

/-- A direction that descends is searched from the value at the point. -/
theorem LineSearch.search_of_slope_neg {opts : Options K} {o : Oracle K}
    {x direction gradient : List K} {slope : K} (hslope : A.inner gradient direction = some slope)
    (hneg : slope < 0) :
    search A opts o x direction gradient =
      o.value x >>= fun value =>
        Line.seek A opts o ⟨x, direction, value, slope⟩ rounds (.initial opts.firstStep) := by
  have hlt : ¬ (0.0 : K) ≤ slope := by
    norm_num
    exact hneg
  rw [search, hslope]
  exact if_neg hlt

namespace Lbfgs

/-- The slope along the direction of a state is what the inverse Hessian makes of its gradient. -/
theorem State.Shaped.exists_slope (hA : A.Exact) {s : State K} (hs : s.Shaped A n) :
    ∃ direction, s.direction A = some direction ∧
      A.inner s.gradient direction = some (-(coords n s.gradient ⬝ᵥ
        s.history.inverseHessian n *ᵥ coords n s.gradient)) := by
  have hg := ofFn_coords hs.length_gradient
  have htwoLoop := hs.built.twoLoop_ofFn hA (coords n s.gradient)
  rw [hg] at htwoLoop
  refine ⟨scale (List.ofFn (s.history.inverseHessian n *ᵥ coords n s.gradient)) (-1.0), ?_, ?_⟩
  · rw [State.direction, htwoLoop]
    rfl
  · have hone : (-1.0 : K) = -1 := by norm_num
    nth_rewrite 1 [← hg]
    rw [scale_ofFn, hA.inner_ofFn, dotProduct_smul, hone, neg_one_smul]

end Lbfgs

/-- The two-loop recursion of every history applies a symmetric and positive definite map, and
every state with a gradient that is not zero has a direction that descends. -/
theorem direction_descends (hA : A.Standard) :
    (∀ {h : History K}, h.Built A n →
      ∃ T : (Fin n → K) →ₗ[K] (Fin n → K),
        (∀ g, h.twoLoop A (List.ofFn g) = some (List.ofFn (T g))) ∧
        (∀ u v, u ⬝ᵥ T v = v ⬝ᵥ T u) ∧
        ∀ g, g ≠ 0 → 0 < g ⬝ᵥ T g) ∧
    ∀ {s : Lbfgs.State K}, s.Reachable A n → coords n s.gradient ≠ 0 →
      ∃ direction slope, s.direction A = some direction ∧
        A.inner s.gradient direction = some slope ∧ slope < 0 ∧
        ∀ opts (o : Oracle K),
          LineSearch.search A opts o s.point direction s.gradient =
            o.value s.point >>= fun value =>
              LineSearch.Line.seek A opts o ⟨s.point, direction, value, slope⟩ LineSearch.rounds
                (.initial opts.firstStep) := by
  constructor
  · intro h hb
    have hH := hb.definite_inverseHessian hA.exact
    exact ⟨(h.inverseHessian n).mulVecLin, hb.twoLoop_ofFn hA.exact, hH.dotProduct_mulVec_comm,
      fun g hg => hH.pos hg⟩
  · intro s hs hne
    have hn : 0 < n := by
      refine Nat.pos_of_ne_zero fun h0 => ?_
      subst h0
      exact hne (Subsingleton.elim _ _)
    have hshaped := hs.shaped hA.lawful hn
    obtain ⟨direction, hdirection, hslope⟩ := hshaped.exists_slope hA.exact
    have hneg := neg_lt_zero.mpr ((hshaped.built.definite_inverseHessian hA.exact).pos hne)
    exact ⟨direction, _, hdirection, hslope, hneg,
      fun opts o => LineSearch.search_of_slope_neg hslope hneg⟩

/-- The rational state after one iteration in the valley. -/
noncomputable def Lbfgs.State.downhill : Lbfgs.State ℚ :=
  ((initial 2 [3, -2] [6, -40]).attempt .laned .standard (Problem.valley.oracle.checked 2) {}).2.1

theorem direction_descends_downhill :
    History.bent.Built .laned 2 ∧
    (∃ T : (Fin 2 → ℚ) →ₗ[ℚ] (Fin 2 → ℚ),
      (∀ g, History.bent.twoLoop .laned (List.ofFn g) = some (List.ofFn (T g))) ∧
      0 < ![1, 2] ⬝ᵥ T ![1, 2]) ∧
    Lbfgs.State.downhill.Reachable .laned 2 ∧ coords 2 Lbfgs.State.downhill.gradient ≠ 0 ∧
    ∃ direction slope, Lbfgs.State.downhill.direction .laned = some direction ∧
      Arithmetic.laned.inner Lbfgs.State.downhill.gradient direction = some slope ∧
      slope < 0 := by
  have hreachable : Lbfgs.State.downhill.Reachable .laned 2 := by
    rw [Lbfgs.State.downhill]
    exact .attempt (.initial 2 (by rfl) (by rfl)) (Problem.shapedAt_checked _ 2) _ _
  have hne : coords 2 Lbfgs.State.downhill.gradient ≠ 0 :=
    Function.ne_iff.mpr ⟨0, by decide +kernel⟩
  obtain ⟨T, hT, -, hpos⟩ := (direction_descends (K := ℚ) .laned).1 History.built_bent
  obtain ⟨direction, slope, hdirection, hslope, hneg, -⟩ :=
    (direction_descends (K := ℚ) .laned).2 hreachable hne
  exact ⟨History.built_bent, ⟨T, hT, hpos _ (Function.ne_iff.mpr ⟨0, by decide +kernel⟩)⟩,
    hreachable, hne, direction, slope, hdirection, hslope, hneg⟩

end QuasiNewton
