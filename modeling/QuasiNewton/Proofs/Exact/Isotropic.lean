import Mathlib
import QuasiNewton.Proofs.Exact.Bracketing
import QuasiNewton.Proofs.Exact.Definite
import QuasiNewton.Proofs.Exact.Secant
import QuasiNewton.Proofs.Lbfgs.Room
import QuasiNewton.Proofs.Visits

/-!
# Round bowls

Along every step in a round bowl the gradient changes by the same multiple of the step, so all pairs
say the same of the curvature: whatever their number, the two-loop recursion divides by it
(`History.inverseHessian_mulVec`). With one pair in store the direction leads to the centre, the
first step is accepted, and the run is over (`Lbfgs.round_bowl_solved`).
-/

namespace QuasiNewton

open Matrix

/-! ### Pairs of one curvature -/

section

variable {K : Type} [Field K] {n : Nat} {lam : K}

/-- Along the step the gradient changes by `lam` times the step. -/
def Pair.Isotropic (n : Nat) (lam : K) (p : Pair K) : Prop :=
  coords n p.y = lam • coords n p.s

/-- Such a pair has nothing to add to an estimate that divides by `lam`. -/
theorem Pair.Isotropic.update_mulVec {p : Pair K} (hp : p.Isotropic n lam) (hlam : lam ≠ 0)
    (hrho : p.rho * (coords n p.s ⬝ᵥ coords n p.y) = 1) {H : Matrix (Fin n) (Fin n) K}
    (hH : ∀ q, H *ᵥ q = lam⁻¹ • q) (q : Fin n → K) : p.update n H *ᵥ q = lam⁻¹ • q := by
  have hy : coords n p.y = lam • coords n p.s := hp
  rw [hy, dotProduct_smul, smul_eq_mul] at hrho
  have hb (r : Fin n → K) : p.rho * (coords n p.y ⬝ᵥ lam⁻¹ • r) = p.rho * (coords n p.s ⬝ᵥ r) := by
    rw [hy, smul_dotProduct, dotProduct_smul, smul_eq_mul, smul_eq_mul, mul_inv_cancel_left₀ hlam]
  rw [p.update_mulVec H rfl rfl, hH, hb, hy, dotProduct_sub, dotProduct_smul, dotProduct_smul,
    smul_eq_mul, smul_eq_mul]
  ext i
  simp only [Pi.add_apply, Pi.smul_apply, Pi.sub_apply, smul_eq_mul]
  linear_combination
    (-(p.rho * (coords n p.s ⬝ᵥ q) * coords n p.s i)) * (mul_inv_cancel₀ hlam) +
    (p.rho * (coords n p.s ⬝ᵥ q) * coords n p.s i) * hrho

namespace History

variable [LinearOrder K] [IsStrictOrderedRing K] {A : Arithmetic K}

theorem foldl_update_mulVec (hA : A.Exact) (hlam : lam ≠ 0) {ps : List (Pair K)}
    (haccepted : ∀ p ∈ ps, p.Accepted A n) (hps : ∀ p ∈ ps, p.Isotropic n lam)
    {H : Matrix (Fin n) (Fin n) K} (hH : ∀ q, H *ᵥ q = lam⁻¹ • q) (q : Fin n → K) :
    ps.foldl (fun H p => p.update n H) H *ᵥ q = lam⁻¹ • q := by
  induction ps generalizing H with
  | nil => exact hH q
  | cons p newer ih =>
    rw [List.forall_mem_cons] at haccepted hps
    exact ih haccepted.2 hps.2
      (hps.1.update_mulVec hlam (haccepted.1.rho_mul_dotProduct hA) hH)

theorem initialScale_eq_inv (hA : A.Exact) {h : History K} (hne : h.pairs ≠ [])
    (haccepted : ∀ p ∈ h.pairs, p.Accepted A n) (hps : ∀ p ∈ h.pairs, p.Isotropic n lam) :
    h.initialScale n = lam⁻¹ := by
  obtain ⟨p, hp⟩ : ∃ p, h.newest? = some p := ⟨_, List.getLast?_eq_some_getLast hne⟩
  have hmem := mem_pairs_of_newest? hp
  have hy : coords n p.y = lam • coords n p.s := hps p hmem
  have hpos := (haccepted p hmem).dotProduct_pos hA
  rw [hy, dotProduct_smul, smul_eq_mul] at hpos
  have hlam : lam ≠ 0 := left_ne_zero_of_mul hpos.ne'
  have hs : coords n p.s ⬝ᵥ coords n p.s ≠ 0 := right_ne_zero_of_mul hpos.ne'
  rw [initialScale, hp]
  simp only [hy, dotProduct_smul, smul_dotProduct, smul_eq_mul]
  field_simp

/-- Pairs of one curvature, at least one of them, divide by it. -/
theorem inverseHessian_mulVec (hA : A.Exact) {h : History K} (hne : h.pairs ≠ [])
    (haccepted : ∀ p ∈ h.pairs, p.Accepted A n) (hps : ∀ p ∈ h.pairs, p.Isotropic n lam)
    (hlam : lam ≠ 0) (q : Fin n → K) : h.inverseHessian n *ᵥ q = lam⁻¹ • q := by
  refine foldl_update_mulVec hA hlam haccepted hps (fun q => ?_) q
  rw [initialScale_eq_inv hA hne haccepted hps, smul_mulVec, one_mulVec]

end History

end

/-! ### The bowl -/

variable {n : ℕ} {lam c : ℝ} {m : Fin n → ℝ}

/-- `(λ / 2) |v - m|² + c`. -/
noncomputable def roundBowl (lam : ℝ) (m : Fin n → ℝ) (c : ℝ) (v : Fin n → ℝ) : ℝ :=
  0.5 * lam * ((v - m) ⬝ᵥ (v - m)) + c

theorem roundBowl_eq (v : Fin n → ℝ) :
    roundBowl lam m c v = lam / 2 * ((v - m) ⬝ᵥ (v - m)) + c := by
  have hhalf : 0.5 * lam = lam / 2 := by
    norm_num
    ring
  rw [roundBowl, hhalf]

theorem roundBowl_center : roundBowl lam m c m = c := by
  simp [roundBowl_eq]

theorem fderiv_roundBowl (u w : Fin n → ℝ) :
    fderiv ℝ (roundBowl lam m c) u w = lam * ((u - m) ⬝ᵥ w) := by
  have hcoordinate (i : Fin n) : HasFDerivAt (fun v : Fin n → ℝ => v i - m i)
      (.proj i : (Fin n → ℝ) →L[ℝ] ℝ) u :=
    (hasFDerivAt_apply i u).sub_const (m i)
  have hsum := HasFDerivAt.fun_sum fun i (_ : i ∈ Finset.univ) =>
    (hcoordinate i).mul (hcoordinate i)
  have hbowl : HasFDerivAt (roundBowl lam m c) _ u :=
    ((hsum.const_mul (lam / 2)).add_const c).congr_of_eventuallyEq (.of_forall roundBowl_eq)
  have hterm (i : Fin n) : lam / 2 * ((u i - m i) * w i + (u i - m i) * w i) =
      lam * ((u i - m i) * w i) := by
    ring
  rw [hbowl.fderiv]
  simp [dotProduct, Finset.mul_sum, hterm]

/-- The gradient is `λ` times the way from the centre. -/
theorem gradient_roundBowl (u : Fin n → ℝ) :
    (fun i => fderiv ℝ (roundBowl lam m c) u (Pi.single i 1)) = lam • (u - m) := by
  funext i
  rw [fderiv_roundBowl, dotProduct_single_one, Pi.smul_apply, smul_eq_mul]

theorem Oracle.Tells.shapedAt {f : (Fin n → ℝ) → ℝ} {o : Oracle ℝ} (ho : o.Tells f) :
    o.ShapedAt n := by
  intro x g j j' hx h
  obtain ⟨v, rfl⟩ := exists_eq_ofFn hx
  obtain ⟨j₁, hv⟩ := ho.gradient v j
  cases hv.symm.trans h
  exact List.length_ofFn

/-! ### First steps that are accepted -/

namespace LineSearch

/-- The search tries the first step of its options, accepts it, and answers with it. -/
def FirstStepAccepted (A : Arithmetic ℝ) (opts : Options ℝ) (o : Oracle ℝ) (x d g : List ℝ) :
    Prop :=
  ∀ j, ∃ l j₁ j₂, Round A opts o x d g j l rounds (.initial opts.firstStep) j₁ ∧
    (l.judge A opts o opts.firstStep).perform j₁ = (.ok .accepted, j₂) ∧
    (search A opts o x d g).perform j = (.ok opts.firstStep, j₂)

/-- The verdict on the first step decides, for a direction that descends. -/
theorem firstStepAccepted_of_verdictOf {f : (Fin n → ℝ) → ℝ} {A : Arithmetic ℝ} (hA : A.Exact)
    (hn : 0 < n) {o : Oracle ℝ} (ho : o.Tells f) {opts : Options ℝ} {u w : Fin n → ℝ} {g : List ℝ}
    (hslope : A.inner g (List.ofFn w) = some (fderiv ℝ f u w)) (hneg : fderiv ℝ f u w < 0)
    (haccepted : (Line.ofSmooth f u w).verdictOf opts opts.firstStep (f (u + opts.firstStep • w))
      (fderiv ℝ f (u + opts.firstStep • w) w) = .accepted) :
    FirstStepAccepted A opts o (List.ofFn u) (List.ofFn w) g := by
  intro j
  have hzero : (0.0 : ℝ) = 0 := by norm_num
  obtain ⟨j₁, hvalue⟩ := ho.value u j
  have hround : Round A opts o (List.ofFn u) (List.ofFn w) g j (Line.ofSmooth f u w) rounds
      (.initial opts.firstStep) j₁ :=
    .first hslope (by rw [hzero]; exact not_le.mpr hneg) hvalue
  obtain ⟨j₂, hjudge⟩ :=
    (Line.ofSmooth f u w).perform_judge opts hA ho hn rfl rfl opts.firstStep j₁
  rw [haccepted] at hjudge
  refine ⟨_, j₁, j₂, hround, hjudge, ?_⟩
  exact hround.perform_eq.trans
    (Line.perform_seek_of_accepted (b := .initial opts.firstStep) hjudge 49)

end LineSearch

/-! ### States in the bowl -/

namespace Lbfgs

open LineSearch

variable {A : Arithmetic ℝ} {opts : LineSearch.Options ℝ} {o : Oracle ℝ} {s s' : State ℝ}
  {j j' : Journal ℝ}

/-- A state with the gradient of a bowl, all of whose pairs say the same of the curvature. -/
structure State.InBowl (A : Arithmetic ℝ) (lam : ℝ) (m : Fin n → ℝ) (s : State ℝ) : Prop
    extends s.Shaped A n where
  gradient_eq : coords n s.gradient = lam • (coords n s.point - m)
  isotropic : ∀ p ∈ s.history.pairs, p.Isotropic n lam

theorem Iteration.coords_move {step : ℝ} (i : Iteration A opts o s j s' step j') (hA : A.Exact)
    (hn : 0 < n) (hs : s.Shaped A n) (hs' : s'.Shaped A n) :
    coords n i.move = coords n s'.point - coords n s.point := by
  have hsub := hA.sub_ofFn hn (coords n s'.point) (coords n s.point)
  rw [ofFn_coords hs'.length_point, ofFn_coords hs.length_point] at hsub
  rw [Option.some.inj (i.move_eq.symm.trans hsub), coords_ofFn]

theorem Iteration.coords_change {step : ℝ} (i : Iteration A opts o s j s' step j') (hA : A.Exact)
    (hn : 0 < n) (hs : s.Shaped A n) (hs' : s'.Shaped A n) :
    coords n i.change = coords n s'.gradient - coords n s.gradient := by
  have hsub := hA.sub_ofFn hn (coords n s'.gradient) (coords n s.gradient)
  rw [ofFn_coords hs'.length_gradient, ofFn_coords hs.length_gradient] at hsub
  rw [Option.some.inj (i.change_eq.symm.trans hsub), coords_ofFn]

/-- In the bowl an iteration stores a pair of its curvature, if any. -/
theorem State.InBowl.iteration {step : ℝ} (hs : s.InBowl A lam m) (hA : A.Exact) (hn : 0 < n)
    (ho : o.Tells (roundBowl lam m c)) (i : Iteration A opts o s j s' step j') :
    s'.InBowl A lam m := by
  have hs' := i.shaped hA.toLawful hn ho.shapedAt hs.toShaped
  have hgradient : coords n s'.gradient = lam • (coords n s'.point - m) := by
    obtain ⟨j₁, h⟩ := ho.gradient (coords n s'.point) i.searched
    rw [ofFn_coords hs'.length_point, gradient_roundBowl] at h
    have hanswer := congrArg Prod.fst (i.gradient_eq.symm.trans h)
    rw [Except.ok.inj hanswer, coords_ofFn]
  have hpair : coords n i.change = lam • coords n i.move := by
    rw [i.coords_change hA hn hs.toShaped hs', i.coords_move hA hn hs.toShaped hs', hgradient,
      hs.gradient_eq, ← smul_sub, sub_sub_sub_cancel_right]
  refine ⟨hs', hgradient, ?_⟩
  obtain ⟨-, -, hstore⟩ | ⟨-, -, hsame⟩ := i.offer_cases
  · rw [hstore]
    intro p hp
    obtain hp | rfl := History.mem_pairs_store hp
    · exact hs.isotropic p hp
    · exact hpair
  · rw [hsame]
    exact hs.isotropic

/-- With a pair in store the direction leads to the centre. -/
theorem State.InBowl.direction_eq (hs : s.InBowl A lam m) (hA : A.Exact) (hlam : 0 < lam)
    (hne : s.history.pairs ≠ []) :
    s.direction A = some (List.ofFn (m - coords n s.point)) := by
  have hone : (-1.0 : ℝ) = -1 := by norm_num
  have htwoLoop := hs.built.twoLoop_ofFn hA (coords n s.gradient)
  rw [ofFn_coords hs.length_gradient, History.inverseHessian_mulVec hA hne hs.built.accepted
    hs.isotropic hlam.ne', hs.gradient_eq, inv_smul_smul₀ hlam.ne'] at htwoLoop
  rw [direction, htwoLoop]
  change some (scale (List.ofFn (coords n s.point - m)) (-1.0)) = _
  rw [scale_ofFn, hone, neg_one_smul, neg_sub]

/-- An iteration whose first step is accepted moves by it. -/
theorem State.Shaped.exists_iteration {f : (Fin n → ℝ) → ℝ} (hs : s.Shaped A n) (hA : A.Exact)
    (hn : 0 < n) (ho : o.Tells f) {w : Fin n → ℝ} (hdirection : s.direction A = some (List.ofFn w))
    {slope : ℝ} (hslope : A.inner s.gradient (List.ofFn w) = some slope) (hneg : slope < 0)
    (haccepted : FirstStepAccepted A opts o s.point (List.ofFn w) s.gradient) (j : Journal ℝ) :
    ∃ s' j', Nonempty (Iteration A opts o s j s' opts.firstStep j') ∧
      s'.point = List.ofFn (coords n s.point + opts.firstStep • w) := by
  have hzero : (0.0 : ℝ) = 0 := by norm_num
  obtain ⟨-, -, searched, -, -, hsearch⟩ := haccepted j
  have hpoint := hA.addScaled_ofFn hn (coords n s.point) w opts.firstStep
  rw [ofFn_coords hs.length_point] at hpoint
  obtain ⟨evaluated, hgradient⟩ := ho.gradient (coords n s.point + opts.firstStep • w) searched
  obtain ⟨move, hmove, hlength_move⟩ := hA.toLawful.exists_sub hn List.length_ofFn hs.length_point
  obtain ⟨change, hchange, hlength_change⟩ :=
    hA.toLawful.exists_sub hn List.length_ofFn hs.length_gradient
  have hlength := hlength_move.trans hlength_change.symm
  obtain ⟨curvature, hcurvature⟩ := hA.toLawful.exists_inner hlength
  obtain ⟨⟨stored, history⟩, hoffer⟩ := History.exists_offer hA.toLawful s.history hlength
  refine ⟨{ point := _, gradient := _, iteration := s.iteration + 1, history }, _,
    ⟨⟨List.ofFn w, slope, searched, evaluated, move, change, curvature, stored, hdirection, hslope,
      ?_, hpoint, hgradient, hmove, hchange, hcurvature, hoffer, rfl, rfl⟩⟩, rfl⟩
  rw [if_neg (by rw [hzero]; exact not_le.mpr hneg)]
  exact hsearch

section

variable (hA : A.Exact) (hn : 0 < n) (ho : o.Tells (roundBowl lam m c)) (hlam : 0 < lam)
  (hopts : opts.Valid) (hfirst : opts.firstStep = 1) (harmijo : opts.armijo ≤ 1 / 2)

/-- The slope towards the centre. -/
theorem State.InBowl.slope_eq (hs : s.InBowl A lam m) (hA : A.Exact) :
    A.inner s.gradient (List.ofFn (m - coords n s.point)) =
      some (fderiv ℝ (roundBowl lam m c) (coords n s.point) (m - coords n s.point)) := by
  rw [fderiv_roundBowl, ← smul_eq_mul, ← smul_dotProduct, ← hs.gradient_eq, ← hA.inner_ofFn,
    ofFn_coords hs.length_gradient]

theorem fderiv_roundBowl_center (u : Fin n → ℝ) :
    fderiv ℝ (roundBowl lam m c) u (m - u) = -(lam * ((u - m) ⬝ᵥ (u - m))) := by
  rw [fderiv_roundBowl, ← neg_sub u m, dotProduct_neg, mul_neg]

include hlam hopts harmijo in
/-- Half of what the slope promises is gained at the centre, and nothing of the slope is left. -/
theorem verdictOf_center (u : Fin n → ℝ) :
    (Line.ofSmooth (roundBowl lam m c) u (m - u)).verdictOf opts 1
      (roundBowl lam m c (u + (1 : ℝ) • (m - u)))
      (fderiv ℝ (roundBowl lam m c) (u + (1 : ℝ) • (m - u)) (m - u)) = .accepted := by
  have hsquare : 0 ≤ (u - m) ⬝ᵥ (u - m) := Finset.sum_nonneg fun i _ => mul_self_nonneg _
  have hdecreases : (Line.ofSmooth (roundBowl lam m c) u (m - u)).Decreases opts 1 c := by
    change c ≤ roundBowl lam m c u + opts.armijo * 1 * fderiv ℝ (roundBowl lam m c) u (m - u)
    rw [fderiv_roundBowl_center, roundBowl_eq]
    nlinarith [mul_nonneg hlam.le hsquare]
  have hflattens : (Line.ofSmooth (roundBowl lam m c) u (m - u)).Flattens opts 0 := by
    change |(0 : ℝ)| ≤ opts.curvature * |_|
    rw [abs_zero]
    exact mul_nonneg (hopts.armijo_pos.trans hopts.armijo_lt).le (abs_nonneg _)
  rw [one_smul, add_sub_cancel, roundBowl_center, fderiv_roundBowl, sub_self, zero_dotProduct,
    mul_zero, Line.verdictOf, if_pos hdecreases, Line.judgeSlope, if_pos hflattens]

include hA hn ho hlam hopts hfirst harmijo

/-- With a pair in store an iteration takes the step 1 to the centre. -/
theorem State.InBowl.exists_iteration (hs : s.InBowl A lam m) (hne : s.history.pairs ≠ [])
    (hgradient : coords n s.gradient ≠ 0) :
    FirstStepAccepted A opts o s.point (List.ofFn (m - coords n s.point)) s.gradient ∧
    ∀ j, ∃ s' j', Nonempty (Iteration A opts o s j s' 1 j') ∧ s'.point = List.ofFn m := by
  have hslope := hs.slope_eq (c := c) hA
  have hne_zero : coords n s.point - m ≠ 0 := by
    intro h
    rw [hs.gradient_eq, h, smul_zero] at hgradient
    exact hgradient rfl
  have hneg : fderiv ℝ (roundBowl lam m c) (coords n s.point) (m - coords n s.point) < 0 := by
    rw [fderiv_roundBowl_center]
    exact neg_lt_zero.mpr (mul_pos hlam (dotProduct_self_pos hne_zero))
  have hverdict := verdictOf_center (c := c) (m := m) hlam hopts harmijo (coords n s.point)
  rw [← hfirst] at hverdict
  have haccepted := firstStepAccepted_of_verdictOf hA hn ho hslope hneg hverdict
  rw [ofFn_coords hs.length_point] at haccepted
  refine ⟨haccepted, fun j => ?_⟩
  obtain ⟨s', j', hi, hpoint⟩ := hs.toShaped.exists_iteration hA hn ho
    (hs.direction_eq hA hlam hne) hslope hneg haccepted j
  rw [hfirst] at hi hpoint
  rw [one_smul, add_sub_cancel] at hpoint
  exact ⟨s', j', hi, hpoint⟩

end

/-! ### Runs in the bowl -/

theorem State.InBowl.gradient_center (hs : s.InBowl A lam m) (hpoint : s.point = List.ofFn m) :
    coords n s.gradient = 0 := by
  rw [hs.gradient_eq, hpoint, coords_ofFn, sub_self, smul_zero]

theorem State.InBowl.norm_eq_zero (hs : s.InBowl A lam m) (hA : A.Exact)
    (hgradient : coords n s.gradient = 0) : norm s.gradient = 0 := by
  obtain ⟨c, hc, hnorm⟩ := hA.norm_eq s.gradient
  rw [hA.inner_eq_dotProduct hs.length_gradient hs.length_gradient, hgradient,
    zero_dotProduct] at hc
  have hroot : exactRoot (0 * 0) = (0 : ℝ) := exactRoot_mul_self le_rfl
  rw [mul_zero] at hroot
  rw [hnorm, ← Option.some.inj hc]
  exact hroot

/-- No iteration leaves the bowl. -/
theorem invariant_inBowl (hA : A.Exact) (hn : 0 < n) (ho : o.Tells (roundBowl lam m c))
    (solver : Lbfgs ℝ) : (solver.method A).Invariant o (State.InBowl A lam m) where
  advance := by
    intro s s' step j j' hs h
    obtain ⟨i⟩ := State.perform_advance_eq_ok_iff.mp h
    exact ⟨hs.iteration hA hn ho i, i.iteration_eq⟩

theorem inBowl_start {x₀ g₀ : List ℝ} (hx₀ : x₀.length = n) {j j₁ : Journal ℝ}
    (hopening : ((Problem.ofSmooth n (roundBowl lam m c)).oracle.opening x₀).perform j =
      (.ok g₀, j₁)) (memory : ℕ) : (State.initial memory x₀ g₀).InBowl A lam m := by
  have hg₀ := Problem.gradientAt_of_opening hopening
  obtain ⟨v, rfl⟩ := exists_eq_ofFn hx₀
  have hanswer : (List.ofFn fun i => fderiv ℝ (roundBowl lam m c) (coords n (List.ofFn v))
      (Pi.single i 1)) = g₀ := Except.ok.inj hg₀.eq_ok
  rw [coords_ofFn, gradient_roundBowl] at hanswer
  obtain rfl := hanswer
  refine ⟨State.shaped_initial memory hx₀ List.length_ofFn, ?_, List.forall_mem_nil _⟩
  change coords n (List.ofFn (lam • (v - m))) = lam • (coords n (List.ofFn v) - m)
  rw [coords_ofFn, coords_ofFn]

/-- With a pair in store the loop needs one iteration at most. -/
theorem State.InBowl.descend (hs : s.InBowl A lam m) (hA : A.Exact) (hn : 0 < n)
    (ho : o.Tells (roundBowl lam m c)) (hlam : 0 < lam) {solver : Lbfgs ℝ}
    (hsolver : solver.options.Valid) (hfirst : solver.options.lineSearch.firstStep = 1)
    (harmijo : solver.options.lineSearch.armijo ≤ 1 / 2) (hne : s.history.pairs ≠ []) (left : ℕ)
    (j : Journal ℝ) :
    ∃ s' j', ((solver.method A).descend solver.options.tolerance o (left + 1) s).perform j =
      (.ok (.converged, s'), j') ∧ s'.InBowl A lam m ∧ s'.iteration ≤ s.iteration + 1 := by
  have hpos : 0 < solver.options.tolerance :=
    lt_of_lt_of_le (by norm_num) hsolver.limits.least
  by_cases hlt : (solver.method A).gradNorm s < solver.options.tolerance
  · rw [Method.descend_of_lt hlt]
    exact ⟨s, j, rfl, hs, Nat.le_succ _⟩
  · have hgradient : coords n s.gradient ≠ 0 := by
      intro hzero
      refine hlt (lt_of_eq_of_lt ?_ hpos)
      exact hs.norm_eq_zero hA hzero
    obtain ⟨-, hiteration⟩ := hs.exists_iteration hA hn ho hlam hsolver.lineSearch hfirst harmijo
      hne hgradient
    obtain ⟨s', j₁, ⟨i⟩, hpoint⟩ := hiteration j
    have hs' := hs.iteration hA hn ho i
    have hcenter : (solver.method A).gradNorm s' < solver.options.tolerance :=
      lt_of_eq_of_lt (hs'.norm_eq_zero hA (hs'.gradient_center hpoint)) hpos
    refine ⟨s', j₁.push (.noted ((solver.method A).iterationRecord s' 1)), ?_, hs',
      i.iteration_eq.le⟩
    rw [Method.perform_descend_succ hlt (State.perform_advance_eq_ok_iff.mpr ⟨i⟩),
      Method.descend_of_lt hcenter]
    rfl

/-- In a run in a round bowl that remembers a pair, the direction leads to the centre, the first
step is accepted, and it ends exactly there. If there is an iteration left, the run converges with
it, or it has converged before. -/
theorem round_bowl_solved (hA : A.Standard) (hlam : 0 < lam) (m : Fin n → ℝ) (c : ℝ)
    {solver : Lbfgs ℝ} (hsolver : solver.options.Valid)
    (hfirst : solver.options.lineSearch.firstStep = 1)
    (harmijo : solver.options.lineSearch.armijo ≤ 1 / 2) {x₀ : List ℝ} (hx₀ : x₀.length = n)
    (j : Journal ℝ) :
    ∀ v ∈ (solver.method A).itinerary solver.options.toStopping
        (Problem.ofSmooth n (roundBowl lam m c)).oracle x₀ j,
      v.1.history.pairs ≠ [] →
      (coords n v.1.gradient ≠ 0 →
        v.1.direction A = some (List.ofFn (m - coords n v.1.point)) ∧
        FirstStepAccepted A solver.options.lineSearch
          ((Problem.ofSmooth n (roundBowl lam m c)).oracle.checked n) v.1.point
          (List.ofFn (m - coords n v.1.point)) v.1.gradient ∧
        ∀ k, ∃ s k', (v.1.advance A solver.options.lineSearch
            ((Problem.ofSmooth n (roundBowl lam m c)).oracle.checked n)).perform k =
              (.ok (s, 1), k') ∧
          s.point = List.ofFn m) ∧
      (v.1.iteration < solver.options.budget →
        ∃ out j', (solver.minimize A (Problem.ofSmooth n (roundBowl lam m c)).oracle x₀).perform j =
            (.ok out, j') ∧
          out.converged = true ∧ out.iterations ≤ v.1.iteration + 1) := by
  intro v hv hne
  have hexact := hA.exact
  have htells : ((Problem.ofSmooth n (roundBowl lam m c)).oracle.checked n).Tells
      (roundBowl lam m c) := Problem.tells_ofSmooth.checked
  subst hx₀
  have hn := Method.length_pos_of_itinerary (List.ne_nil_of_mem hv)
  obtain ⟨before, after, hsplit⟩ := List.append_of_mem hv
  obtain ⟨rest, hrest, hbowl, hcount, -, hloop⟩ :=
    (invariant_inBowl hexact hn htells solver).exists_itinerary_eq
      (fun hopening => by
        obtain ⟨-, g₀, hopened, rfl⟩ := perform_opening_eq_ok_iff.mp hopening
        exact ⟨inBowl_start rfl hopened _, rfl⟩) hsplit
  constructor
  · intro hgradient
    obtain ⟨haccepted, hiteration⟩ := hbowl.exists_iteration hexact hn htells hlam
      hsolver.lineSearch hfirst harmijo hne hgradient
    refine ⟨hbowl.direction_eq hexact hlam hne, haccepted, fun k => ?_⟩
    obtain ⟨s, k', hi, hpoint⟩ := hiteration k
    exact ⟨s, k', State.perform_advance_eq_ok_iff.mpr hi, hpoint⟩
  · intro hbudget
    obtain ⟨left, rfl⟩ : ∃ left, rest = left + 1 := by
      refine Nat.exists_eq_add_one.mpr ?_
      have hiteration : v.1.iteration = before.length := hcount
      omega
    obtain ⟨s, j₁, hdescend, hs, hle⟩ :=
      hbowl.descend hexact hn htells hlam hsolver hfirst harmijo hne left v.2
    obtain ⟨j₂, hvalue⟩ := htells.value (coords _ s.point) j₁
    rw [ofFn_coords hs.length_point] at hvalue
    have hpoint : checkPoint s.point = .ok () :=
      checkPoint_eq_ok_iff.mpr ⟨List.ne_nil_of_length_pos (hs.length_point ▸ hn), fun _ _ => rfl⟩
    have hconclude := (Method.perform_conclude_eq_ok_iff (m := solver.method A) (t := .converged)
      (s := s)).mpr ⟨_, j₂, hvalue, rfl, hpoint, checkValue_eq_ok_iff.mpr rfl, rfl⟩
    exact ⟨_, _, (Method.perform_minimize_of_loop (hloop.trans hdescend)).trans hconclude, rfl, hle⟩

/-! ### An example -/

theorem Options.valid_standard_real : (standard : Options ℝ).Valid where
  memory := by decide
  limits := ⟨rfl, by norm_num [standard, Stopping.standard], by decide⟩
  lineSearch := LineSearch.Options.valid_standard_real

/-- Without a pair the direction is against the gradient. -/
theorem direction_initial (hA : A.Exact) (memory : ℕ) (x : List ℝ) (w : Fin n → ℝ) :
    (State.initial memory x (List.ofFn w)).direction A = some (List.ofFn (-w)) := by
  have hone : (-1.0 : ℝ) = -1 := by norm_num
  have htwoLoop := (History.Built.empty (A := A) (n := n) memory).twoLoop_ofFn hA w
  have hmatrix : (History.empty memory : History ℝ).inverseHessian n = 1 := one_smul _ _
  rw [hmatrix, one_mulVec] at htwoLoop
  change (do return scale (← (History.empty memory).twoLoop A (List.ofFn w)) (-1.0)) = _
  rw [htwoLoop]
  change some (scale (List.ofFn w) (-1.0)) = _
  rw [scale_ofFn, hone, neg_one_smul]

/-- The bowl `v² / 4`, which is half as steep as the one that a search without pairs expects. -/
noncomputable def shallow : (Fin 1 → ℝ) → ℝ :=
  roundBowl 0.5 0 0

theorem shallow_apply (a : ℝ) : shallow (fun _ => a) = a * a / 4 := by
  have hsquare : ((fun _ : Fin 1 => a) - 0) ⬝ᵥ ((fun _ => a) - 0) = a * a := by simp [dotProduct]
  rw [shallow, roundBowl, hsquare]
  ring

theorem fderiv_shallow (a b : ℝ) : fderiv ℝ shallow (fun _ => a) (fun _ => b) = a * b / 2 := by
  have hproduct : ((fun _ : Fin 1 => a) - 0) ⬝ᵥ (fun _ => b) = a * b := by simp [dotProduct]
  rw [shallow, fderiv_roundBowl, hproduct]
  ring

theorem shallow_eq : shallow = roundBowl (1 / 2) 0 0 := by
  rw [shallow]
  norm_num

theorem inBowl_shallow : (State.initial 10 [1] [1 / 2]).InBowl .laned (1 / 2) (0 : Fin 1 → ℝ) := by
  refine ⟨State.shaped_initial 10 rfl rfl, ?_, List.forall_mem_nil _⟩
  funext i
  simp [State.initial, coords]

theorem verdictOf_shallow :
    (Line.ofSmooth shallow (fun _ => 1) fun _ => -(1 / 2)).verdictOf .standard 1.0
      (shallow ((fun _ => 1) + (1.0 : ℝ) • fun _ => -(1 / 2)))
      (fderiv ℝ shallow ((fun _ => 1) + (1.0 : ℝ) • fun _ => -(1 / 2)) fun _ => -(1 / 2)) =
        .accepted := by
  have htrial : ((fun _ => 1) + (1.0 : ℝ) • fun _ => -(1 / 2) : Fin 1 → ℝ) = fun _ => 1 / 2 := by
    funext
    norm_num
  have hdecreases : (Line.ofSmooth shallow (fun _ => 1) fun _ => -(1 / 2)).Decreases .standard 1.0
      (1 / 2 * (1 / 2) / 4) := by
    change _ ≤ shallow (fun _ => 1) + 1e-4 * 1.0 * fderiv ℝ shallow (fun _ => 1) fun _ => -(1 / 2)
    rw [shallow_apply, fderiv_shallow]
    norm_num
  have hflattens : (Line.ofSmooth shallow (fun _ => 1) fun _ => -(1 / 2)).Flattens .standard
      (1 / 2 * -(1 / 2) / 2) := by
    change |_| ≤ 0.9 * |fderiv ℝ shallow (fun _ => 1) fun _ => -(1 / 2)|
    rw [fderiv_shallow]
    norm_num
  rw [htrial, shallow_apply, fderiv_shallow, Line.verdictOf, if_pos hdecreases, Line.judgeSlope,
    if_pos hflattens]

/-- From 1 the first iteration goes half the way. -/
theorem exists_iteration_shallow (ho : o.Tells shallow) (j : Journal ℝ) :
    ∃ s j', Nonempty (Iteration .laned .standard o (.initial 10 [1] [1 / 2]) j s 1.0 j') ∧
      s.point = [1 / 2] := by
  have hexact : (Arithmetic.laned : Arithmetic ℝ).Exact := Arithmetic.Standard.laned.exact
  have hslope : Arithmetic.laned.inner [1 / 2] (List.ofFn fun _ : Fin 1 => -(1 / 2 : ℝ)) =
      some (fderiv ℝ shallow (fun _ => 1) fun _ => -(1 / 2)) := by
    have hinner := hexact.inner_ofFn (fun _ : Fin 1 => (1 / 2 : ℝ)) fun _ => -(1 / 2)
    rw [fderiv_shallow]
    refine hinner.trans (congrArg some ?_)
    norm_num [dotProduct]
  have hneg : fderiv ℝ shallow (fun _ => 1) (fun _ => -(1 / 2)) < 0 := by
    rw [fderiv_shallow]
    norm_num
  have hdirection : (State.initial 10 [1] [1 / 2]).direction .laned =
      some (List.ofFn fun _ : Fin 1 => -(1 / 2 : ℝ)) :=
    direction_initial hexact 10 [1] fun _ : Fin 1 => 1 / 2
  have haccepted : FirstStepAccepted .laned .standard o [1] (List.ofFn fun _ : Fin 1 => -(1 / 2 : ℝ))
      [1 / 2] :=
    firstStepAccepted_of_verdictOf hexact one_pos ho hslope hneg verdictOf_shallow
  obtain ⟨s, j', hi, hpoint⟩ := inBowl_shallow.toShaped.exists_iteration hexact one_pos ho
    hdirection hslope hneg haccepted j
  refine ⟨s, j', hi, hpoint.trans ?_⟩
  change [(1 : ℝ) + 1.0 * -(1 / 2)] = [1 / 2]
  norm_num

theorem gradNorm_shallow : ¬ norm [(1 / 2 : ℝ)] < 1e-6 := by
  obtain ⟨d, hd, hnorm⟩ := Arithmetic.Standard.laned.exact.norm_eq [(1 / 2 : ℝ)]
  rw [Arithmetic.Standard.laned.exact.inner_eq rfl] at hd
  have hroot : norm [(1 / 2 : ℝ)] = 1 / 2 := by
    rw [hnorm, ← Option.some.inj hd, List.zipWith_self, List.map_singleton, List.sum_singleton]
    exact exactRoot_mul_self one_half_pos.le
  rw [hroot]
  norm_num

theorem exists_opening_shallow :
    ∃ j₀, ((Problem.ofSmooth 1 shallow).oracle.opening [1]).perform {} = (.ok [1 / 2], j₀) := by
  obtain ⟨j₀, hgradient⟩ := (Problem.tells_ofSmooth (f := shallow)).checked.gradient (fun _ => 1)
    ({} : Journal ℝ).resetTally
  rw [shallow_eq, gradient_roundBowl] at hgradient
  have hanswer : List.ofFn ((1 / 2 : ℝ) • ((fun _ : Fin 1 => (1 : ℝ)) - 0)) = [1 / 2] := by
    norm_num
  rw [hanswer, ← shallow_eq] at hgradient
  exact ⟨j₀, Oracle.perform_opening_eq_ok_iff.mpr
    ⟨checkPoint_eq_ok_iff.mpr ⟨List.cons_ne_nil _ _, fun _ _ => rfl⟩, hgradient⟩⟩

/-- The first iteration stores a pair. -/
theorem exists_visit_shallow :
    ∃ v ∈ (standard.method .laned).itinerary Stopping.standard
        (Problem.ofSmooth 1 shallow).oracle [1] {},
      v.1.history.pairs ≠ [] ∧ coords 1 v.1.gradient ≠ 0 ∧ v.1.iteration = 1 := by
  have hexact : (Arithmetic.laned : Arithmetic ℝ).Exact := Arithmetic.Standard.laned.exact
  have htells : ((Problem.ofSmooth 1 shallow).oracle.checked 1).Tells shallow :=
    Problem.tells_ofSmooth.checked
  obtain ⟨j₀, hopened⟩ := exists_opening_shallow
  have hopening : ((standard.method .laned).opening (Problem.ofSmooth 1 shallow).oracle [1]).perform
      {} = (.ok (State.initial 10 [1] [1 / 2]), j₀) :=
    perform_opening_eq_ok_iff.mpr ⟨by decide, _, hopened, rfl⟩
  obtain ⟨s, j₁, ⟨i⟩, hpoint⟩ := exists_iteration_shallow htells j₀
  have hlt : ¬ (standard.method .laned).gradNorm (State.initial 10 [1] [1 / 2]) <
      (Stopping.standard : Stopping ℝ).tolerance := gradNorm_shallow
  have hmem := Method.mem_itinerary hopening hlt (by decide)
    (State.perform_advance_eq_ok_iff.mpr ⟨i⟩)
  have hbowl : ((Problem.ofSmooth 1 shallow).oracle.checked 1).Tells
      (roundBowl (1 / 2) (0 : Fin 1 → ℝ) 0) := by
    rw [← shallow_eq]
    exact htells
  have hs := inBowl_shallow.iteration hexact one_pos hbowl i
  have hgradient : coords 1 s.gradient = fun _ => 1 / 4 := by
    rw [hs.gradient_eq, hpoint]
    funext k
    norm_num [coords]
  have hcurvature : i.curvature = 1 / 8 := by
    have hchange := hexact.toLawful.length_of_sub_eq_some one_pos hs.length_gradient
      inBowl_shallow.length_gradient i.change_eq
    have hinner := i.curvature_eq
    rw [hexact.inner_eq_dotProduct (i.length_move hexact.toLawful one_pos inBowl_shallow.toShaped)
      hchange, i.coords_move hexact one_pos inBowl_shallow.toShaped hs.toShaped,
      i.coords_change hexact one_pos inBowl_shallow.toShaped hs.toShaped, hgradient, hpoint] at hinner
    rw [← Option.some.inj hinner]
    norm_num [dotProduct, coords, State.initial]
  refine ⟨_, hmem, ?_, ?_, i.iteration_eq⟩
  · obtain ⟨-, -, hstore⟩ | ⟨hnot, -, -⟩ := i.offer_cases
    · change s.history.pairs ≠ []
      rw [hstore]
      exact List.cons_ne_nil _ _
    · rw [hcurvature, History.leastCurvature] at hnot
      norm_num at hnot
  · rw [hgradient]
    exact Function.ne_iff.mpr ⟨0, by norm_num⟩

/-- In the shallow bowl the second iteration goes the rest of the way. -/
theorem round_bowl_solved_shallow :
    ∃ v ∈ (standard.method .laned).itinerary Stopping.standard
        (Problem.ofSmooth 1 shallow).oracle [1] {},
      v.1.history.pairs ≠ [] ∧ coords 1 v.1.gradient ≠ 0 ∧
      v.1.direction .laned = some (List.ofFn (0 - coords 1 v.1.point)) ∧
      ∃ out j', (standard.minimize .laned (Problem.ofSmooth 1 shallow).oracle [1]).perform {} =
          (.ok out, j') ∧
        out.converged = true ∧ out.iterations ≤ 2 := by
  obtain ⟨v, hv, hne, hgradient, hcount⟩ := exists_visit_shallow
  rw [shallow_eq] at hv ⊢
  have hfirst : (standard : Lbfgs ℝ).options.lineSearch.firstStep = 1 := by
    change (1.0 : ℝ) = 1
    norm_num
  have harmijo : (standard : Lbfgs ℝ).options.lineSearch.armijo ≤ 1 / 2 := by
    change (1e-4 : ℝ) ≤ 1 / 2
    norm_num
  have hlength : ([1] : List ℝ).length = 1 := rfl
  obtain ⟨hsolved, hrun⟩ := round_bowl_solved .laned one_half_pos (0 : Fin 1 → ℝ) 0
    Options.valid_standard_real hfirst harmijo hlength {} v hv hne
  obtain ⟨out, j', hrun, hconverged, hle⟩ := hrun (hcount.trans_lt (by decide))
  rw [hcount] at hle
  exact ⟨v, hv, hne, hgradient, (hsolved hgradient).1, out, j', hrun, hconverged, hle⟩

end Lbfgs

end QuasiNewton
