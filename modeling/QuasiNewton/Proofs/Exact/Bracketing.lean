import Mathlib
import QuasiNewton.Proofs.Exact.Narrowing
import QuasiNewton.Proofs.Exact.Vector
import QuasiNewton.Proofs.LineSearch.Answers
import QuasiNewton.Proofs.Responder
import QuasiNewton.Proofs.Validity

/-!
# Brackets around acceptable steps

Along a direction that descends, let the objective be continuously differentiable and the gradient
its own. Where a bracket has an upper end, a step that the search would accept lies between its
ends, and so does the next step (`bracket_encloses`). The lower end is a step at which the objective
decreases enough and descends steeply, and at the upper end it does not decrease enough, or rises
steeply. So the objective, less the decrease that is asked for, has its least value between the two,
and the slope there is the Armijo fraction of the first one.
-/

namespace QuasiNewton

open Set

/-! ### Least values on an interval -/

section

variable {ψ ψ' : ℝ → ℝ} {slope lo hi : ℝ}

theorem slope_nonneg_of_isMinOn (hlt : lo < hi) (hmin : IsMinOn ψ (Icc lo hi) lo)
    (hψ : HasDerivAt ψ slope lo) : 0 ≤ slope := by
  have hcone : hi - lo ∈ posTangentConeAt (Icc lo hi) lo :=
    sub_mem_posTangentConeAt_of_segment_subset (segment_eq_Icc hlt.le ▸ Subset.rfl)
  have hnonneg := hmin.localize.hasFDerivWithinAt_nonneg
    hψ.hasDerivWithinAt.hasFDerivWithinAt hcone
  have hmul : 0 ≤ (hi - lo) * slope := by simpa using! hnonneg
  exact nonneg_of_mul_nonneg_right hmul (sub_pos.mpr hlt)

theorem slope_nonpos_of_isMinOn (hlt : lo < hi) (hmin : IsMinOn ψ (Icc lo hi) hi)
    (hψ : HasDerivAt ψ slope hi) : slope ≤ 0 := by
  have hcone : lo - hi ∈ posTangentConeAt (Icc lo hi) hi :=
    sub_mem_posTangentConeAt_of_segment_subset (by rw [segment_symm, segment_eq_Icc hlt.le])
  have hnonneg := hmin.localize.hasFDerivWithinAt_nonneg
    hψ.hasDerivWithinAt.hasFDerivWithinAt hcone
  have hmul : 0 ≤ (lo - hi) * slope := by simpa using! hnonneg
  exact nonpos_of_mul_nonneg_right hmul (sub_neg.mpr hlt)

/-- A function that falls at the lower end, and that is higher at the upper end or rises there, has
its least value in between. -/
theorem exists_slope_eq_zero (hlt : lo < hi) (hψ : ∀ a, HasDerivAt ψ (ψ' a) a)
    (hlo : ψ' lo < 0) (hhi : ψ lo < ψ hi ∨ 0 < ψ' hi) :
    ∃ a ∈ Ioo lo hi, ψ' a = 0 ∧ ψ a ≤ ψ lo := by
  have hcont : ContinuousOn ψ (Icc lo hi) := fun a _ => (hψ a).continuousAt.continuousWithinAt
  obtain ⟨c, hc, hmin⟩ := isCompact_Icc.exists_isMinOn (nonempty_Icc.mpr hlt.le) hcont
  have hle : ψ c ≤ ψ lo := hmin (left_mem_Icc.mpr hlt.le)
  have hleft : lo ≠ c := by
    rintro rfl
    exact (slope_nonneg_of_isMinOn hlt hmin (hψ _)).not_gt hlo
  have hright : c ≠ hi := by
    rintro rfl
    obtain hhi | hhi := hhi
    · exact hle.not_gt hhi
    · exact (slope_nonpos_of_isMinOn hlt hmin (hψ _)).not_gt hhi
  have hmem : c ∈ Ioo lo hi := ⟨lt_of_le_of_ne hc.1 hleft, lt_of_le_of_ne hc.2 hright⟩
  exact ⟨c, hmem, (hmin.isLocalMin (Icc_mem_nhds hmem.1 hmem.2)).hasDerivAt_eq_zero (hψ c), hle⟩

end

/-! ### Objectives with their gradients -/

variable {n : ℕ} {f : (Fin n → ℝ) → ℝ}

/-- The objective `f` together with its gradient. -/
noncomputable def Problem.ofSmooth (n : ℕ) (f : (Fin n → ℝ) → ℝ) : Problem ℝ :=
  .ofFunctions (fun x => f (coords n x))
    fun x => List.ofFn fun i => fderiv ℝ f (coords n x) (Pi.single i 1)

/-- Each question at a point of length `n` is answered by `f` or by its gradient. -/
structure Oracle.Tells (o : Oracle ℝ) (f : (Fin n → ℝ) → ℝ) : Prop where
  value : ∀ (v : Fin n → ℝ) (j : Journal ℝ), ∃ j',
    (o.value (List.ofFn v)).perform j = (.ok (f v), j')
  gradient : ∀ (v : Fin n → ℝ) (j : Journal ℝ), ∃ j',
    (o.gradient (List.ofFn v)).perform j =
      (.ok (List.ofFn fun i => fderiv ℝ f v (Pi.single i 1)), j')

theorem Problem.tells_ofSmooth : (Problem.ofSmooth n f).oracle.Tells f where
  value v j := by
    rw [Problem.perform_value]
    simp [ofSmooth, ofFunctions, Except.mapError]
  gradient v j := by
    rw [Problem.perform_gradient]
    simp [ofSmooth, ofFunctions, Except.mapError]

/-- Exact answers pass the checks. -/
theorem Oracle.Tells.checked {o : Oracle ℝ} (ho : o.Tells f) : (o.checked n).Tells f where
  value v j := by
    obtain ⟨j', h⟩ := ho.value v j.countValue
    exact ⟨j', Run.perform_amend_check_eq_ok_iff.mpr ⟨h, checkValue_eq_ok_iff.mpr rfl⟩⟩
  gradient v j := by
    obtain ⟨j', h⟩ := ho.gradient v j.countGradient
    exact ⟨j', Run.perform_amend_check_eq_ok_iff.mpr
      ⟨h, checkGradient_eq_ok_iff.mpr ⟨List.length_ofFn, fun _ _ => rfl⟩⟩⟩

/-- The slope along a direction is the inner product of the gradient with it. -/
theorem dotProduct_single (L : (Fin n → ℝ) →L[ℝ] ℝ) (w : Fin n → ℝ) :
    (fun i => L (Pi.single i 1)) ⬝ᵥ w = L w := by
  conv_rhs => rw [pi_eq_sum_univ' w, map_sum]
  simp [dotProduct, mul_comm]

theorem hasDerivAt_along (hf : ContDiff ℝ 1 f) (v w : Fin n → ℝ) (a : ℝ) :
    HasDerivAt (fun a : ℝ => f (v + a • w)) (fderiv ℝ f (v + a • w) w) a := by
  have hline : HasDerivAt (fun a : ℝ => v + a • w) w a := by
    simpa using ((hasDerivAt_id a).smul_const w).const_add v
  exact (hf.differentiable one_ne_zero _).hasFDerivAt.comp_hasDerivAt a hline

namespace LineSearch

variable {opts : Options ℝ} {l : Line ℝ} {b : Bracket ℝ} {φ φ' : ℝ → ℝ}

/-! ### Verdicts -/

/-- The verdict on a step where the objective has the given value and slope. -/
noncomputable def Line.verdictOf (l : Line ℝ) (opts : Options ℝ) (step value slope : ℝ) : Verdict :=
  if l.Decreases opts step value then l.judgeSlope opts (some slope) else .tooLong

theorem Line.perform_judge (l : Line ℝ) (opts : Options ℝ) {A : Arithmetic ℝ} (hA : A.Exact)
    {o : Oracle ℝ} (ho : o.Tells f) (hn : 0 < n) {v w : Fin n → ℝ}
    (horigin : l.origin = List.ofFn v) (hdirection : l.direction = List.ofFn w) (step : ℝ)
    (j : Journal ℝ) :
    ∃ j', (l.judge A opts o step).perform j =
      (.ok (l.verdictOf opts step (f (v + step • w)) (fderiv ℝ f (v + step • w) w)), j') := by
  obtain ⟨j₁, hvalue⟩ := ho.value (v + step • w) j
  obtain ⟨j₂, hgradient⟩ := ho.gradient (v + step • w) j₁
  have htrialValue := perform_trialValue_of_ok hvalue rfl
  have hslope := hA.inner_ofFn (fun i => fderiv ℝ f (v + step • w) (Pi.single i 1)) w
  rw [dotProduct_single] at hslope
  have htrialSlope := perform_trialSlope_of_ok hgradient hslope rfl
  rw [judge, horigin, hdirection, hA.addScaled_ofFn hn]
  change ∃ j', (trialValue o (List.ofFn (v + step • w)) >>= _).perform j = _
  rw [Run.perform_bind, htrialValue]
  dsimp only
  by_cases hdecreases : l.Decreases opts step (f (v + step • w))
  · rw [if_pos hdecreases, Run.perform_bind, htrialSlope, verdictOf, if_pos hdecreases]
    exact ⟨j₂, rfl⟩
  · rw [if_neg hdecreases, verdictOf, if_neg hdecreases]
    exact ⟨j₁, rfl⟩

/-! ### The invariant -/

theorem Options.Valid.armijo_pos (hopts : opts.Valid) : 0 < opts.armijo := by
  have hzero : (0.0 : ℝ) = 0 := by norm_num
  exact hzero ▸ hopts.armijo.1

theorem Options.Valid.curvature_lt_one (hopts : opts.Valid) : opts.curvature < 1 := by
  have hone : (1.0 : ℝ) = 1 := by norm_num
  exact hone ▸ hopts.curvature.2

/-- At the lower end the objective decreases enough and descends steeply; at the upper end it does
not decrease enough, or rises steeply. The next step lies in between. -/
structure Bracket.Straddles (b : Bracket ℝ) (l : Line ℝ) (opts : Options ℝ) (φ φ' : ℝ → ℝ) :
    Prop where
  lower_nonneg : 0 ≤ b.lower
  lower_lt : b.lower < b.step
  decreases : l.Decreases opts b.lower (φ b.lower)
  steep : φ' b.lower < opts.curvature * l.slope
  upper : ∀ hi ∈ b.upper, b.step < hi ∧
    (¬ l.Decreases opts hi (φ hi) ∨ opts.curvature * |l.slope| < φ' hi)

/-- A step that is not accepted is too short or too long. -/
theorem Line.verdictOf_cases {step value slope : ℝ}
    (h : l.verdictOf opts step value slope ≠ .accepted) :
    l.verdictOf opts step value slope = .tooShort ∧ l.Decreases opts step value ∧
        slope < -(opts.curvature * |l.slope|) ∨
      l.verdictOf opts step value slope = .tooLong ∧
        (¬ l.Decreases opts step value ∨ opts.curvature * |l.slope| < slope) := by
  have hzero : (0.0 : ℝ) = 0 := by norm_num
  by_cases hdecreases : l.Decreases opts step value
  · by_cases hflattens : l.Flattens opts slope
    · exact absurd (by rw [verdictOf, if_pos hdecreases, judgeSlope, if_pos hflattens]) h
    · have hsteep : opts.curvature * |l.slope| < |slope| := not_le.mp hflattens
      by_cases hneg : slope < 0.0
      · refine Or.inl ⟨?_, hdecreases, ?_⟩
        · rw [verdictOf, if_pos hdecreases, judgeSlope, if_neg hflattens, if_pos hneg]
        · rw [hzero] at hneg
          rw [abs_of_neg hneg] at hsteep
          linarith
      · refine Or.inr ⟨?_, Or.inr ?_⟩
        · rw [verdictOf, if_pos hdecreases, judgeSlope, if_neg hflattens, if_neg hneg]
        · have hnonneg : 0 ≤ slope := not_lt.mp (hzero ▸ hneg)
          rwa [abs_of_nonneg hnonneg] at hsteep
  · exact Or.inr ⟨if_neg hdecreases, Or.inl hdecreases⟩

theorem Bracket.straddles_initial (hopts : opts.Valid) (hslope : l.slope < 0)
    (hvalue : φ 0 = l.value) (hderiv : φ' 0 = l.slope) :
    (Bracket.initial opts.firstStep).Straddles l opts φ φ' := by
  have hzero : (0.0 : ℝ) = 0 := by norm_num
  have hlower : (Bracket.initial opts.firstStep).lower = 0 := hzero
  refine ⟨hlower.ge, hopts.pos, ?_, ?_, fun hi hhi => by cases hhi⟩
  · rw [hlower, hvalue]
    change l.value ≤ l.value + opts.armijo * 0 * l.slope
    linarith
  · have hlt := hopts.curvature_lt_one
    rw [hlower, hderiv]
    nlinarith

theorem Bracket.Straddles.bounds (h : b.Straddles l opts φ φ') : b.Bounds :=
  ⟨h.lower_nonneg, h.lower_lt, fun hi hhi => (h.upper hi hhi).1⟩

/-- Each verdict but that of acceptance keeps the invariant. -/
theorem Bracket.Straddles.refine (hslope : l.slope < 0) (h : b.Straddles l opts φ φ')
    (hverdict : l.verdictOf opts b.step (φ b.step) (φ' b.step) ≠ .accepted) :
    (b.refine (l.verdictOf opts b.step (φ b.step) (φ' b.step))).Straddles l opts φ φ' := by
  obtain ⟨hnonneg, hlt, hupper⟩ := h.bounds.refine hverdict
  obtain ⟨hshort, hdecreases, hsteep⟩ | ⟨hlong, hrises⟩ := Line.verdictOf_cases hverdict
  · rw [hshort] at hnonneg hlt hupper ⊢
    have hsteep' : φ' b.step < opts.curvature * l.slope := by
      rwa [abs_of_neg hslope, mul_neg, neg_neg] at hsteep
    exact ⟨hnonneg, hlt, hdecreases, hsteep', fun hi hhi =>
      ⟨hupper hi hhi, (h.upper hi hhi).2⟩⟩
  · rw [hlong] at hnonneg hlt hupper ⊢
    refine ⟨hnonneg, hlt, h.decreases, h.steep, fun hi hhi => ⟨hupper hi hhi, ?_⟩⟩
    obtain rfl : b.step = hi := Option.some.inj hhi
    exact hrises

/-- Between the ends lies a step that meets both conditions. -/
theorem Bracket.Straddles.exists_accepted (hopts : opts.Valid) (hslope : l.slope < 0)
    (h : b.Straddles l opts φ φ') (hφ : ∀ a, HasDerivAt φ (φ' a) a) {hi : ℝ}
    (hhi : hi ∈ b.upper) :
    ∃ a ∈ Ioo b.lower hi, l.Decreases opts a (φ a) ∧ l.Flattens opts (φ' a) := by
  obtain ⟨hstep, hupper⟩ := h.upper hi hhi
  have hlt : opts.armijo < opts.curvature := hopts.armijo_lt
  have harmijo : 0 < opts.armijo := hopts.armijo_pos
  have hsteeper : opts.curvature * l.slope < opts.armijo * l.slope :=
    mul_lt_mul_of_neg_right hlt hslope
  have hsteep := h.steep
  have hdecreases : φ b.lower ≤ l.value + opts.armijo * b.lower * l.slope := h.decreases
  -- what the objective has too much for the decrease that is asked for
  have hψ (a : ℝ) : HasDerivAt (fun a => φ a - (l.value + opts.armijo * a * l.slope))
      (φ' a - opts.armijo * l.slope) a := by
    have hline : HasDerivAt (fun a => l.value + opts.armijo * a * l.slope)
        (opts.armijo * l.slope) a := by
      simpa using (((hasDerivAt_id a).const_mul opts.armijo).mul_const l.slope).const_add l.value
    exact (hφ a).sub hline
  obtain ⟨a, ha, hzero, hle⟩ := exists_slope_eq_zero (h.lower_lt.trans hstep) hψ (by linarith) (by
    obtain hnot | hrises := hupper
    · have hmore : l.value + opts.armijo * hi * l.slope < φ hi := not_le.mp hnot
      exact Or.inl (by linarith)
    · have hpos : 0 ≤ opts.curvature * |l.slope| :=
        mul_nonneg (harmijo.trans hlt).le (abs_nonneg _)
      have hneg : opts.armijo * l.slope < 0 := mul_neg_of_pos_of_neg harmijo hslope
      exact Or.inr (by linarith))
  refine ⟨a, ha, ?_, ?_⟩
  · change φ a ≤ l.value + opts.armijo * a * l.slope
    linarith
  · change |φ' a| ≤ opts.curvature * |l.slope|
    have hslope' : φ' a = opts.armijo * l.slope := by linarith
    rw [hslope', abs_mul, abs_of_pos harmijo]
    exact mul_le_mul_of_nonneg_right hlt.le (abs_nonneg _)

/-! ### The rounds of a search -/

/-- The strong Wolfe conditions for `f` at the step `a` from `u` along `w`. -/
structure StrongWolfe (opts : Options ℝ) (f : (Fin n → ℝ) → ℝ) (u w : Fin n → ℝ) (a : ℝ) :
    Prop where
  decreases : f (u + a • w) ≤ f u + opts.armijo * a * fderiv ℝ f u w
  flattens : |fderiv ℝ f (u + a • w) w| ≤ opts.curvature * |fderiv ℝ f u w|

/-- The step meets the strong Wolfe conditions, and a trial of it is accepted. -/
structure Acceptable (A : Arithmetic ℝ) (opts : Options ℝ) (o : Oracle ℝ)
    (f : (Fin n → ℝ) → ℝ) (u w : Fin n → ℝ) (l : Line ℝ) (a : ℝ) : Prop where
  strongWolfe : StrongWolfe opts f u w a
  accepted : ∀ j, ((l.judge A opts o a).perform j).1 = .ok .accepted

/-- If the bracket has an upper end, a step for which `P` holds lies strictly between the ends, and
so does the next step. -/
def Bracket.Encloses (b : Bracket ℝ) (P : ℝ → Prop) : Prop :=
  ∀ hi ∈ b.upper, (∃ a ∈ Ioo b.lower hi, P a) ∧ b.step ∈ Ioo b.lower hi

variable {A : Arithmetic ℝ} {o : Oracle ℝ} {u w : Fin n → ℝ} {j j₁ j₂ : Journal ℝ}

/-- What a search knows of the objective before its first trial. -/
noncomputable def Line.ofSmooth (f : (Fin n → ℝ) → ℝ) (u w : Fin n → ℝ) : Line ℝ where
  origin := List.ofFn u
  direction := List.ofFn w
  value := f u
  slope := fderiv ℝ f u w

/-- The invariant along the line. -/
def Bracket.StraddlesAlong (b : Bracket ℝ) (opts : Options ℝ) (f : (Fin n → ℝ) → ℝ)
    (u w : Fin n → ℝ) : Prop :=
  b.Straddles (Line.ofSmooth f u w) opts (fun a => f (u + a • w))
    (fun a => fderiv ℝ f (u + a • w) w)

section

variable (hA : A.Exact) (ho : o.Tells f) (hn : 0 < n) (hneg : fderiv ℝ f u w < 0)
include hA ho hn hneg

/-- A trial that is not accepted keeps the invariant. -/
theorem Bracket.StraddlesAlong.refine {verdict : Verdict} (h : b.StraddlesAlong opts f u w)
    (hjudge : ((Line.ofSmooth f u w).judge A opts o b.step).perform j = (.ok verdict, j₁))
    (hverdict : verdict ≠ .accepted) : (b.refine verdict).StraddlesAlong opts f u w := by
  obtain ⟨j₂, hjudge'⟩ :=
    (Line.ofSmooth f u w).perform_judge opts hA ho hn rfl rfl b.step j
  cases hjudge.symm.trans hjudge'
  exact Straddles.refine hneg h hverdict

theorem Round.straddlesAlong (hopts : opts.Valid) {x d g : List ℝ} (hx : x = List.ofFn u)
    (hd : d = List.ofFn w) (hslope : A.inner g d = some (fderiv ℝ f u w)) {left : ℕ}
    (h : Round A opts o x d g j l left b j₁) :
    l = Line.ofSmooth f u w ∧ b.StraddlesAlong opts f u w := by
  induction h with
  | @first slope value j₁ hslope' _ hvalue =>
    obtain rfl := Option.some.inj (hslope'.symm.trans hslope)
    obtain ⟨j₂, hvalue'⟩ := ho.value u j
    rw [hx] at hvalue ⊢
    cases hvalue.symm.trans hvalue'
    rw [hd]
    exact ⟨rfl, Bracket.straddles_initial hopts hneg (by simp [Line.ofSmooth])
      (by simp [Line.ofSmooth])⟩
  | @next l left b verdict j₁ j₂ _ hjudge hverdict _ ih =>
    obtain ⟨rfl, hstraddles⟩ := ih
    exact ⟨rfl, hstraddles.refine hA ho hn hneg hjudge hverdict⟩

theorem Bracket.StraddlesAlong.encloses (hopts : opts.Valid) (hf : ContDiff ℝ 1 f)
    (h : b.StraddlesAlong opts f u w) :
    b.Encloses (Acceptable A opts o f u w (Line.ofSmooth f u w)) := by
  intro hi hhi
  obtain ⟨a, ha, hdecreases, hflattens⟩ :=
    Straddles.exists_accepted hopts hneg h (hasDerivAt_along hf u w) hhi
  refine ⟨⟨a, ha, ⟨hdecreases, hflattens⟩, fun j => ?_⟩, h.lower_lt, (h.upper hi hhi).1⟩
  obtain ⟨j₁, hjudge⟩ :=
    (Line.ofSmooth f u w).perform_judge opts hA ho hn rfl rfl a j
  rw [hjudge, Line.verdictOf, if_pos hdecreases, Line.judgeSlope, if_pos hflattens]

end

/-- Along a direction that descends, let the objective be continuously differentiable and the
gradient its own. In every round of a search whose bracket has an upper end, a step that meets the
strong Wolfe conditions lies strictly between the ends, and the search would accept it; and the next
step lies between the ends as well. The same holds of the bracket that a trial leaves, even if it is
the last one. -/
theorem bracket_encloses (hA : A.Standard) (hopts : opts.Valid) (hf : ContDiff ℝ 1 f)
    (ho : o = (Problem.ofSmooth n f).oracle ∨ o = (Problem.ofSmooth n f).oracle.checked n)
    {x d g : List ℝ} (hx : x.length = n) (hd : d.length = n)
    (hg : (Problem.ofSmooth n f).gradient x = .ok g)
    (hneg : fderiv ℝ f (coords n x) (coords n d) < 0) {left : ℕ}
    (hround : Round A opts o x d g j l left b j₁) :
    b.Encloses (Acceptable A opts o f (coords n x) (coords n d) l) ∧
    ∀ verdict j₂, (l.judge A opts o b.step).perform j₁ = (.ok verdict, j₂) →
      verdict ≠ .accepted →
      (b.refine verdict).Encloses (Acceptable A opts o f (coords n x) (coords n d) l) := by
  have hexact := hA.exact
  have ho : o.Tells f := by
    obtain rfl | rfl := ho
    · exact Problem.tells_ofSmooth
    · exact Problem.tells_ofSmooth.checked
  have hn : 0 < n := by
    rcases n.eq_zero_or_pos with rfl | hn
    · rw [Subsingleton.elim (coords 0 d) 0, map_zero] at hneg
      exact absurd hneg (lt_irrefl _)
    · exact hn
  have hslope : A.inner g d = some (fderiv ℝ f (coords n x) (coords n d)) := by
    cases hg
    rw [← dotProduct_single, ← hexact.inner_ofFn, ofFn_coords hd]
  obtain ⟨rfl, hstraddles⟩ := hround.straddlesAlong hexact ho hn hneg hopts (ofFn_coords hx).symm
    (ofFn_coords hd).symm hslope
  refine ⟨hstraddles.encloses hexact ho hn hneg hopts hf, fun verdict j₂ hjudge hverdict => ?_⟩
  exact (hstraddles.refine hexact ho hn hneg hjudge hverdict).encloses hexact ho hn hneg hopts hf

/-- The square of the only coordinate. -/
def parabola (v : Fin 1 → ℝ) : ℝ :=
  v 0 ^ 2

theorem fderiv_parabola (u w : Fin 1 → ℝ) : fderiv ℝ parabola u w = 2 * u 0 * w 0 := by
  have hcoordinate : HasFDerivAt (fun v : Fin 1 → ℝ => v 0) (.proj 0 : (Fin 1 → ℝ) →L[ℝ] ℝ) u :=
    hasFDerivAt_apply 0 u
  have hparabola : fderiv ℝ parabola u = _ := (hcoordinate.pow 2).fderiv
  rw [hparabola]
  simp

theorem Options.valid_standard_real : (standard : Options ℝ).Valid := by
  refine ⟨?_, ?_, ?_, rfl, ?_⟩ <;> norm_num [standard]

/-- Across the vertex the first step goes too far, and is the upper end of the second bracket. -/
theorem bracket_encloses_parabola :
    ∃ (l : Line ℝ) (b : Bracket ℝ) (j₁ : Journal ℝ),
      Round .laned .standard (Problem.ofSmooth 1 parabola).oracle [1] [-4] [2] {} l 49 b j₁ ∧
      b.upper = some 1 ∧ ∃ a ∈ Ioo b.lower 1,
        StrongWolfe .standard parabola (coords 1 [1]) (coords 1 [-4]) a := by
  have hsmooth : ContDiff ℝ 1 parabola := by
    unfold parabola
    fun_prop
  have hg : (Problem.ofSmooth 1 parabola).gradient [1] = .ok [2] := by
    simp [Problem.ofSmooth, Problem.ofFunctions, fderiv_parabola, coords]
  have hu : ([1] : List ℝ) = List.ofFn (coords 1 [1]) := (ofFn_coords rfl).symm
  have hw : ([-4] : List ℝ) = List.ofFn (coords 1 [-4]) := (ofFn_coords rfl).symm
  have hneg : fderiv ℝ parabola (coords 1 [1]) (coords 1 [-4]) = -8 := by
    rw [fderiv_parabola]
    norm_num [coords]
  have hexact : (Arithmetic.laned : Arithmetic ℝ).Exact := Arithmetic.Standard.laned.exact
  have hslope : Arithmetic.laned.inner [2] [(-4 : ℝ)] = some (-8) := by
    rw [hexact.inner_eq (x := [2]) (y := [-4]) rfl]
    norm_num
  have hround : Round .laned .standard (Problem.ofSmooth 1 parabola).oracle [1] [-4] [2] {}
      _ _ _ _ :=
    .first hslope (by norm_num) ((Problem.ofSmooth 1 parabola).perform_value [1] {})
  obtain ⟨j₂, hjudge⟩ := Line.perform_judge ⟨[1], [-4], parabola (coords 1 [1]), -8⟩ .standard
    hexact Problem.tells_ofSmooth Nat.one_pos hu hw (Bracket.initial (1.0 : ℝ)).step
    (({} : Journal ℝ).push (.asked (.value [1])))
  have hlong : Line.verdictOf ⟨[1], [-4], parabola (coords 1 [1]), -8⟩ .standard
      (Bracket.initial (1.0 : ℝ)).step
      (parabola (coords 1 [1] + (Bracket.initial (1.0 : ℝ)).step • coords 1 [-4]))
      (fderiv ℝ parabola (coords 1 [1] + (Bracket.initial (1.0 : ℝ)).step • coords 1 [-4])
        (coords 1 [-4])) = .tooLong := by
    refine if_neg ?_
    change ¬ parabola _ ≤ parabola _ + 1e-4 * 1.0 * -8
    norm_num [parabola, coords, Bracket.initial]
  rw [hlong] at hjudge
  have hnext := hround.next hjudge (by decide) (by
    change ¬ 0.5 * (0.0 + 1.0) < (1e-10 : ℝ)
    norm_num)
  have hupper : ((Bracket.initial (1.0 : ℝ)).refine .tooLong).upper = some 1 := by
    change some (1.0 : ℝ) = some 1
    norm_num
  obtain ⟨⟨a, ha, hacceptable⟩, -⟩ := (bracket_encloses .laned Options.valid_standard_real hsmooth
    (Or.inl rfl) rfl rfl hg (by rw [hneg]; norm_num) hnext).1 1 hupper
  exact ⟨_, _, _, hnext, hupper, a, ha, hacceptable.strongWolfe⟩

end LineSearch

end QuasiNewton
