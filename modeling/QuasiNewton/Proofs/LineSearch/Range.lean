import QuasiNewton.Proofs.Infinite
import QuasiNewton.Proofs.LineSearch.Choice

/-!
# The range of the steps

Whatever the functions answer, and however large or small the steps become, a search with valid
constants answers with a step that is finite (`search_step_range`). A step may overflow on the way,
but no decrease can be found there: what is promised for an infinite step is minus infinity, or
undefined. And the step is positive, with one exception: the half of the least positive number
rounds to zero, and a search that begins with this number and finds it too long answers with its
half (`step_underflows`).
-/

namespace QuasiNewton.LineSearch

variable {A : Arithmetic Float} {opts : Options Float} {o : Oracle Float} {l : Line Float}
  {b b' : Bracket Float} {t : Probe Float} {probes : List (Probe Float)} {step : Float}
  {j j₁ j' : Journal Float}

/-! ### Steps at which the objective decreases enough -/

theorem Line.Probed.finite_of_passes (hopts : opts.Valid) (hslope : ¬ 0.0 ≤ l.slope)
    (h : l.Probed A opts o t j j') (hpos : 0.0 < t.step) (hpasses : t.Passes opts l) :
    t.step.isFinite = true := by
  obtain ⟨v, hv, hdecreases⟩ := hpasses
  have harmijo := Double.isFinite_of_lt_of_lt hopts.armijo.1 hopts.armijo.2
  cases hstep : t.step.isFinite with
  | true => rfl
  | false =>
    exact absurd hdecreases (Double.not_le_of_infinite_step (h.isFinite_value v hv)
      hopts.armijo.1 harmijo hpos hstep hslope)

/-! ### The step that is chosen -/

/-- The search begins with the least positive number and finds it too long. -/
def Line.Underflows (l : Line Float) (opts : Options Float) (probes : List (Probe Float)) : Prop :=
  opts.firstStep = 5e-324 ∧ ∃ t, probes = [t] ∧ ¬ t.Accepted opts l ∧ ¬ t.Descends opts l

theorem Line.Settles.range (h : l.Settles A opts o probes b step j j₁ j') (hopts : opts.Valid)
    (hslope : ¬ 0.0 ≤ l.slope) :
    step.isFinite = true ∧ (0.0 < step ∨ step = 0.0 ∧ l.Underflows opts probes) := by
  by_cases hmarked : ∃ t ∈ probes, t.Accepted opts l ∨ t.Descends opts l
  · obtain ⟨t, ht, rfl, hpasses⟩ := h.chooses.exists_passes hmarked
    have hpos := h.probed.pos_of_passes (Or.inl hopts.pos) t ht hpasses
    obtain ⟨_, _, hprobed⟩ := h.probed.probed_of_mem t ht
    exact ⟨hprobed.finite_of_passes hopts hslope hpos hpasses, Or.inl hpos⟩
  · have hnone : ∀ t ∈ probes, ¬ t.Accepted opts l ∧ ¬ t.Descends opts l := fun t ht =>
      not_or.mp fun hor => hmarked ⟨t, ht, hor⟩
    obtain ⟨-, ⟨last, hlast, rfl⟩, -⟩ := h.chooses.untried hnone
    obtain ⟨hpos, hfinite, hfirst⟩ :=
      h.probed.last_of_unmarked rfl hopts.pos hopts.finite hnone last hlast
    obtain ⟨hfinite', hpos' | ⟨hzero, hleast⟩⟩ := Double.half_pos_or_eq_zero hpos hfinite
    · exact ⟨hfinite', Or.inl hpos'⟩
    · obtain ⟨rfl, hstep⟩ | hnot := hfirst
      · exact ⟨hfinite', Or.inr ⟨hzero, hstep.symm.trans hleast, last, rfl,
          hnone last List.mem_cons_self⟩⟩
      · exact absurd (by rw [hleast]; decide +kernel) hnot

/-- The half of the least positive number is zero. -/
theorem Line.Settles.eq_zero_of_underflows (h : l.Settles A opts o probes b step j j₁ j')
    (hunderflows : l.Underflows opts probes) : step = 0.0 := by
  obtain ⟨hleast, t, rfl, hnone⟩ := hunderflows
  obtain ⟨u, later, hprobes, hstep⟩ := h.firstStep
  obtain rfl : t = u := (List.cons.inj hprobes).1
  obtain ⟨-, ⟨last, hlast, rfl⟩, -⟩ := h.chooses.untried (List.forall_mem_singleton.mpr hnone)
  obtain rfl : t = last := Option.some.inj hlast
  rw [hstep, hleast]
  decide +kernel

/-- The step of a search is finite, whatever the constants, the arithmetic and the functions are. It
is positive as well, or it is zero; and it is zero exactly if the search begins with the least
positive number and finds that too long. -/
theorem search_step_range {armijo curvature firstStep : Float}
    (hopts : Options.create armijo curvature firstStep = .ok opts) {x d g : List Float}
    (h : (search A opts o x d g).perform j = (.ok step, j')) :
    step.isFinite = true ∧ (0.0 < step ∨ step = 0.0) ∧
      (step = 0.0 ↔ ∃ slope value j₁ probes b, A.inner g d = some slope ∧ ¬ 0.0 ≤ slope ∧
        Line.Settles A opts o ⟨x, d, value, slope⟩ probes b step j j₁ j' ∧
        Line.Underflows ⟨x, d, value, slope⟩ opts probes) := by
  obtain ⟨hvalid, -⟩ := Options.create_eq_ok_iff.mp hopts
  have hpositive (hpos : 0.0 < step) : step ≠ 0.0 := fun hzero =>
    Double.lt_irrefl 0.0 (hzero ▸ hpos)
  obtain ⟨slope, hslope, h₁⟩ := Run.perform_ofOption_bind_eq_ok_iff.mp h
  by_cases hdescends : 0.0 ≤ slope
  · rw [if_pos hdescends] at h₁
    cases h₁
    have hpos : (0.0 : Float) < 1e-8 := by decide +kernel
    refine ⟨by decide +kernel, Or.inl hpos, iff_of_false (hpositive hpos) ?_⟩
    rintro ⟨slope', -, -, -, -, hslope', hdescends', -⟩
    cases hslope.symm.trans hslope'
    exact hdescends' hdescends
  · obtain ⟨value, j₁, probes, b, hsettles⟩ := exists_settles hvalid hslope hdescends h
    obtain ⟨hfinite, hrange⟩ := hsettles.range hvalid hdescends
    refine ⟨hfinite, hrange.imp_right And.left, fun hzero => ?_, ?_⟩
    · obtain ⟨-, hunderflows⟩ := hrange.resolve_left fun hpos => hpositive hpos hzero
      exact ⟨slope, value, j₁, probes, b, hslope, hdescends, hsettles, hunderflows⟩
    · rintro ⟨_, _, _, _, _, -, -, hsettles', hunderflows⟩
      exact hsettles'.eq_zero_of_underflows hunderflows

/-- On the slide a search that begins near the largest number doubles its step once, to infinity,
and answers with the step before. -/
theorem search_step_range_slide :
    ∃ opts step j', Options.create 1e-4 0.9 1e308 = .ok opts ∧
      (search .laned opts slide.oracle [0.0] [1.0] [-1.0]).perform {} = (.ok step, j') ∧
      step.isFinite = true ∧ 0.0 < step := by
  have hopts : Options.create 1e-4 0.9 1e308 = .ok (⟨1e-4, 0.9, 1e308⟩ : Options Float) :=
    Options.create_eq_ok_iff.mpr ⟨Options.check_eq_ok_iff.mp (by decide +kernel), rfl⟩
  obtain ⟨step, j', h⟩ := Run.exists_perform_of_isOk (j := {})
    (r := search .laned ⟨1e-4, 0.9, 1e308⟩ slide.oracle [0.0] [1.0] [-1.0]) (by decide +kernel)
  obtain ⟨hfinite, hrange, hzero⟩ := search_step_range hopts h
  refine ⟨_, step, j', hopts, h, hfinite, hrange.resolve_right fun heq => ?_⟩
  obtain ⟨-, -, -, -, -, -, -, -, hfirst, -⟩ := hzero.mp heq
  exact absurd hfirst (by decide +kernel)

/-- The objective that is the square of the first coordinate. -/
def bowl : Problem Float :=
  .ofFunctions (fun x => x.headD 0.0 * x.headD 0.0) (List.map fun a => 2.0 * a)

/-- In the bowl, along a direction that is so long that even the least positive step goes too far,
the search answers with zero. -/
theorem step_underflows :
    ∃ opts step j', Options.create 1e-4 0.9 5e-324 = .ok opts ∧
      (search .laned opts bowl.oracle [1e-17] [-1e308] [2e-17]).perform {} = (.ok step, j') ∧
      step = 0.0 ∧ ¬ 0.0 < step := by
  have hopts : Options.create 1e-4 0.9 5e-324 = .ok (⟨1e-4, 0.9, 5e-324⟩ : Options Float) :=
    Options.create_eq_ok_iff.mpr ⟨Options.check_eq_ok_iff.mp (by decide +kernel), rfl⟩
  have hrun : ((search .laned ⟨1e-4, 0.9, 5e-324⟩ bowl.oracle [1e-17] [-1e308]
      [2e-17]).perform {}).1.toOption.map id = some 0.0 := by
    decide +kernel
  obtain ⟨step, j', h, hstep⟩ := Run.exists_perform_of_map_eq_some hrun
  obtain rfl : step = 0.0 := hstep
  exact ⟨_, 0.0, j', hopts, h, rfl, Double.lt_irrefl 0.0⟩

end QuasiNewton.LineSearch
