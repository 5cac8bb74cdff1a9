import QuasiNewton.Proofs.Lbfgs.InPlace
import QuasiNewton.Proofs.Lbfgs.Shaped
import QuasiNewton.Proofs.LineSearch.Failures
import QuasiNewton.Proofs.LineSearch.Range

/-!
# Iterations after a search

Once the line search has answered, an iteration asks for one thing more, the gradient at the new
point, and it fails only there (`State.Searched.perform_step_eq_ok`). If the search has tried the
step and has chosen it, it has seen this gradient before, and functions that answer in the same way
whenever they are asked show it again. So an iteration that fails after its search had a step that
was not tried: the fallback along a direction that does not descend, or the one that the search was
left with when all steps were too long (`State.tested_step_succeeds`).
-/

namespace QuasiNewton

variable {α : Type} {n : Nat}

/-! ### The gradient at a probe -/

namespace LineSearch

variable [Scalar α] {A : Arithmetic α} {opts : Options α} {o : Oracle α} {l : Line α} {t : Probe α}
  {j j' : Journal α}

/-- The slope of the probe was taken from the gradient `g` at its point. -/
def Probe.Saw (A : Arithmetic α) (o : Oracle α) (d : List α) (t : Probe α) (g : List α) : Prop :=
  ∃ j j' s, (o.gradient t.point).perform j = (.ok g, j') ∧ A.inner g d = some s ∧ t.slope = some s

theorem Line.Probed.point_eq (h : l.Probed A opts o t j j') :
    A.addScaled l.origin l.direction t.step = some t.point := by
  cases h with
  | fails hpoint _ _ _ => exact hpoint
  | passes hpoint _ _ _ => exact hpoint

/-- A probe that was accepted, or from which the objective descends, saw the gradient. -/
theorem Line.Probed.exists_saw (h : l.Probed A opts o t j j')
    (hmarked : t.Accepted opts l ∨ t.Descends opts l) : ∃ g, t.Saw A o l.direction g := by
  obtain ⟨s, hs⟩ : ∃ s, t.slope = some s := by
    obtain ⟨-, s, hs, -⟩ | ⟨-, s, hs, -⟩ := hmarked
    · exact ⟨s, hs⟩
    · exact ⟨s, hs⟩
  cases h with
  | fails _ _ _ hnone => cases hs.symm.trans hnone
  | passes _ _ _ hslope =>
    rw [hs] at hslope
    cases hslope with
    | finite hg hinner _ => exact ⟨_, _, _, s, hg, hinner, hs⟩

/-- Whatever the constants are, a search that has probed answers with a step at which the objective
still descends or that was accepted, or it answers with the step that it would have tried next. -/
theorem Line.Ends.eq_step {A : Arithmetic Float} {opts : Options Float} {o : Oracle Float}
    {l : Line Float} {left : Nat} {probes : List (Probe Float)} {b : Bracket Float} {step : Float}
    {j j' : Journal Float} (h : l.Ends opts left probes b step)
    (hprobes : l.Probes A opts o (.initial opts.firstStep) probes j b j') :
    (∃ t ∈ probes, (t.Accepted opts l ∨ t.Descends opts l) ∧ step = t.step) ∨ step = b.step := by
  by_cases hsome : ∃ t ∈ probes, t.Accepted opts l
  · obtain ⟨t, ht, haccepted⟩ := hsome
    obtain ⟨before, after, rfl⟩ := List.append_of_mem ht
    obtain rfl := hprobes.eq_nil_of_accepted haccepted
    exact Or.inl ⟨t, ht, Or.inl haccepted, h.of_accepted List.getLast?_concat haccepted⟩
  have hnone : ∀ t ∈ probes, ¬ t.Accepted opts l := fun t ht haccepted =>
    hsome ⟨t, ht, haccepted⟩
  rw [h.of_not_accepted hnone]
  by_cases hdescends : ∃ t ∈ probes, t.Descends opts l
  · obtain ⟨before, t, after, rfl, ht, hafter⟩ := exists_last hdescends
    have hmem : t ∈ before ++ t :: after := List.mem_append_right _ List.mem_cons_self
    have hlower := hprobes.lower_eq_step (hnone t hmem) ht hafter
    by_cases hpos : 0.0 < b.lower
    · exact Or.inl ⟨t, hmem, Or.inr ht, (Bracket.settle_of_pos hpos).trans hlower⟩
    · exact Or.inr (if_neg hpos)
  · have hlower := hprobes.lower_eq fun t ht hdescends' => hdescends ⟨t, ht, hdescends'⟩
    exact Or.inr (Bracket.settle_of_lower_eq_zero hlower)

end LineSearch

namespace Lbfgs.State

open LineSearch

/-! ### What is left to do after the search -/

section

variable [Scalar α] {A : Arithmetic α} {opts : LineSearch.Options α} {o : Oracle α} {s : State α}
  {j searched : Journal α} {d : List α} {slope step : α}

/-- The line search of an iteration has answered. -/
structure Searched (A : Arithmetic α) (opts : LineSearch.Options α) (o : Oracle α) (s : State α)
    (j : Journal α) (d : List α) (slope step : α) (searched : Journal α) : Prop where
  direction_eq : s.direction A = some d
  slope_eq : A.inner s.gradient d = some slope
  search_eq : (search A opts o s.point d s.gradient).perform
    (if 0.0 ≤ slope then j.push (.noted (.nonDescent name s.iteration slope)) else j) =
      (.ok step, searched)

/-- After the search nothing but the gradient at the new point can stop an iteration. -/
theorem Searched.perform_step_eq_ok (h : s.Searched A opts o j d slope step searched)
    (hA : A.Lawful) (hn : 0 < n) (ho : o.ShapedAt n) (hs : s.Shaped A n) {x g : List α}
    {evaluated : Journal α} (hx : A.addScaled s.point d step = some x)
    (hg : (o.gradient x).perform searched = (.ok g, evaluated)) :
    ∃ s' j', (State.step A opts o).perform s j = (.ok step, s', j') ∧ s'.point = x ∧
      s'.gradient = g := by
  have hd := hs.length_direction hA hn h.direction_eq
  have hlength := hA.length_of_addScaled_eq_some hn hs.length_point hd hx
  obtain ⟨move, hmove, hlength_move⟩ := hA.exists_sub hn hlength hs.length_point
  obtain ⟨change, hchange, hlength_change⟩ :=
    hA.exists_sub hn (ho hlength hg) hs.length_gradient
  have hsame := hlength_move.trans hlength_change.symm
  obtain ⟨curvature, hcurvature⟩ := hA.exists_inner hsame
  obtain ⟨⟨stored, history⟩, hoffer⟩ := History.exists_offer hA s.history hsame
  have i : Iteration A opts o s j ⟨⟨x, g, s.iteration + 1⟩, history⟩ step (if !stored then
      evaluated.push (.noted (.skipped s.iteration curvature)) else evaluated) :=
    ⟨d, slope, searched, evaluated, move, change, curvature, stored, h.direction_eq, h.slope_eq,
      h.search_eq, hx, hg, hmove, hchange, hcurvature, hoffer, rfl, rfl⟩
  rw [perform_step, attempt, perform_advance_eq_ok_iff.mpr ⟨i⟩]
  exact ⟨_, _, rfl, rfl, rfl⟩

end

/-! ### Steps that were tried -/

variable {A : Arithmetic Float} {opts : LineSearch.Options Float} {o : Oracle Float}
  {s : State Float} {j searched : Journal Float} {d : List Float} {slope step : Float}

/-- The probes that the line search of an iteration made, and what they are worth to the
iteration. -/
structure Tested (A : Arithmetic Float) (opts : LineSearch.Options Float) (o : Oracle Float)
    (s : State Float) (l : Line Float) (probes : List (Probe Float)) (b : Bracket Float)
    (step : Float) (j j₁ searched : Journal Float) : Prop where
  value : (o.value l.origin).perform j = (.ok l.value, j₁)
  probed : l.Probes A opts o (.initial opts.firstStep) probes j₁ b searched
  length_le : probes.length ≤ 50
  ends : l.Ends opts 50 probes b step
  /-- The iteration succeeds with a step that was accepted, or from which the objective descends. It
  arrives at the point of this probe, with the gradient that was seen there. -/
  succeeds : ∀ t ∈ probes, t.Accepted opts l ∨ t.Descends opts l → step = t.step →
    ∃ g s' j', t.Saw A o l.direction g ∧ (State.step A opts o).perform s j = (.ok step, s', j') ∧
      s'.point = t.point ∧ s'.gradient = g
  /-- If the iteration fails, its step is none of these, but the one that was to be tried next. -/
  untried : ((State.step A opts o).perform s j).1.isOk = false →
    step = b.step ∧ ∀ t ∈ probes, t.Accepted opts l ∨ t.Descends opts l → step ≠ t.step
  /-- If the first step is positive and finite, this one is half of the last one that was tried, and
  below all of them. -/
  halved : 0.0 < opts.firstStep → opts.firstStep.isFinite = true →
    ((State.step A opts o).perform s j).1.isOk = false →
    (∀ t ∈ probes, ¬ t.Accepted opts l ∧ ¬ t.Descends opts l) ∧
      (∃ last ∈ probes.getLast?, step = 0.5 * (0.0 + last.step)) ∧ ∀ t ∈ probes, step < t.step

/-- A probe is repeated by the iteration that takes its step. -/
theorem Searched.succeeds (h : s.Searched A opts o j d slope step searched) (hA : A.Standard)
    (ho : o.Steady) (hshaped : o.ShapedAt n) (hs : s.Shaped A n) (hdescends : ¬ 0.0 ≤ slope)
    {value : Float} {t : Probe Float} {j₁ j₂ : Journal Float}
    (hprobed : Line.Probed A opts o ⟨s.point, d, value, slope⟩ t j₁ j₂)
    (hmarked : t.Accepted opts ⟨s.point, d, value, slope⟩ ∨
      t.Descends opts ⟨s.point, d, value, slope⟩) (hstep : step = t.step) :
    ∃ g s' j', t.Saw A o d g ∧ (State.step A opts o).perform s j = (.ok step, s', j') ∧
      s'.point = t.point ∧ s'.gradient = g := by
  have hn : 0 < n := hs.length_gradient ▸ (length_pos_of_descends hA h.slope_eq hdescends).1
  obtain ⟨g, hsaw⟩ := hprobed.exists_saw hmarked
  obtain ⟨_, _, _, hg, -, -⟩ := id hsaw
  obtain ⟨_, hagain, -⟩ := (ho.gradient t.point).exists_ok (k := searched) hg trivial
  obtain ⟨s', j', hok, hpoint, hgradient⟩ :=
    h.perform_step_eq_ok hA.lawful hn hshaped hs (hstep ▸ hprobed.point_eq) hagain
  exact ⟨g, s', j', hsaw, hok, hpoint, hgradient⟩

/-- An iteration that succeeds with the steps that were worth it can fail only with another one. -/
theorem tested_of_succeeds {l : Line Float} {probes : List (Probe Float)} {b : Bracket Float}
    {j₁ : Journal Float} (hvalue : (o.value l.origin).perform j = (.ok l.value, j₁))
    (hprobes : l.Probes A opts o (.initial opts.firstStep) probes j₁ b searched)
    (hlength : probes.length ≤ 50) (hends : l.Ends opts 50 probes b step)
    (hsucceeds : ∀ t ∈ probes, t.Accepted opts l ∨ t.Descends opts l → step = t.step →
      ∃ g s' j', t.Saw A o l.direction g ∧
        (State.step A opts o).perform s j = (.ok step, s', j') ∧ s'.point = t.point ∧
        s'.gradient = g) : s.Tested A opts o l probes b step j j₁ searched := by
  have hfails (hfailed : ((State.step A opts o).perform s j).1.isOk = false) :
      ∀ t ∈ probes, t.Accepted opts l ∨ t.Descends opts l → step ≠ t.step := by
    intro t ht hmarked hstep
    obtain ⟨_, _, _, -, hok, -, -⟩ := hsucceeds t ht hmarked hstep
    rw [hok] at hfailed
    cases hfailed
  refine ⟨hvalue, hprobes, hlength, hends, hsucceeds, fun hfailed => ⟨?_, hfails hfailed⟩,
    fun hpos hfinite hfailed => ?_⟩
  · refine (hends.eq_step hprobes).resolve_left ?_
    rintro ⟨t, ht, hmarked, hstep⟩
    exact hfails hfailed t ht hmarked hstep
  · have hchooses := hprobes.chooses hpos hfinite hends
    have hnone : ∀ t ∈ probes, ¬ t.Accepted opts l ∧ ¬ t.Descends opts l := by
      intro t ht
      refine not_or.mp fun hmarked => ?_
      obtain ⟨u, hu, hstep, hmarked⟩ := hchooses.exists_marked ⟨t, ht, hmarked⟩
      exact hfails hfailed u hu hmarked hstep
    exact ⟨hnone, (hchooses.untried hnone).2⟩

/-- A step that was tried cannot fail afterwards. The functions answer in the same way whenever they
are asked, and the gradients have the length of the points. When the search of an iteration has
answered, the direction does not descend and the step is the fallback; or the search has probed, and
the iteration succeeds with every step that was accepted or from which the objective descends. -/
theorem tested_step_succeeds (hA : A.Standard) (ho : o.Steady) (hshaped : o.ShapedAt n)
    (hs : s.Shaped A n) (h : s.Searched A opts o j d slope step searched) :
    0.0 ≤ slope ∧ step = 1e-8 ∨
      ¬ 0.0 ≤ slope ∧ ∃ value j₁ probes b,
        s.Tested A opts o ⟨s.point, d, value, slope⟩ probes b step j j₁ searched := by
  have hsearch := h.search_eq
  by_cases hdescends : 0.0 ≤ slope
  · obtain ⟨slope', hslope', h₁⟩ := Run.perform_ofOption_bind_eq_ok_iff.mp hsearch
    cases h.slope_eq.symm.trans hslope'
    rw [if_pos hdescends] at h₁
    cases h₁
    exact Or.inl ⟨hdescends, rfl⟩
  · rw [if_neg hdescends] at hsearch
    obtain ⟨value, j₁, probes, b, hvalue, hprobes, hlength, hends⟩ :=
      exists_probes_of_search h.slope_eq hdescends hsearch
    refine Or.inr ⟨hdescends, value, j₁, probes, b,
      tested_of_succeeds hvalue hprobes hlength hends fun t ht hmarked hstep => ?_⟩
    obtain ⟨_, _, hprobed⟩ := hprobes.probed_of_mem t ht
    exact h.succeeds hA ho hshaped hs hdescends hprobed hmarked hstep

/-- An objective that does not decrease anywhere, and whose gradient is not known. -/
def plateau : Problem Float where
  value _ := .ok 0.0
  gradient _ := .error .unknown

theorem searched_bowl : ∃ step searched, (initial 1 [1.0] [2.0]).Searched .laned ⟨1e-4, 0.9, 0.5⟩
    bowl.oracle {} [-2.0] (-4.0) step searched := by
  obtain ⟨step, searched, hsearch⟩ := Run.exists_perform_of_isOk (j := {})
    (r := search .laned ⟨1e-4, 0.9, 0.5⟩ bowl.oracle [1.0] [-2.0] [2.0]) (by decide +kernel)
  exact ⟨step, searched, by decide +kernel, by decide +kernel,
    by rwa [if_neg (by decide +kernel)]⟩

theorem searched_plateau : ∃ step searched, (initial 1 [0.0] [-1.0]).Searched .laned .standard
    plateau.oracle {} [1.0] (-1.0) step searched := by
  obtain ⟨step, searched, hsearch⟩ := Run.exists_perform_of_isOk (j := {})
    (r := search .laned .standard plateau.oracle [0.0] [1.0] [-1.0]) (by decide +kernel)
  exact ⟨step, searched, by decide +kernel, by decide +kernel,
    by rwa [if_neg (by decide +kernel)]⟩

/-- In the bowl the first step leads to the bottom and is accepted, and the iteration repeats it. On
the plateau all steps are too long. The search answers with half of the last one, and there the
iteration fails. -/
theorem tested_step_succeeds_bowl :
    (∃ (step : Float) (t : Probe Float) (g : List Float) (s' : State Float) (j' : Journal Float),
      t.Saw .laned bowl.oracle [-2.0] g ∧
      (State.step .laned ⟨1e-4, 0.9, 0.5⟩ bowl.oracle).perform (initial 1 [1.0] [2.0]) {} =
        (.ok step, s', j') ∧
      step = 0.5 ∧ s'.point = t.point ∧ s'.gradient = g) ∧
    ∃ (step : Float) (searched : Journal Float) (last : Probe Float),
      (initial 1 [0.0] [-1.0]).Searched .laned .standard plateau.oracle {} [1.0] (-1.0) step
        searched ∧
      ((State.step .laned .standard plateau.oracle).perform (initial 1 [0.0] [-1.0]) {}).1.isOk =
        false ∧
      step = 0.5 * (0.0 + last.step) ∧ step < last.step := by
  constructor
  · obtain ⟨step, searched, hsearched⟩ := searched_bowl
    have hshaped : bowl.oracle.ShapedAt 1 := by
      intro x g j j' hx hg
      obtain ⟨hg, -⟩ := bowl.perform_gradient_eq_ok_iff.mp hg
      obtain rfl := Except.ok.inj hg
      exact (List.length_map _).trans hx
    obtain ⟨hdeclined, -⟩ | ⟨-, value, j₁, probes, b, htested⟩ := tested_step_succeeds .laned
      bowl.steady_oracle hshaped (shaped_initial 1 rfl rfl) hsearched
    · exact absurd hdeclined (by decide +kernel)
    obtain rfl : 1.0 = value := by
      have hone : bowl.value [1.0] = .ok 1.0 := by decide +kernel
      exact Except.ok.inj (hone.symm.trans (bowl.perform_value_eq_ok_iff.mp htested.value).1)
    obtain ⟨t, later, rfl, hfirst⟩ := htested.probed.exists_head
    obtain ⟨_, _, hprobed⟩ := htested.probed.probed_of_mem t List.mem_cons_self
    have hpoint : Arithmetic.laned.addScaled [1.0] [-2.0] t.step = some [1.0 + -2.0 * 0.5] :=
      hfirst ▸ rfl
    have hpasses : t.Passes ⟨1e-4, 0.9, 0.5⟩ ⟨[1.0], [-2.0], 1.0, -4.0⟩ := by
      have hvalue : bowl.value [1.0 + -2.0 * 0.5] = .ok 0.0 := by decide +kernel
      refine ⟨0.0, hprobed.value_eq_some hpoint hvalue (by decide +kernel), ?_⟩
      rw [hfirst]
      decide +kernel
    have haccepted : t.Accepted ⟨1e-4, 0.9, 0.5⟩ ⟨[1.0], [-2.0], 1.0, -4.0⟩ := by
      have hinner : Arithmetic.laned.inner [2.0 * (1.0 + -2.0 * 0.5)] [-2.0] =
          some (0.0 : Float) := by
        decide +kernel
      exact ⟨hpasses, 0.0, hprobed.slope_eq_some hpasses hpoint rfl hinner (by decide +kernel),
        by decide +kernel⟩
    obtain rfl : later = [] := by
      cases htested.probed with
      | last _ _ => rfl
      | more _ _ hnot _ _ => exact absurd haccepted hnot
    have hstep := htested.ends.of_accepted rfl haccepted
    obtain ⟨g, s', j', hsaw, hok, hpoint', hgradient⟩ :=
      htested.succeeds t List.mem_cons_self (Or.inl haccepted) hstep
    exact ⟨step, t, g, s', j', hsaw, hok, hstep.trans hfirst, hpoint', hgradient⟩
  · obtain ⟨step, searched, hsearched⟩ := searched_plateau
    have hshaped : plateau.oracle.ShapedAt 1 := by
      intro x g j j' hx hg
      obtain ⟨hg, -⟩ := plateau.perform_gradient_eq_ok_iff.mp hg
      cases hg
    obtain ⟨hdeclined, -⟩ | ⟨-, value, j₁, probes, b, htested⟩ := tested_step_succeeds .laned
      plateau.steady_oracle hshaped (shaped_initial 1 rfl rfl) hsearched
    · exact absurd hdeclined (by decide +kernel)
    have hfailed : ((State.step .laned .standard plateau.oracle).perform (initial 1 [0.0] [-1.0])
        {}).1.isOk = false := by
      decide +kernel
    obtain ⟨-, ⟨last, hlast, hhalf⟩, hbelow⟩ :=
      htested.halved (by decide +kernel) (by decide +kernel) hfailed
    exact ⟨step, searched, last, hsearched, hfailed, hhalf,
      hbelow last (List.mem_of_getLast? hlast)⟩

end Lbfgs.State

end QuasiNewton
