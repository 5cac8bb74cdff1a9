import QuasiNewton.Proofs.Halving
import QuasiNewton.Proofs.LineSearch.Probes
import QuasiNewton.Proofs.Validity

/-!
# The step that a line search chooses

A search in doubles settles for the lower end of its bracket if that is positive, and otherwise for
a step that it did not try. In terms of its probes (`search_chooses`): the step of the last probe if
that is accepted; else that of the last probe at which the objective decreases enough and still
descends; and if there is no such probe, half of the last step, which lies below all of them.

So the answer need not be a step at which the objective decreases enough, although there was one: a
probe where the slope is positive, or undefined, leaves no trace but in the upper end
(`decrease_forgotten`). It is the last step of this kind if the slope is negative there
(`settles_for_last_decrease`).
-/

namespace QuasiNewton.LineSearch

variable {A : Arithmetic Float} {opts : Options Float} {o : Oracle Float} {l : Line Float}
  {b b' : Bracket Float} {t : Probe Float} {probes before after : List (Probe Float)}
  {j j' : Journal Float}

/-! ### Positive steps -/

theorem pos_or_isNaN_of_not_lt {step : Float} (h : ¬ step < leastStep) :
    0.0 < step ∨ step.isNaN = true := by
  have hleast : (0.0 : Float) < leastStep := by decide +kernel
  obtain hlt | hle | hnan | hnan := Double.lt_or_le_or_isNaN step leastStep
  · exact absurd hlt h
  · exact Or.inl (Double.lt_of_lt_of_le hleast hle)
  · exact Or.inr hnan
  · exact absurd hnan (by decide +kernel)

/-- The objective does not decrease at a step that is undefined. -/
theorem Trial.not_passes_of_isNaN {t : Trial Float} (h : t.step.isNaN = true) :
    ¬ t.Passes opts l := by
  rintro ⟨v, -, hdecreases⟩
  exact Double.not_le_of_isNaN
    (Double.isNaN_add (Double.isNaN_mul_left (Double.isNaN_mul h))) hdecreases

/-- A step that is too long is halved, as long as none was too short. -/
theorem Line.refine_of_unmarked (hlower : b.lower = 0.0)
    (ht : ¬ t.Accepted opts l ∧ ¬ t.Descends opts l) :
    (b.refine (l.verdict opts t)).lower = 0.0 ∧
      (b.refine (l.verdict opts t)).step = 0.5 * (0.0 + b.step) := by
  rw [verdict_eq_tooLong ht.1 ht.2, ← hlower]
  exact ⟨rfl, rfl⟩

/-- The next step is tried only if it is not too small, so it is positive, and it lies below a
number. -/
theorem Line.pos_and_isFinite_of_refine (hlower : b.lower = 0.0) (hpos : 0.0 < b.step)
    (hfinite : b.step.isFinite = true) (ht : ¬ t.Accepted opts l ∧ ¬ t.Descends opts l)
    (hleast : ¬ (b.refine (l.verdict opts t)).step < leastStep) :
    0.0 < (b.refine (l.verdict opts t)).step ∧
      (b.refine (l.verdict opts t)).step.isFinite = true := by
  have hlt := Double.half_lt hpos hfinite
  rw [← (refine_of_unmarked hlower ht).2] at hlt
  have hpos' := (pos_or_isNaN_of_not_lt hleast).resolve_right
    fun hnan => Double.not_lt_of_isNaN hnan hlt
  exact ⟨hpos', Double.isFinite_of_lt_of_lt hpos' hlt⟩

namespace Line.Probes

/-- A step at which the objective decreases enough is positive. -/
theorem pos_of_passes (h : l.Probes A opts o b probes j b' j')
    (hb : 0.0 < b.step ∨ b.step.isNaN = true) : ∀ t ∈ probes, t.Passes opts l → 0.0 < t.step := by
  have hhead {b : Bracket Float} {t : Probe Float} (hb : 0.0 < b.step ∨ b.step.isNaN = true)
      (hstep : t.step = b.step) (ht : t.Passes opts l) : 0.0 < t.step := by
    rw [← hstep] at hb
    exact hb.resolve_right fun hnan => Trial.not_passes_of_isNaN hnan ht
  induction h with
  | last hstep _ => simpa using hhead hb hstep
  | more hstep _ _ hleast _ ih =>
    exact List.forall_mem_cons.mpr ⟨hhead hb hstep, ih (pos_or_isNaN_of_not_lt hleast)⟩

/-- As long as all steps are too long, each next step is half of the one before. -/
theorem step_lt (h : l.Probes A opts o b probes j b' j') (hlower : b.lower = 0.0)
    (hpos : 0.0 < b.step) (hfinite : b.step.isFinite = true)
    (hnone : ∀ t ∈ probes, ¬ t.Accepted opts l ∧ ¬ t.Descends opts l) :
    b'.step < b.step ∧ (∃ last ∈ probes.getLast?, b'.step = 0.5 * (0.0 + last.step)) ∧
      ∀ t ∈ probes, b'.step < t.step := by
  induction h with
  | @last b t _ _ hstep _ =>
    obtain ⟨-, hhalf⟩ := refine_of_unmarked hlower (hnone _ List.mem_cons_self)
    have hlt := Double.half_lt hpos hfinite
    rw [← hhalf] at hlt
    exact ⟨hlt, ⟨t, rfl, by rw [hhalf, hstep]⟩, by simpa [hstep] using hlt⟩
  | @more b b' t later _ _ _ hstep _ _ hleast hlater ih =>
    obtain ⟨ht, hnone⟩ := List.forall_mem_cons.mp hnone
    obtain ⟨hlower', hhalf⟩ := refine_of_unmarked hlower ht
    obtain ⟨hpos', hfinite'⟩ := pos_and_isFinite_of_refine hlower hpos hfinite ht hleast
    have hlt := Double.half_lt hpos hfinite
    rw [← hhalf] at hlt
    obtain ⟨hlt', ⟨last, hlast, hlast'⟩, hall⟩ := ih hlower' hpos' hfinite' hnone
    have hlt'' := Double.lt_trans hlt' hlt
    refine ⟨hlt'', ⟨last, ?_, hlast'⟩, List.forall_mem_cons.mpr ⟨hstep ▸ hlt'', hall⟩⟩
    rw [Option.mem_def, List.getLast?_cons, Option.mem_def.mp hlast]
    rfl

/-- As long as all steps are too long, the last one is positive and finite, and not below the least
step unless it is the first one. -/
theorem last_of_unmarked (h : l.Probes A opts o b probes j b' j') (hlower : b.lower = 0.0)
    (hpos : 0.0 < b.step) (hfinite : b.step.isFinite = true)
    (hnone : ∀ t ∈ probes, ¬ t.Accepted opts l ∧ ¬ t.Descends opts l) :
    ∀ last ∈ probes.getLast?, 0.0 < last.step ∧ last.step.isFinite = true ∧
      (probes = [last] ∧ last.step = b.step ∨ ¬ last.step < leastStep) := by
  induction h with
  | @last b t _ _ hstep _ =>
    intro last hlast
    obtain rfl : t = last := Option.some.inj hlast
    rw [hstep]
    exact ⟨hpos, hfinite, Or.inl ⟨rfl, rfl⟩⟩
  | @more b b' t later _ _ _ _ _ _ hleast hlater ih =>
    obtain ⟨ht, hnone⟩ := List.forall_mem_cons.mp hnone
    obtain ⟨hlower', -⟩ := refine_of_unmarked hlower ht
    obtain ⟨hpos', hfinite'⟩ := pos_and_isFinite_of_refine hlower hpos hfinite ht hleast
    intro last hlast
    have hlater' : last ∈ later.getLast? := by
      obtain ⟨u, rest, rfl, -⟩ := hlater.exists_head
      rwa [List.getLast?_cons_cons] at hlast
    obtain ⟨hpos'', hfinite'', hfirst⟩ := ih hlower' hpos' hfinite' hnone last hlater'
    refine ⟨hpos'', hfinite'', Or.inr ?_⟩
    obtain ⟨-, hstep⟩ | hnot := hfirst
    · rw [hstep]
      exact hleast
    · exact hnot

end Line.Probes

/-! ### The choice -/

theorem Bracket.settle_of_pos (h : 0.0 < b.lower) : b.settle = b.lower :=
  if_pos h

theorem Bracket.settle_of_lower_eq_zero (h : b.lower = 0.0) : b.settle = b.step := by
  rw [settle, h]
  exact if_neg (Double.lt_irrefl 0.0)

/-- The step that a search answers with, in terms of its probes and of the bracket after them. -/
structure Line.Chooses (l : Line Float) (opts : Options Float) (probes : List (Probe Float))
    (b : Bracket Float) (step : Float) : Prop where
  /-- A probe that meets both conditions is the last one, and its step is chosen. -/
  accepted : ∀ {before after : List (Probe Float)} {t : Probe Float},
    probes = before ++ t :: after → t.Accepted opts l → after = [] ∧ step = t.step
  /-- Else the last step is chosen at which the objective decreases enough and still descends. -/
  descending : (∀ t ∈ probes, ¬ t.Accepted opts l) →
    ∀ {before after : List (Probe Float)} {t : Probe Float},
      probes = before ++ t :: after → t.Descends opts l → (∀ u ∈ after, ¬ u.Descends opts l) →
      step = t.step
  /-- Else the step is half of the last one that was tried, and was not tried itself. -/
  untried : (∀ t ∈ probes, ¬ t.Accepted opts l ∧ ¬ t.Descends opts l) →
    step = b.step ∧ (∃ last ∈ probes.getLast?, step = 0.5 * (0.0 + last.step)) ∧
      ∀ t ∈ probes, step < t.step

theorem Line.Ends.of_accepted {left : Nat} {step : Float} (h : l.Ends opts left probes b step)
    (hlast : probes.getLast? = some t) (haccepted : t.Accepted opts l) : step = t.step := by
  cases h with
  | accepted hlast' _ hstep =>
    cases hlast.symm.trans hlast'
    exact hstep
  | settled hlast' hnot _ _ =>
    cases hlast.symm.trans hlast'
    exact absurd haccepted hnot

theorem Line.Ends.of_not_accepted {left : Nat} {step : Float} (h : l.Ends opts left probes b step)
    (hnone : ∀ t ∈ probes, ¬ t.Accepted opts l) : step = b.settle := by
  cases h with
  | accepted hlast haccepted _ => exact absurd haccepted (hnone _ (List.mem_of_getLast? hlast))
  | settled _ _ hstep _ => exact hstep

theorem Line.Probes.chooses {left : Nat} {step : Float} (hpos : 0.0 < opts.firstStep)
    (hfinite : opts.firstStep.isFinite = true)
    (h : l.Probes A opts o (.initial opts.firstStep) probes j b' j')
    (hends : l.Ends opts left probes b' step) : l.Chooses opts probes b' step where
  accepted := by
    rintro before after t rfl haccepted
    obtain rfl := h.eq_nil_of_accepted haccepted
    exact ⟨rfl, hends.of_accepted (List.getLast?_concat) haccepted⟩
  descending := by
    rintro hnone before after t rfl hdescends hafter
    have hmem : t ∈ before ++ t :: after := List.mem_append_right _ List.mem_cons_self
    have hlower := h.lower_eq_step (hnone t hmem) hdescends hafter
    have hpos' := h.pos_of_passes (Or.inl hpos) t hmem hdescends.1
    rw [hends.of_not_accepted hnone, Bracket.settle_of_pos (hlower ▸ hpos'), hlower]
  untried := by
    intro hnone
    have hlower := h.lower_eq fun t ht => (hnone t ht).2
    obtain ⟨-, hhalf, hall⟩ := h.step_lt rfl hpos hfinite hnone
    rw [hends.of_not_accepted fun t ht => (hnone t ht).1, Bracket.settle_of_lower_eq_zero hlower]
    exact ⟨rfl, hhalf, hall⟩

/-- Fewer probes than there are rounds: the last one is accepted, or the next step is too small. -/
theorem Line.Ends.stops {left : Nat} {step : Float} (h : l.Ends opts left probes b step)
    (hlength : probes.length < left) :
    (∃ last ∈ probes.getLast?, last.Accepted opts l) ∨ b.step < leastStep := by
  cases h with
  | accepted hlast haccepted _ => exact Or.inl ⟨_, hlast, haccepted⟩
  | settled _ _ _ hstops => exact Or.inr (hstops.resolve_left hlength.ne)

/-- A search that asks along a line: the value at the origin, the probes that it makes from there,
and the step that it chooses. -/
structure Line.Settles (A : Arithmetic Float) (opts : Options Float) (o : Oracle Float)
    (l : Line Float) (probes : List (Probe Float)) (b : Bracket Float) (step : Float)
    (j j₁ j' : Journal Float) : Prop where
  value : (o.value l.origin).perform j = (.ok l.value, j₁)
  probed : l.Probes A opts o (.initial opts.firstStep) probes j₁ b j'
  firstStep : ∃ t later, probes = t :: later ∧ t.step = opts.firstStep
  length_le : probes.length ≤ 50
  chooses : l.Chooses opts probes b step
  /-- The search ends early only with a step that is accepted, or before one that is too small. -/
  stops : probes.length < 50 →
    (∃ last ∈ probes.getLast?, last.Accepted opts l) ∨ b.step < 1e-10
  /-- Besides the value at the origin only the probes ask, and of each the gradient only where the
  objective decreases enough. -/
  queries : o.Enters →
    j'.queries = j.queries ++ .value l.origin :: probes.flatMap (·.queries opts l)

theorem exists_settles (hopts : opts.Valid) {x d g : List Float} {slope step : Float}
    (hslope : A.inner g d = some slope) (hdescends : ¬ 0.0 ≤ slope)
    (h : (search A opts o x d g).perform j = (.ok step, j')) :
    ∃ value j₁ probes b, Line.Settles A opts o ⟨x, d, value, slope⟩ probes b step j j₁ j' := by
  obtain ⟨value, j₁, probes, b, hvalue, hprobes, hlength, hends⟩ :=
    exists_probes_of_search hslope hdescends h
  refine ⟨value, j₁, probes, b, hvalue, hprobes, hprobes.exists_head, hlength,
    hprobes.chooses hopts.pos hopts.finite hends, hends.stops, fun ho => ?_⟩
  have hasked := ho.value x j
  rw [hvalue] at hasked
  rw [hprobes.queries_eq ho, hasked, List.append_assoc]
  rfl

/-- How a search with valid constants comes to its answer, whatever the functions say: it declines
the direction and asks nothing, or it settles along the line. -/
theorem search_chooses (hopts : opts.Valid) {x d g : List Float} {step : Float}
    (h : (search A opts o x d g).perform j = (.ok step, j')) :
    ∃ slope, A.inner g d = some slope ∧
      (0.0 ≤ slope ∧ step = 1e-8 ∧ j' = j ∨
        ¬ 0.0 ≤ slope ∧ ∃ value j₁ probes b,
          Line.Settles A opts o ⟨x, d, value, slope⟩ probes b step j j₁ j') := by
  obtain ⟨slope, hslope, h₁⟩ := Run.perform_ofOption_bind_eq_ok_iff.mp h
  refine ⟨slope, hslope, ?_⟩
  by_cases hdescends : 0.0 ≤ slope
  · rw [if_pos hdescends] at h₁
    cases h₁
    exact Or.inl ⟨hdescends, rfl, rfl⟩
  · exact Or.inr ⟨hdescends, exists_settles hopts hslope hdescends h⟩

/-- An objective that drops at one, and whose gradient says that it rises from there. -/
def ledge : Problem Float :=
  .ofFunctions (fun x => if x.headD 0.0 < 1.0 then 1.0 else -1.0)
    (List.map fun a => if a < 1.0 then -1.0 else 5.0)

/-- The slope at the origin, for the searches below. -/
theorem inner_downhill : Arithmetic.laned.inner [(-1.0 : Float)] [1.0] = some (-1.0) := by
  decide +kernel

/-- On the ledge the search asks along the line. -/
theorem search_chooses_ledge :
    ∃ value step probes b j₁ j',
      (search .laned .standard ledge.oracle [0.0] [1.0] [-1.0]).perform {} = (.ok step, j') ∧
      Line.Settles .laned .standard ledge.oracle ⟨[0.0], [1.0], value, -1.0⟩ probes b step {} j₁
        j' ∧
      j'.queries = .value [0.0] ::
        probes.flatMap (·.queries .standard ⟨[0.0], [1.0], value, -1.0⟩) := by
  obtain ⟨step, j', h⟩ := Run.exists_perform_of_isOk (j := {})
    (r := search .laned .standard ledge.oracle [0.0] [1.0] [-1.0]) (by decide +kernel)
  obtain ⟨slope, hslope, hdeclined | ⟨-, value, j₁, probes, b, hsettles⟩⟩ :=
    search_chooses Options.valid_standard h
  · cases inner_downhill.symm.trans hslope
    exact absurd hdeclined.1 (by decide +kernel)
  · cases inner_downhill.symm.trans hslope
    exact ⟨value, step, probes, b, j₁, j', h, hsettles,
      hsettles.queries (Responder.ofProblem ledge).enters_oracle⟩

/-- A list with an element for which `p` holds, cut at the last one of them. -/
theorem exists_last {β : Type} {p : β → Prop} {xs : List β} (h : ∃ a ∈ xs, p a) :
    ∃ before a after, xs = before ++ a :: after ∧ p a ∧ ∀ u ∈ after, ¬ p u := by
  induction xs with
  | nil => simp at h
  | cons a xs ih =>
    by_cases hlater : ∃ u ∈ xs, p u
    · obtain ⟨before, u, after, rfl, hu, hafter⟩ := ih hlater
      exact ⟨a :: before, u, after, rfl, hu, hafter⟩
    · have hnone : ∀ u ∈ xs, ¬ p u := fun u hu hpu => hlater ⟨u, hu, hpu⟩
      obtain ⟨u, hu, hpu⟩ := h
      obtain rfl | hu := List.mem_cons.mp hu
      · exact ⟨[], u, xs, rfl, hpu, hnone⟩
      · exact absurd hpu (hnone u hu)

/-- If a probe was accepted, or the objective descends from one, the step of such a probe is
chosen. -/
theorem Line.Chooses.exists_marked {step : Float} (h : l.Chooses opts probes b step)
    (hmarked : ∃ t ∈ probes, t.Accepted opts l ∨ t.Descends opts l) :
    ∃ t ∈ probes, step = t.step ∧ (t.Accepted opts l ∨ t.Descends opts l) := by
  by_cases hsome : ∃ t ∈ probes, t.Accepted opts l
  · obtain ⟨t, ht, haccepted⟩ := hsome
    obtain ⟨before, after, hprobes⟩ := List.append_of_mem ht
    exact ⟨t, ht, (h.accepted hprobes haccepted).2, Or.inl haccepted⟩
  · have hnone : ∀ t ∈ probes, ¬ t.Accepted opts l := fun t ht haccepted =>
      hsome ⟨t, ht, haccepted⟩
    have hdescends : ∃ t ∈ probes, t.Descends opts l := by
      obtain ⟨t, ht, haccepted | hdescends⟩ := hmarked
      · exact absurd haccepted (hnone t ht)
      · exact ⟨t, ht, hdescends⟩
    obtain ⟨before, t, after, rfl, ht, hafter⟩ := exists_last hdescends
    exact ⟨t, List.mem_append_right _ List.mem_cons_self, h.descending hnone rfl ht hafter,
      Or.inr ht⟩

/-- The objective decreases enough at this step. -/
theorem Line.Chooses.exists_passes {step : Float} (h : l.Chooses opts probes b step)
    (hmarked : ∃ t ∈ probes, t.Accepted opts l ∨ t.Descends opts l) :
    ∃ t ∈ probes, step = t.step ∧ t.Passes opts l := by
  obtain ⟨t, ht, hstep, haccepted | hdescends⟩ := h.exists_marked hmarked
  · exact ⟨t, ht, hstep, haccepted.1⟩
  · exact ⟨t, ht, hstep, hdescends.1⟩

/-- Without a probe that is accepted, a search that descends chooses the last step at which the
objective decreases enough, if the slope there is finite and negative. And whenever a probe was
accepted, or one at which the objective decreases enough still descends, the objective decreases
enough at the step that is chosen. -/
theorem settles_for_last_decrease (hopts : opts.Valid) {x d g : List Float} {slope step : Float}
    (hslope : A.inner g d = some slope) (hneg : slope < 0.0)
    (h : (search A opts o x d g).perform j = (.ok step, j')) :
    ∃ (l : Line Float) (probes : List (Probe Float)) (b : Bracket Float) (j₁ : Journal Float),
      l.origin = x ∧ l.direction = d ∧ l.slope = slope ∧
      (o.value x).perform j = (.ok l.value, j₁) ∧
      l.Probes A opts o (.initial opts.firstStep) probes j₁ b j' ∧
      ((∀ t ∈ probes, ¬ t.Accepted opts l) →
        ∀ before t after, probes = before ++ t :: after → t.Passes opts l →
          (∀ u ∈ after, ¬ u.Passes opts l) → (∃ s ∈ t.slope, s < 0.0) → step = t.step) ∧
      ((∃ t ∈ probes, t.Accepted opts l ∨ t.Descends opts l) →
        ∃ t ∈ probes, step = t.step ∧ t.Passes opts l) := by
  have hdescends : ¬ 0.0 ≤ slope := fun hle =>
    Double.lt_irrefl _ (Double.lt_of_lt_of_le hneg hle)
  obtain ⟨value, j₁, probes, b, hsettles⟩ := exists_settles hopts hslope hdescends h
  refine ⟨⟨x, d, value, slope⟩, probes, b, j₁, rfl, rfl, rfl, hsettles.value, hsettles.probed,
    ?_, hsettles.chooses.exists_passes⟩
  intro hnone before t after hprobes hpasses hafter hslope
  exact hsettles.chooses.descending hnone hprobes ⟨hpasses, hslope⟩
    fun u hu hdescends => hafter u hu hdescends.1

/-- An objective that falls evenly, so that no step meets the second condition. -/
def slide : Problem Float :=
  .ofFunctions (fun x => -x.headD 0.0) (List.map fun _ => -1.0)

/-- On the slide every step is too short. The objective decreases enough at the one that is
chosen. -/
theorem settles_for_last_decrease_slide :
    ∃ (l : Line Float) (step : Float) (probes : List (Probe Float)) (j' : Journal Float),
      (search .laned .standard slide.oracle [0.0] [1.0] [-1.0]).perform {} = (.ok step, j') ∧
      l.origin = [0.0] ∧ l.direction = [1.0] ∧
      ∃ t ∈ probes, step = t.step ∧ t.Passes .standard l := by
  obtain ⟨step, j', h⟩ := Run.exists_perform_of_isOk (j := {})
    (r := search .laned .standard slide.oracle [0.0] [1.0] [-1.0]) (by decide +kernel)
  obtain ⟨⟨_, _, value, _⟩, probes, b, j₁, rfl, rfl, rfl, hvalue, hprobes, -, hdecreases⟩ :=
    settles_for_last_decrease Options.valid_standard inner_downhill (by decide +kernel) h
  refine ⟨_, step, probes, j', h, rfl, rfl, hdecreases ?_⟩
  obtain rfl : -0.0 = value := by
    have hzero : slide.value [0.0] = .ok (-0.0) := by decide +kernel
    exact Except.ok.inj (hzero.symm.trans (slide.perform_value_eq_ok_iff.mp hvalue).1)
  obtain ⟨t, later, rfl, hfirst⟩ := hprobes.exists_head
  have hpoint : Arithmetic.laned.addScaled [0.0] [1.0] t.step = some [0.0 + 1.0 * 1.0] :=
    hfirst ▸ rfl
  obtain ⟨_, _, hprobed⟩ := hprobes.probed_of_mem t List.mem_cons_self
  have hlower : slide.value [0.0 + 1.0 * 1.0] = .ok (-1.0) := by decide +kernel
  have hpasses : t.Passes .standard ⟨[0.0], [1.0], -0.0, -1.0⟩ := by
    refine ⟨-1.0, hprobed.value_eq_some hpoint hlower (by decide +kernel), ?_⟩
    rw [hfirst]
    decide +kernel
  have hgradient : slide.gradient [0.0 + 1.0 * 1.0] = .ok [-1.0] := rfl
  have hslope :=
    hprobed.slope_eq_some hpasses hpoint hgradient inner_downhill (by decide +kernel)
  exact ⟨t, List.mem_cons_self, Or.inr ⟨hpasses, -1.0, hslope, by decide +kernel⟩⟩

/-- On the ledge the objective decreases enough at the first step, where the slope is too large. The
search halves the step until it gives up, and answers with one that it did not try. The objective
does not decrease there. -/
theorem decrease_forgotten :
    ∃ (l : Line Float) (probes : List (Probe Float)) (b : Bracket Float) (step v : Float)
      (point : List Float) (j₁ j' : Journal Float),
      (Options.standard : Options Float).Valid ∧
      l.origin = [0.0] ∧ l.direction = [1.0] ∧
      Arithmetic.laned.inner [-1.0] l.direction = some l.slope ∧ l.slope < 0.0 ∧
      (search .laned .standard ledge.oracle [0.0] [1.0] [-1.0]).perform {} = (.ok step, j') ∧
      (ledge.oracle.value l.origin).perform {} = (.ok l.value, j₁) ∧
      l.Probes .laned .standard ledge.oracle (.initial 1.0) probes j₁ b j' ∧
      (∀ t ∈ probes, ¬ t.Accepted .standard l) ∧ (∃ t ∈ probes, t.Passes .standard l) ∧
      (∀ t ∈ probes, t.Passes .standard l → step ≠ t.step) ∧
      Arithmetic.laned.addScaled l.origin l.direction step = some point ∧
      ledge.value point = .ok v ∧ ¬ l.Decreases .standard step v := by
  have hrun : ((search .laned .standard ledge.oracle [0.0] [1.0] [-1.0]).perform {}).1.toOption.map
      id = some 5.8207660913467407e-11 := by
    decide +kernel
  obtain ⟨step, j', h, hstep⟩ := Run.exists_perform_of_map_eq_some hrun
  obtain rfl : 5.8207660913467407e-11 = step := hstep.symm
  obtain ⟨value, j₁, probes, b, hsettles⟩ :=
    exists_settles Options.valid_standard inner_downhill (by decide +kernel) h
  obtain rfl : 1.0 = value := by
    have hone : ledge.value [0.0] = .ok 1.0 := by decide +kernel
    exact Except.ok.inj (hone.symm.trans (ledge.perform_value_eq_ok_iff.mp hsettles.value).1)
  have hchosen : ledge.value [0.0 + 1.0 * 5.8207660913467407e-11] = .ok 1.0 := by decide +kernel
  have hnot : ¬ Line.Decreases ⟨[0.0], [1.0], 1.0, -1.0⟩ .standard 5.8207660913467407e-11 1.0 := by
    decide +kernel
  have hforgotten : ∀ t ∈ probes, t.Passes .standard ⟨[0.0], [1.0], 1.0, -1.0⟩ →
      5.8207660913467407e-11 ≠ t.step := by
    rintro t ht ⟨v, hv, hdecreases⟩ hstep
    obtain ⟨_, _, hprobed⟩ := hsettles.probed.probed_of_mem t ht
    have hvalue := hprobed.value_eq_some (hstep ▸ rfl) hchosen (by decide +kernel)
    cases hvalue.symm.trans hv
    rw [← hstep] at hdecreases
    exact hnot hdecreases
  refine ⟨⟨[0.0], [1.0], 1.0, -1.0⟩, probes, b, _, 1.0, _, j₁, j', Options.valid_standard, rfl, rfl,
    inner_downhill,
    by decide +kernel, h, hsettles.value, hsettles.probed, ?_, ?_, hforgotten, rfl, hchosen, hnot⟩
  · intro t ht haccepted
    obtain ⟨before, after, hprobes⟩ := List.append_of_mem ht
    exact hforgotten t ht haccepted.1 (hsettles.chooses.accepted hprobes haccepted).2
  · obtain ⟨t, later, hprobes, hfirst⟩ := hsettles.firstStep
    have ht : t ∈ probes := hprobes ▸ List.mem_cons_self
    obtain ⟨_, _, hprobed⟩ := hsettles.probed.probed_of_mem t ht
    have hdropped : ledge.value [0.0 + 1.0 * 1.0] = .ok (-1.0) := by decide +kernel
    have hvalue := hprobed.value_eq_some (hfirst ▸ rfl) hdropped (by decide +kernel)
    refine ⟨t, ht, -1.0, hvalue, ?_⟩
    rw [hfirst]
    decide +kernel

end QuasiNewton.LineSearch
