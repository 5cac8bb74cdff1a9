import QuasiNewton.Proofs.LineSearch.Questions

/-!
# Probes

A trial together with the slope that was found there. In the trials of a search the answers are told
as the search reads them; here they are told as they were given (`ValueAt`, `SlopeAt`). The probes
of a search form a chain (`Line.Probes`): each is made at the step of a bracket, the bracket is
refined by what the probe says, and no probe follows one that is accepted or one after which the
next step is below the least. A search that answers went through such a chain
(`Line.exists_probes`), and its end decides on the answer (`Line.Ends`).
-/

namespace QuasiNewton

variable {α : Type}

/-- Each question is entered once, whether it is answered or not. -/
structure Oracle.Enters (o : Oracle α) : Prop where
  value : ∀ (x : List α) (j : Journal α),
    ((o.value x).perform j).2.queries = j.queries ++ [.value x]
  gradient : ∀ (x : List α) (j : Journal α),
    ((o.gradient x).perform j).2.queries = j.queries ++ [.gradient x]

/-- Functions that are asked directly. -/
theorem Responder.enters_oracle (f : Responder α) : f.oracle.Enters where
  value x j := by rw [f.perform_value, Journal.queries_push_asked]
  gradient x j := by rw [f.perform_gradient, Journal.queries_push_asked]

namespace LineSearch

/-- A step that is tried, and the slope there if it was looked at and is finite. -/
structure Probe (α : Type) extends Trial α where
  slope : Option α

variable [Scalar α]

/-! ### What is found at a probe -/

/-- The question for the value at `x` shows a finite value, or that there is none. -/
inductive ValueAt (o : Oracle α) (x : List α) (j : Journal α) : Option α → Journal α → Prop where
  | finite {v : α} {j' : Journal α} (h : (o.value x).perform j = (.ok v, j'))
      (hfinite : Scalar.isFinite v = true) : ValueAt o x j (some v) j'
  | nonFinite {v : α} {j' : Journal α} (h : (o.value x).perform j = (.ok v, j'))
      (hfinite : Scalar.isFinite v = false) : ValueAt o x j none j'
  | refused {v : α} {j' : Journal α}
      (h : (o.value x).perform j = (.error (.fault (.nonFiniteValue v)), j')) :
      ValueAt o x j none j'

/-- The question for the gradient at `x` shows a finite slope along `d`, or that there is none. -/
inductive SlopeAt (A : Arithmetic α) (o : Oracle α) (x d : List α) (j : Journal α) :
    Option α → Journal α → Prop where
  | finite {g : List α} {s : α} {j' : Journal α} (h : (o.gradient x).perform j = (.ok g, j'))
      (hslope : A.inner g d = some s) (hfinite : Scalar.isFinite s = true) :
      SlopeAt A o x d j (some s) j'
  | nonFinite {g : List α} {s : α} {j' : Journal α} (h : (o.gradient x).perform j = (.ok g, j'))
      (hslope : A.inner g d = some s) (hfinite : Scalar.isFinite s = false) :
      SlopeAt A o x d j none j'
  | refused {index : Nat} {a : α} {reason : String} {j' : Journal α}
      (h : (o.gradient x).perform j =
        (.error (.fault (.invalidGradient index a reason)), j')) : SlopeAt A o x d j none j'

variable {A : Arithmetic α} {opts : Options α} {o : Oracle α} {x d : List α} {j j' : Journal α}

theorem valueAt_of_trialValue {value : Option α}
    (h : (trialValue o x).perform j = (.ok value, j')) : ValueAt o x j value j' := by
  rw [trialValue, Run.perform_bind, Run.perform_attempt] at h
  rcases hvalue : (o.value x).perform j with ⟨(f | _ | _) | v, j₁⟩ <;> rw [hvalue] at h
  · cases f <;> cases h
    exact .refused hvalue
  · cases h
  · cases h
  · cases hfinite : Scalar.isFinite v <;> simp [hfinite] at h <;> obtain ⟨rfl, rfl⟩ := h
    · exact .nonFinite hvalue hfinite
    · exact .finite hvalue hfinite

theorem slopeAt_of_trialSlope {slope : Option α}
    (h : (trialSlope A o x d).perform j = (.ok slope, j')) : SlopeAt A o x d j slope j' := by
  rw [trialSlope, Run.perform_bind, Run.perform_attempt] at h
  rcases hgradient : (o.gradient x).perform j with ⟨(f | _ | _) | g, j₁⟩ <;> rw [hgradient] at h
  · cases f <;> cases h
    exact .refused hgradient
  · cases h
  · cases h
  · dsimp only at h
    obtain ⟨s, hslope, h₁⟩ := Run.perform_ofOption_bind_eq_ok_iff.mp h
    cases hfinite : Scalar.isFinite s <;> simp [hfinite] at h₁ <;> obtain ⟨rfl, rfl⟩ := h₁
    · exact .nonFinite hgradient hslope hfinite
    · exact .finite hgradient hslope hfinite

theorem ValueAt.isFinite {value : Option α} (h : ValueAt o x j value j') :
    ∀ v ∈ value, Scalar.isFinite v = true := by
  cases h with
  | finite _ hfinite => simpa using hfinite
  | nonFinite _ _ => simp
  | refused _ => simp

/-- What the functions of a problem show does not depend on the questions before. -/
theorem ValueAt.eq_some {p : Problem α} {value : Option α} {v : α}
    (h : ValueAt p.oracle x j value j') (hv : p.value x = .ok v)
    (hfinite : Scalar.isFinite v = true) : value = some v := by
  cases h with
  | finite h _ =>
    cases hv.symm.trans (p.perform_value_eq_ok_iff.mp h).1
    rfl
  | nonFinite h hnot =>
    cases hv.symm.trans (p.perform_value_eq_ok_iff.mp h).1
    cases hfinite.symm.trans hnot
  | refused h =>
    rw [p.perform_value, hv] at h
    cases h

theorem SlopeAt.eq_some {p : Problem α} {slope : Option α} {g : List α} {s : α}
    (h : SlopeAt A p.oracle x d j slope j') (hg : p.gradient x = .ok g)
    (hs : A.inner g d = some s) (hfinite : Scalar.isFinite s = true) : slope = some s := by
  cases h with
  | finite h hslope _ =>
    cases hg.symm.trans (p.perform_gradient_eq_ok_iff.mp h).1
    exact hslope.symm.trans hs
  | nonFinite h hslope hnot =>
    cases hg.symm.trans (p.perform_gradient_eq_ok_iff.mp h).1
    cases hs.symm.trans hslope
    cases hfinite.symm.trans hnot
  | refused h =>
    rw [p.perform_gradient, hg] at h
    cases h

theorem ValueAt.queries_eq {value : Option α} (h : ValueAt o x j value j') (ho : o.Enters) :
    j'.queries = j.queries ++ [.value x] := by
  have hqueries := ho.value x j
  cases h with
  | finite h _ => rwa [h] at hqueries
  | nonFinite h _ => rwa [h] at hqueries
  | refused h => rwa [h] at hqueries

theorem SlopeAt.queries_eq {slope : Option α} (h : SlopeAt A o x d j slope j') (ho : o.Enters) :
    j'.queries = j.queries ++ [.gradient x] := by
  have hqueries := ho.gradient x j
  cases h with
  | finite h _ _ => rwa [h] at hqueries
  | nonFinite h _ _ => rwa [h] at hqueries
  | refused h => rwa [h] at hqueries

/-! ### What a probe says -/

/-- The probe meets both conditions. -/
def Probe.Accepted (t : Probe α) (opts : Options α) (l : Line α) : Prop :=
  t.Passes opts l ∧ ∃ s ∈ t.slope, l.Flattens opts s

/-- The objective decreases enough, and still descends. -/
def Probe.Descends (t : Probe α) (opts : Options α) (l : Line α) : Prop :=
  t.Passes opts l ∧ ∃ s ∈ t.slope, s < 0.0

/-- The verdict on the step of a probe. -/
def Line.verdict (l : Line α) (opts : Options α) (t : Probe α) : Verdict :=
  if t.Passes opts l then l.judgeSlope opts t.slope else .tooLong

variable {l : Line α} {t : Probe α}

theorem Line.verdict_eq_accepted_iff : l.verdict opts t = .accepted ↔ t.Accepted opts l := by
  unfold verdict Probe.Accepted
  by_cases hpasses : t.Passes opts l
  · cases hslope : t.slope with
    | none => simp [judgeSlope]
    | some s =>
      by_cases hflattens : l.Flattens opts s <;> by_cases hneg : s < 0.0 <;>
        simp [judgeSlope, hpasses, hflattens, hneg]
  · simp [hpasses]

theorem Line.verdict_eq_tooShort_iff :
    l.verdict opts t = .tooShort ↔ ¬ t.Accepted opts l ∧ t.Descends opts l := by
  unfold verdict Probe.Accepted Probe.Descends
  by_cases hpasses : t.Passes opts l
  · cases hslope : t.slope with
    | none => simp [judgeSlope]
    | some s =>
      by_cases hflattens : l.Flattens opts s <;> by_cases hneg : s < 0.0 <;>
        simp [judgeSlope, hpasses, hflattens, hneg]
  · simp [hpasses]

theorem Line.verdict_eq_tooLong (haccepted : ¬ t.Accepted opts l)
    (hdescends : ¬ t.Descends opts l) : l.verdict opts t = .tooLong := by
  cases h : l.verdict opts t with
  | accepted => exact absurd (verdict_eq_accepted_iff.mp h) haccepted
  | tooShort => exact absurd (verdict_eq_tooShort_iff.mp h).2 hdescends
  | tooLong => rfl

/-! ### The probes of a search -/

variable (A opts o) in
/-- A probe as it was made. The slope is looked at only where the objective decreases enough. -/
inductive Line.Probed (l : Line α) (t : Probe α) (j : Journal α) : Journal α → Prop where
  | fails {j' : Journal α} (hpoint : A.addScaled l.origin l.direction t.step = some t.point)
      (hvalue : ValueAt o t.point j t.value j') (hpasses : ¬ t.Passes opts l)
      (hslope : t.slope = none) : Probed l t j j'
  | passes {j₁ j' : Journal α} (hpoint : A.addScaled l.origin l.direction t.step = some t.point)
      (hvalue : ValueAt o t.point j t.value j₁) (hpasses : t.Passes opts l)
      (hslope : SlopeAt A o t.point l.direction j₁ t.slope j') : Probed l t j j'

theorem Line.Probed.isFinite_value (h : l.Probed A opts o t j j') :
    ∀ v ∈ t.value, Scalar.isFinite v = true := by
  cases h with
  | fails _ hvalue _ _ => exact hvalue.isFinite
  | passes _ hvalue _ _ => exact hvalue.isFinite

/-- The value at a probe, where the functions are those of a problem. -/
theorem Line.Probed.value_eq_some {p : Problem α} {v : α} {x : List α}
    (h : l.Probed A opts p.oracle t j j')
    (hpoint : A.addScaled l.origin l.direction t.step = some x) (hv : p.value x = .ok v)
    (hfinite : Scalar.isFinite v = true) : t.value = some v := by
  cases h with
  | fails hpoint' hvalue _ _ =>
    cases hpoint.symm.trans hpoint'
    exact hvalue.eq_some hv hfinite
  | passes hpoint' hvalue _ _ =>
    cases hpoint.symm.trans hpoint'
    exact hvalue.eq_some hv hfinite

theorem Line.Probed.slope_eq_some {p : Problem α} {x g : List α} {s : α}
    (h : l.Probed A opts p.oracle t j j') (hpasses : t.Passes opts l)
    (hpoint : A.addScaled l.origin l.direction t.step = some x) (hg : p.gradient x = .ok g)
    (hs : A.inner g l.direction = some s) (hfinite : Scalar.isFinite s = true) :
    t.slope = some s := by
  cases h with
  | fails _ _ hnot _ => exact absurd hpasses hnot
  | passes hpoint' _ _ hslope =>
    cases hpoint.symm.trans hpoint'
    exact hslope.eq_some hg hs hfinite

/-- A probe asks what its trial asks. -/
theorem Line.Probed.queries_eq (h : l.Probed A opts o t j j') (ho : o.Enters) :
    j'.queries = j.queries ++ t.queries opts l := by
  cases h with
  | fails _ hvalue hpasses _ => rw [Trial.queries, if_neg hpasses, hvalue.queries_eq ho]
  | passes _ hvalue hpasses hslope =>
    rw [Trial.queries, if_pos hpasses, hslope.queries_eq ho, hvalue.queries_eq ho,
      List.append_assoc, List.singleton_append]

theorem Line.Tried.exists_probe {t : Trial α} {verdict : Verdict}
    (h : l.Tried A opts o t j verdict j') :
    ∃ p : Probe α, p.toTrial = t ∧ l.Probed A opts o p j j' ∧ l.verdict opts p = verdict := by
  cases h with
  | fails hpoint hvalue hpasses =>
    exact ⟨⟨t, none⟩, rfl, .fails hpoint (valueAt_of_trialValue hvalue) hpasses rfl,
      if_neg hpasses⟩
  | passes hpoint hvalue hpasses hslope =>
    exact ⟨⟨t, _⟩, rfl, .passes hpoint (valueAt_of_trialValue hvalue) hpasses
      (slopeAt_of_trialSlope hslope), if_pos hpasses⟩

variable (A opts o) in
/-- One probe after the other, from a bracket `b` to the bracket in which the last one leaves the
search. Another probe follows only if no step was accepted and the next one is not too small. -/
inductive Line.Probes (l : Line α) :
    Bracket α → List (Probe α) → Journal α → Bracket α → Journal α → Prop where
  | last {b : Bracket α} {t : Probe α} {j j' : Journal α} (hstep : t.step = b.step)
      (hprobed : l.Probed A opts o t j j') : Probes l b [t] j (b.refine (l.verdict opts t)) j'
  | more {b b' : Bracket α} {t : Probe α} {later : List (Probe α)} {j j₁ j' : Journal α}
      (hstep : t.step = b.step) (hprobed : l.Probed A opts o t j j₁)
      (haccepted : ¬ t.Accepted opts l)
      (hleast : ¬ (b.refine (l.verdict opts t)).step < leastStep)
      (hlater : Probes l (b.refine (l.verdict opts t)) later j₁ b' j') :
      Probes l b (t :: later) j b' j'

/-- How a search ends after its last probe: with the step of this probe, or, once the rounds are
spent or the next step is too small, with the step to settle for. -/
inductive Line.Ends (l : Line α) (opts : Options α) (left : Nat) (probes : List (Probe α))
    (b : Bracket α) (step : α) : Prop where
  | accepted {t : Probe α} (hlast : probes.getLast? = some t) (haccepted : t.Accepted opts l)
      (hstep : step = t.step) : Ends l opts left probes b step
  | settled {t : Probe α} (hlast : probes.getLast? = some t) (haccepted : ¬ t.Accepted opts l)
      (hstep : step = b.settle) (hstops : probes.length = left ∨ b.step < leastStep) :
      Ends l opts left probes b step

theorem Line.Ends.cons {left : Nat} {probes : List (Probe α)} {b : Bracket α} {step : α}
    (h : l.Ends opts left probes b step) (t : Probe α) :
    l.Ends opts (left + 1) (t :: probes) b step := by
  have hgetLast {u : Probe α} (hlast : probes.getLast? = some u) :
      (t :: probes).getLast? = some u := by
    rw [List.getLast?_cons, hlast]
    rfl
  cases h with
  | accepted hlast haccepted hstep => exact .accepted (hgetLast hlast) haccepted hstep
  | settled hlast haccepted hstep hstops =>
    exact .settled (hgetLast hlast) haccepted hstep
      (hstops.imp_left fun hlength => congrArg (· + 1) hlength)

/-- The first probe of a search, and what comes after it. -/
theorem Line.exists_probed {left : Nat} {b : Bracket α} {step : α}
    (h : (l.seek A opts o (left + 1) b).perform j = (.ok step, j')) :
    ∃ (t : Probe α) (j₁ : Journal α), t.step = b.step ∧ l.Probed A opts o t j j₁ ∧
      (t.Accepted opts l ∧ step = t.step ∧ j' = j₁ ∨
        ¬ t.Accepted opts l ∧ (b.refine (l.verdict opts t)).step < leastStep ∧
          step = (b.refine (l.verdict opts t)).settle ∧ j' = j₁ ∨
        ¬ t.Accepted opts l ∧ ¬ (b.refine (l.verdict opts t)).step < leastStep ∧
          (l.seek A opts o left (b.refine (l.verdict opts t))).perform j₁ = (.ok step, j')) := by
  rw [seek_succ] at h
  obtain ⟨verdict, j₁, hjudge, h₁⟩ := Run.perform_bind_eq_ok_iff.mp h
  obtain ⟨_, hstep, htried⟩ := exists_tried hjudge
  obtain ⟨t, rfl, hprobed, rfl⟩ := htried.exists_probe
  refine ⟨t, j₁, hstep, hprobed, ?_⟩
  rw [← verdict_eq_accepted_iff]
  by_cases haccepted : l.verdict opts t = .accepted
  · rw [if_pos haccepted] at h₁
    cases h₁
    exact Or.inl ⟨haccepted, hstep.symm, rfl⟩
  · rw [if_neg haccepted] at h₁
    by_cases hleast : (b.refine (l.verdict opts t)).step < leastStep
    · rw [if_pos hleast] at h₁
      cases h₁
      exact Or.inr (Or.inl ⟨haccepted, hleast, rfl, rfl⟩)
    · rw [if_neg hleast] at h₁
      exact Or.inr (Or.inr ⟨haccepted, hleast, h₁⟩)

/-- A search that answers went through a chain of probes, which is not longer than its rounds. -/
theorem Line.exists_probes {left : Nat} {b : Bracket α} {step : α}
    (h : (l.seek A opts o (left + 1) b).perform j = (.ok step, j')) :
    ∃ probes b', l.Probes A opts o b probes j b' j' ∧ probes.length ≤ left + 1 ∧
      l.Ends opts (left + 1) probes b' step := by
  induction left generalizing b j with
  | zero =>
    obtain ⟨t, j₁, hstep, hprobed, ⟨haccepted, rfl, rfl⟩ | ⟨haccepted, hleast, rfl, rfl⟩ |
      ⟨haccepted, -, hrest⟩⟩ := exists_probed h
    · exact ⟨[t], _, .last hstep hprobed, Nat.le_refl 1, .accepted rfl haccepted rfl⟩
    · exact ⟨[t], _, .last hstep hprobed, Nat.le_refl 1, .settled rfl haccepted rfl (Or.inr hleast)⟩
    · cases hrest
      exact ⟨[t], _, .last hstep hprobed, Nat.le_refl 1, .settled rfl haccepted rfl (Or.inl rfl)⟩
  | succ left ih =>
    obtain ⟨t, j₁, hstep, hprobed, ⟨haccepted, rfl, rfl⟩ | ⟨haccepted, hleast, rfl, rfl⟩ |
      ⟨haccepted, hleast, hrest⟩⟩ := exists_probed h
    · exact ⟨[t], _, .last hstep hprobed, by simp, .accepted rfl haccepted rfl⟩
    · exact ⟨[t], _, .last hstep hprobed, by simp, .settled rfl haccepted rfl (Or.inr hleast)⟩
    · obtain ⟨later, b', hlater, hlength, hends⟩ := ih hrest
      exact ⟨t :: later, b', .more hstep hprobed haccepted hleast hlater,
        Nat.succ_le_succ hlength, hends.cons t⟩

/-- Along a direction whose slope is not positive or zero, a search that answers has the value at
the origin and went through a chain of probes from there. -/
theorem exists_probes_of_search {x d g : List α} {slope step : α}
    (hslope : A.inner g d = some slope) (hdescends : ¬ 0.0 ≤ slope)
    (h : (search A opts o x d g).perform j = (.ok step, j')) :
    ∃ value j₁ probes b', (o.value x).perform j = (.ok value, j₁) ∧
      Line.Probes A opts o ⟨x, d, value, slope⟩ (.initial opts.firstStep) probes j₁ b' j' ∧
      probes.length ≤ rounds ∧ Line.Ends ⟨x, d, value, slope⟩ opts rounds probes b' step := by
  obtain ⟨slope', hslope', h₁⟩ := Run.perform_ofOption_bind_eq_ok_iff.mp h
  cases hslope.symm.trans hslope'
  rw [if_neg hdescends] at h₁
  obtain ⟨value, j₁, hvalue, hseek⟩ := Run.perform_bind_eq_ok_iff.mp h₁
  obtain ⟨probes, b', hprobes, hlength, hends⟩ := Line.exists_probes hseek
  exact ⟨value, j₁, probes, b', hvalue, hprobes, hlength, hends⟩

/-! ### What a chain of probes tells -/

namespace Line.Probes

variable {b b' : Bracket α} {probes before after : List (Probe α)}

theorem length_pos (h : l.Probes A opts o b probes j b' j') : 0 < probes.length := by
  cases h <;> exact Nat.zero_lt_succ _

theorem probed_of_mem (h : l.Probes A opts o b probes j b' j') :
    ∀ t ∈ probes, ∃ j₁ j₂, l.Probed A opts o t j₁ j₂ := by
  induction h with
  | last _ hprobed => simpa using ⟨_, _, hprobed⟩
  | more _ hprobed _ _ _ ih => exact List.forall_mem_cons.mpr ⟨⟨_, _, hprobed⟩, ih⟩

/-- A probe that is accepted is the last one. -/
theorem eq_nil_of_accepted (h : l.Probes A opts o b (before ++ t :: after) j b' j')
    (haccepted : t.Accepted opts l) : after = [] := by
  induction before generalizing b j with
  | nil =>
    cases h with
    | last => rfl
    | more _ _ hnot _ _ => exact absurd haccepted hnot
  | cons u before ih =>
    cases before <;> cases h with
    | more _ _ _ _ hlater => exact ih hlater

/-- The first step is that of the bracket. -/
theorem exists_head (h : l.Probes A opts o b probes j b' j') :
    ∃ t later, probes = t :: later ∧ t.step = b.step := by
  cases h with
  | last hstep _ => exact ⟨_, _, rfl, hstep⟩
  | more hstep _ _ _ _ => exact ⟨_, _, rfl, hstep⟩

/-- No probe that descends means that the lower end stays. -/
theorem lower_eq (h : l.Probes A opts o b probes j b' j')
    (hdescends : ∀ t ∈ probes, ¬ t.Descends opts l) : b'.lower = b.lower := by
  have hrefine {b : Bracket α} {t : Probe α} (ht : ¬ t.Descends opts l) :
      (b.refine (l.verdict opts t)).lower = b.lower := by
    cases hverdict : l.verdict opts t with
    | accepted => rfl
    | tooShort => exact absurd (verdict_eq_tooShort_iff.mp hverdict).2 ht
    | tooLong => rfl
  induction h with
  | last _ _ => exact hrefine (hdescends _ List.mem_cons_self)
  | more _ _ _ _ _ ih =>
    obtain ⟨ht, hlater⟩ := List.forall_mem_cons.mp hdescends
    exact (ih hlater).trans (hrefine ht)

/-- The lower end is the step of the last probe that descends. -/
theorem lower_eq_step (h : l.Probes A opts o b (before ++ t :: after) j b' j')
    (haccepted : ¬ t.Accepted opts l) (ht : t.Descends opts l)
    (hafter : ∀ u ∈ after, ¬ u.Descends opts l) : b'.lower = t.step := by
  have hverdict : l.verdict opts t = .tooShort := verdict_eq_tooShort_iff.mpr ⟨haccepted, ht⟩
  induction before generalizing b j with
  | nil =>
    cases h with
    | last hstep _ =>
      rw [hverdict, hstep]
      rfl
    | more hstep _ _ _ hlater =>
      rw [hlater.lower_eq hafter, hverdict, hstep]
      rfl
  | cons u before ih =>
    cases before <;> cases h with
    | more _ _ _ _ hlater => exact ih hlater

/-- The questions of a chain of probes. -/
theorem queries_eq (h : l.Probes A opts o b probes j b' j') (ho : o.Enters) :
    j'.queries = j.queries ++ probes.flatMap (·.queries opts l) := by
  induction h with
  | last _ hprobed => simp [hprobed.queries_eq ho]
  | more _ hprobed _ _ _ ih => simp [ih, hprobed.queries_eq ho]

end Line.Probes

end LineSearch

end QuasiNewton
