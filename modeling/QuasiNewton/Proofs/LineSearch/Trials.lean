import QuasiNewton.LineSearch.Search
import QuasiNewton.Proofs.Run

/-!
# The trials of a line search

A search that chooses a step either declines at once, since the direction does not descend, or
tries one step after the other. The relations below keep what the search itself forgets: which
steps were tried, what the functions said there, and the journals in between. A search that answers
went through such a list of trials (`exists_searched`), of which there is at least one and at most
`rounds` many (`Searched.withinRounds`).
-/

namespace QuasiNewton.LineSearch

variable {α : Type}

/-- A step that is tried: where it leads, and the value there if it is finite. -/
structure Trial (α : Type) where
  step : α
  point : List α
  value : Option α

/-- What one search looks at. -/
inductive Search (α : Type) where
  /-- Nothing, for the slope shows that the direction does not descend. -/
  | declined (slope : α)
  /-- The value at the origin of the line, and then the trials. -/
  | sought (line : Line α) (trials : List (Trial α))

variable [Scalar α]

/-- The objective decreases enough at the trial point. -/
def Trial.Passes (t : Trial α) (opts : Options α) (l : Line α) : Prop :=
  ∃ v ∈ t.value, l.Decreases opts t.step v

instance Trial.decidablePasses (t : Trial α) (opts : Options α) (l : Line α) :
    Decidable (t.Passes opts l) :=
  inferInstanceAs (Decidable (∃ v ∈ t.value, l.Decreases opts t.step v))

variable (A : Arithmetic α) (opts : Options α) (o : Oracle α)

/-- A trial with the verdict on it. The slope is looked at only where the trial passes. -/
inductive Line.Tried (l : Line α) (t : Trial α) : Journal α → Verdict → Journal α → Prop where
  | fails {j j' : Journal α}
      (hpoint : A.addScaled l.origin l.direction t.step = some t.point)
      (hvalue : (trialValue o t.point).perform j = (.ok t.value, j'))
      (hpasses : ¬ t.Passes opts l) : Tried l t j .tooLong j'
  | passes {j j₁ j' : Journal α} {slope : Option α}
      (hpoint : A.addScaled l.origin l.direction t.step = some t.point)
      (hvalue : (trialValue o t.point).perform j = (.ok t.value, j₁))
      (hpasses : t.Passes opts l)
      (hslope : (trialSlope A o t.point l.direction).perform j₁ = (.ok slope, j')) :
      Tried l t j (l.judgeSlope opts slope) j'

/-- The trials that refine a bracket, and the step that is chosen after them. -/
inductive Line.Sought (l : Line α) :
    Nat → Bracket α → List (Trial α) → Journal α → α → Journal α → Prop where
  | exhausted (b : Bracket α) (j : Journal α) : Sought l 0 b [] j b.settle j
  | accepted {left : Nat} {b : Bracket α} {t : Trial α} {j j' : Journal α}
      (hstep : t.step = b.step) (htried : l.Tried A opts o t j .accepted j') :
      Sought l (left + 1) b [t] j b.step j'
  | tooSmall {left : Nat} {b : Bracket α} {t : Trial α} {verdict : Verdict} {j j' : Journal α}
      (hstep : t.step = b.step) (htried : l.Tried A opts o t j verdict j')
      (hverdict : verdict ≠ .accepted) (hleast : (b.refine verdict).step < leastStep) :
      Sought l (left + 1) b [t] j (b.refine verdict).settle j'
  | refined {left : Nat} {b : Bracket α} {t : Trial α} {verdict : Verdict}
      {later : List (Trial α)} {step : α} {j j₁ j' : Journal α}
      (hstep : t.step = b.step) (htried : l.Tried A opts o t j verdict j₁)
      (hverdict : verdict ≠ .accepted) (hleast : ¬ (b.refine verdict).step < leastStep)
      (hlater : Sought l left (b.refine verdict) later j₁ step j') :
      Sought l (left + 1) b (t :: later) j step j'

/-- A search from `x` along `d`, where the gradient is `g`, and the step that it chooses. -/
inductive Searched (x d g : List α) : Search α → Journal α → α → Journal α → Prop where
  | declined {slope : α} {j : Journal α} (hslope : A.inner g d = some slope)
      (hdescends : 0.0 ≤ slope) : Searched x d g (.declined slope) j nonDescentStep j
  | sought {slope value step : α} {trials : List (Trial α)} {j j₁ j' : Journal α}
      (hslope : A.inner g d = some slope) (hdescends : ¬ 0.0 ≤ slope)
      (hvalue : (o.value x).perform j = (.ok value, j₁))
      (hsought : Line.Sought A opts o ⟨x, d, value, slope⟩ rounds (Bracket.initial opts.firstStep)
        trials j₁ step j') :
      Searched x d g (.sought ⟨x, d, value, slope⟩ trials) j step j'

variable {A opts o}

/-! ### Every answer comes from trials -/

theorem Line.exists_tried {l : Line α} {step : α} {verdict : Verdict} {j j' : Journal α}
    (h : (l.judge A opts o step).perform j = (.ok verdict, j')) :
    ∃ t : Trial α, t.step = step ∧ l.Tried A opts o t j verdict j' := by
  obtain ⟨point, hpoint, h₁⟩ := Run.perform_ofOption_bind_eq_ok_iff.mp h
  obtain ⟨value, j₁, hvalue, h₂⟩ := Run.perform_bind_eq_ok_iff.mp h₁
  refine ⟨⟨step, point, value⟩, rfl, ?_⟩
  cases value with
  | none =>
    cases h₂
    exact .fails hpoint hvalue (by simp [Trial.Passes])
  | some v =>
    dsimp only at h₂
    by_cases hpasses : l.Decreases opts step v
    · rw [if_pos hpasses] at h₂
      obtain ⟨slope, j₂, hslope, h₃⟩ := Run.perform_bind_eq_ok_iff.mp h₂
      cases h₃
      exact .passes hpoint hvalue ⟨v, rfl, hpasses⟩ hslope
    · rw [if_neg hpasses] at h₂
      cases h₂
      refine .fails hpoint hvalue ?_
      rintro ⟨w, ⟨⟩, hw⟩
      exact hpasses hw

theorem Line.exists_sought {l : Line α} {left : Nat} {b : Bracket α} {step : α}
    {j j' : Journal α} (h : (l.seek A opts o left b).perform j = (.ok step, j')) :
    ∃ trials, l.Sought A opts o left b trials j step j' := by
  induction left generalizing b j with
  | zero =>
    cases h
    exact ⟨[], .exhausted b _⟩
  | succ left ih =>
    rw [seek_succ] at h
    obtain ⟨verdict, j₁, hjudge, h₁⟩ := Run.perform_bind_eq_ok_iff.mp h
    obtain ⟨t, hstep, htried⟩ := exists_tried hjudge
    by_cases hverdict : verdict = .accepted
    · subst hverdict
      cases h₁
      exact ⟨[t], .accepted hstep htried⟩
    · rw [if_neg hverdict] at h₁
      by_cases hleast : (b.refine verdict).step < leastStep
      · rw [if_pos hleast] at h₁
        cases h₁
        exact ⟨[t], .tooSmall hstep htried hverdict hleast⟩
      · rw [if_neg hleast] at h₁
        obtain ⟨later, hlater⟩ := ih h₁
        exact ⟨t :: later, .refined hstep htried hverdict hleast hlater⟩

theorem exists_searched {x d g : List α} {step : α} {j j' : Journal α}
    (h : (search A opts o x d g).perform j = (.ok step, j')) :
    ∃ s, Searched A opts o x d g s j step j' := by
  obtain ⟨slope, hslope, h₁⟩ := Run.perform_ofOption_bind_eq_ok_iff.mp h
  by_cases hdescends : 0.0 ≤ slope
  · rw [if_pos hdescends] at h₁
    cases h₁
    exact ⟨.declined slope, .declined hslope hdescends⟩
  · rw [if_neg hdescends] at h₁
    obtain ⟨value, j₁, hvalue, hseek⟩ := Run.perform_bind_eq_ok_iff.mp h₁
    obtain ⟨trials, hsought⟩ := Line.exists_sought hseek
    exact ⟨.sought ⟨x, d, value, slope⟩ trials, .sought hslope hdescends hvalue hsought⟩

/-! ### The number of trials -/

namespace Search

/-- How often the search asks for the value. -/
def values : Search α → Nat
  | declined _ => 0
  | sought _ trials => 1 + trials.length

/-- How many trials pass, which is how often the search asks for the gradient. -/
def passing (opts : Options α) : Search α → Nat
  | declined _ => 0
  | sought l trials => trials.countP (·.Passes opts l)

/-- A direction that does not descend is declined; along any other one the number of trials is
positive and at most that of the rounds. -/
def WithinRounds : Search α → Prop
  | declined slope => 0.0 ≤ slope
  | sought l trials => ¬ 0.0 ≤ l.slope ∧ 0 < trials.length ∧ trials.length ≤ rounds

theorem WithinRounds.passing_le {s : Search α} (hs : s.WithinRounds) (opts : Options α) :
    s.passing opts ≤ rounds := by
  cases s with
  | declined slope => exact Nat.zero_le _
  | sought l trials => exact Nat.le_trans List.countP_le_length hs.2.2

theorem WithinRounds.values_le {s : Search α} (hs : s.WithinRounds) : s.values ≤ 1 + rounds := by
  cases s with
  | declined slope => exact Nat.zero_le _
  | sought l trials => exact Nat.add_le_add_left hs.2.2 1

end Search

theorem Line.Sought.length_le {l : Line α} {left : Nat} {b : Bracket α}
    {trials : List (Trial α)} {step : α} {j j' : Journal α}
    (h : l.Sought A opts o left b trials j step j') : trials.length ≤ left := by
  induction h with
  | exhausted _ _ => exact Nat.le_refl 0
  | accepted _ _ => exact Nat.le_add_left 1 _
  | tooSmall _ _ _ _ => exact Nat.le_add_left 1 _
  | refined _ _ _ _ _ ih => exact Nat.succ_le_succ ih

theorem Line.Sought.length_pos {l : Line α} {left : Nat} {b : Bracket α}
    {trials : List (Trial α)} {step : α} {j j' : Journal α}
    (h : l.Sought A opts o (left + 1) b trials j step j') : 0 < trials.length := by
  cases h with
  | accepted _ _ => exact Nat.zero_lt_one
  | tooSmall _ _ _ _ => exact Nat.zero_lt_one
  | refined _ _ _ _ _ => exact Nat.succ_pos _

theorem Searched.withinRounds {x d g : List α} {s : Search α} {step : α} {j j' : Journal α}
    (h : Searched A opts o x d g s j step j') : s.WithinRounds := by
  cases h with
  | declined _ hdescends => exact hdescends
  | sought _ hdescends _ hsought => exact ⟨hdescends, hsought.length_pos, hsought.length_le⟩

/-- A search that is declined answers with the step for directions that do not descend, and asks
for no value; any other search asks for one. -/
theorem Searched.declined_or_evaluated {x d g : List α} {s : Search α} {slope step : α}
    {j j' : Journal α} (h : Searched A opts o x d g s j step j')
    (hslope : A.inner g d = some slope) :
    (0.0 ≤ slope ∧ step = nonDescentStep ∧ s.values = 0) ∨ (¬ 0.0 ≤ slope ∧ 0 < s.values) := by
  cases h with
  | declined hslope' hdescends =>
    obtain rfl := Option.some.inj (hslope'.symm.trans hslope)
    exact Or.inl ⟨hdescends, rfl, rfl⟩
  | sought hslope' hdescends _ _ =>
    obtain rfl := Option.some.inj (hslope'.symm.trans hslope)
    exact Or.inr ⟨hdescends, Nat.add_pos_left Nat.zero_lt_one _⟩

end QuasiNewton.LineSearch
