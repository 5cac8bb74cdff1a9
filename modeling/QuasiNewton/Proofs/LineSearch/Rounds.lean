import QuasiNewton.LineSearch.Search
import QuasiNewton.Proofs.Run

/-!
# The rounds of a search

A search passes through brackets: the first one knows nothing of any step, and a trial that is not
accepted leaves a refined one, unless the next step is too small. From each round the search goes on
as if it had begun there (`Round.perform_eq`), so what a step preserves holds in every round. A
passage keeps the brackets of the rounds before as well, one for each trial that was made
(`Passage.length_past_add`).
-/

namespace QuasiNewton.LineSearch

variable {α : Type} [Scalar α]

theorem Line.perform_seek_of_accepted {A : Arithmetic α} {opts : Options α} {o : Oracle α}
    {l : Line α} {b : Bracket α} {j j' : Journal α}
    (h : (l.judge A opts o b.step).perform j = (.ok .accepted, j')) (left : Nat) :
    (l.seek A opts o (left + 1) b).perform j = (.ok b.step, j') := by
  rw [seek_succ]
  refine Run.perform_bind_eq_ok_iff.mpr ⟨.accepted, j', h, ?_⟩
  rw [if_pos rfl, Run.perform_pure]

/-- A search from `x` along `d`, where the gradient is `g`, gets to the bracket `b` with `left`
trials left. -/
inductive Round (A : Arithmetic α) (opts : Options α) (o : Oracle α) (x d g : List α)
    (j : Journal α) : Line α → Nat → Bracket α → Journal α → Prop where
  | first {slope value : α} {j₁ : Journal α} (hslope : A.inner g d = some slope)
      (hdescends : ¬ 0.0 ≤ slope) (hvalue : (o.value x).perform j = (.ok value, j₁)) :
      Round A opts o x d g j ⟨x, d, value, slope⟩ rounds (.initial opts.firstStep) j₁
  | next {l : Line α} {left : Nat} {b : Bracket α} {verdict : Verdict} {j₁ j₂ : Journal α}
      (hround : Round A opts o x d g j l (left + 1) b j₁)
      (hjudge : (l.judge A opts o b.step).perform j₁ = (.ok verdict, j₂))
      (hverdict : verdict ≠ .accepted) (hleast : ¬ (b.refine verdict).step < leastStep) :
      Round A opts o x d g j l left (b.refine verdict) j₂

/-- What is left to do in a round decides on the whole search. -/
theorem Round.perform_eq {A : Arithmetic α} {opts : Options α} {o : Oracle α} {x d g : List α}
    {j j₁ : Journal α} {l : Line α} {left : Nat} {b : Bracket α}
    (h : Round A opts o x d g j l left b j₁) :
    (search A opts o x d g).perform j = (l.seek A opts o left b).perform j₁ := by
  induction h with
  | @first slope value j₁ hslope hdescends hvalue =>
    rw [search, hslope]
    change (if 0.0 ≤ slope then _ else _ : Run α α).perform j = _
    rw [if_neg hdescends, Run.perform_bind, hvalue]
  | next _ hjudge hverdict hleast ih =>
    rw [ih, Line.seek_succ, Run.perform_bind, hjudge]
    dsimp only
    rw [if_neg hverdict, if_neg hleast]

/-- A search from `x` along `d`, where the gradient is `g`, tries the steps of the brackets `past`,
one after the other, and gets to the bracket `b` with `left` trials left. -/
inductive Passage (A : Arithmetic α) (opts : Options α) (o : Oracle α) (x d g : List α)
    (j : Journal α) : Line α → List (Bracket α) → Nat → Bracket α → Journal α → Prop where
  | first {slope value : α} {j₁ : Journal α} (hslope : A.inner g d = some slope)
      (hdescends : ¬ 0.0 ≤ slope) (hvalue : (o.value x).perform j = (.ok value, j₁)) :
      Passage A opts o x d g j ⟨x, d, value, slope⟩ [] rounds (.initial opts.firstStep) j₁
  | next {l : Line α} {past : List (Bracket α)} {left : Nat} {b : Bracket α} {verdict : Verdict}
      {j₁ j₂ : Journal α} (hpassage : Passage A opts o x d g j l past (left + 1) b j₁)
      (hjudge : (l.judge A opts o b.step).perform j₁ = (.ok verdict, j₂))
      (hverdict : verdict ≠ .accepted) (hleast : ¬ (b.refine verdict).step < leastStep) :
      Passage A opts o x d g j l (past ++ [b]) left (b.refine verdict) j₂

section

variable {A : Arithmetic α} {opts : Options α} {o : Oracle α} {x d g : List α} {j j₁ : Journal α}
  {l : Line α} {past : List (Bracket α)} {left : Nat} {b : Bracket α}

theorem Passage.round (h : Passage A opts o x d g j l past left b j₁) :
    Round A opts o x d g j l left b j₁ := by
  induction h with
  | first hslope hdescends hvalue => exact .first hslope hdescends hvalue
  | next _ hjudge hverdict hleast ih => exact ih.next hjudge hverdict hleast

theorem Passage.length_past_add (h : Passage A opts o x d g j l past left b j₁) :
    past.length + left = rounds := by
  induction h with
  | first _ _ _ => exact Nat.zero_add rounds
  | next _ _ _ _ ih =>
    rw [List.length_append, List.length_singleton]
    omega

end

end QuasiNewton.LineSearch
