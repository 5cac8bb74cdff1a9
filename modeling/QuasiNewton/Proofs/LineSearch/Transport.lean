import QuasiNewton.LineSearch.Search
import QuasiNewton.Proofs.Transport

/-!
# Line searches that are images of line searches

If what a trial asks for in one search is the image of what it asks for in another one, and both
find the same values and slopes, the verdicts are the same, and so is all that follows from them.
-/

namespace QuasiNewton.LineSearch

variable {α : Type} [Scalar α] {A A' : Arithmetic α} {opts : Options α} {o o' : Oracle α}
  {φ : Journal α → Journal α} {l l' : Line α}

/-- A trial whose questions have images. The values and the slopes may be images, too, as long as
they are judged alike. -/
theorem transport_judge_map {F G : α → α} {V : List α → List α} {step : α} {j : Journal α}
    (hpoint : A'.addScaled l'.origin l'.direction step =
      (A.addScaled l.origin l.direction step).map V)
    (hdecreases : ∀ v, l'.Decreases opts step (F v) ↔ l.Decreases opts step v)
    (hslopes : ∀ s, l'.judgeSlope opts (s.map G) = l.judgeSlope opts s)
    (hvalue : ∀ trial, A.addScaled l.origin l.direction step = some trial →
      (trialValue o' (V trial)).perform (φ j) =
        Run.transport φ (Option.map F) ((trialValue o trial).perform j))
    (hslope : ∀ trial j₁, A.addScaled l.origin l.direction step = some trial →
      (trialSlope A' o' (V trial) l'.direction).perform (φ j₁) =
        Run.transport φ (Option.map G) ((trialSlope A o trial l.direction).perform j₁)) :
    (l'.judge A' opts o' step).perform (φ j) =
      Run.transport φ id ((l.judge A opts o step).perform j) := by
  refine Run.transport_ofOption_bind hpoint fun trial htrial => ?_
  refine Run.transport_bind (hvalue trial htrial) ?_
  rintro (_ | value) j₁ -
  · rfl
  · dsimp only [Option.map_some]
    simp only [hdecreases]
    split
    · exact Run.transport_bind (hslope trial j₁ htrial) fun s _ _ => by rw [hslopes]; rfl
    · rfl

/-- A trial whose questions have images, along lines on which the same values and slopes are
judged alike. -/
theorem transport_judge {V : List α → List α} {step : α} {j : Journal α}
    (hpoint : A'.addScaled l'.origin l'.direction step =
      (A.addScaled l.origin l.direction step).map V)
    (hdecreases : ∀ v, l'.Decreases opts step v ↔ l.Decreases opts step v)
    (hslopes : ∀ s, l'.judgeSlope opts s = l.judgeSlope opts s)
    (hvalue : ∀ trial, A.addScaled l.origin l.direction step = some trial →
      (trialValue o' (V trial)).perform (φ j) =
        Run.transport φ id ((trialValue o trial).perform j))
    (hslope : ∀ trial j₁, A.addScaled l.origin l.direction step = some trial →
      (trialSlope A' o' (V trial) l'.direction).perform (φ j₁) =
        Run.transport φ id ((trialSlope A o trial l.direction).perform j₁)) :
    (l'.judge A' opts o' step).perform (φ j) =
      Run.transport φ id ((l.judge A opts o step).perform j) := by
  rw [← Option.map_id] at hvalue hslope
  exact transport_judge_map hpoint hdecreases (fun s => by rw [Option.map_id, id, hslopes]) hvalue
    hslope

/-- If each trial has an image, the search has. -/
theorem transport_seek
    (hjudge : ∀ step j, (l'.judge A' opts o' step).perform (φ j) =
      Run.transport φ id ((l.judge A opts o step).perform j))
    (left : Nat) (b : Bracket α) (j : Journal α) :
    (l'.seek A' opts o' left b).perform (φ j) =
      Run.transport φ id ((l.seek A opts o left b).perform j) := by
  induction left generalizing b j with
  | zero => rfl
  | succ left ih =>
    rw [Line.seek_succ, Line.seek_succ]
    refine Run.transport_bind (hjudge b.step j) fun verdict j₁ _ => ?_
    dsimp only [id]
    split
    · rfl
    · split
      · rfl
      · exact ih _ _

end QuasiNewton.LineSearch
