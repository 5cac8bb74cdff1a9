import QuasiNewton.Proofs.Infinite
import QuasiNewton.Proofs.LineSearch.Answers
import QuasiNewton.Proofs.LineSearch.Transport
import QuasiNewton.Proofs.Responder

/-!
# Counted searches

A search may ask the caller's functions directly, or through a checked oracle that counts the
questions and refuses answers that are not admissible. The oracle refuses a gradient for any entry
that is not finite, while a search that asks directly looks only at the slope. In doubles such an
entry shows in the slope, so both searches take the trial for one that is too long, and they agree
throughout (`search_checked`).
-/

namespace QuasiNewton

/-- The journal, with another tally. -/
def Journal.withTally {α : Type} (t : Tally) (j : Journal α) : Journal α :=
  { j with tally := t }

namespace LineSearch

/-! ### Answers and their checks -/

section

variable {α : Type} [Scalar α] {f : Responder α} {n : Nat} {t : Tally}

/-- A value that is not finite is refused by the check, or found to be so by the trial. -/
theorem readValue_admissibleValue (asked : List (Query α)) (x : List α) :
    readValue (f.admissibleValue asked x) = readValue (f.value asked x) := by
  rw [Responder.admissibleValue]
  cases f.value asked x with
  | error fault => rfl
  | ok v =>
    change readValue (checkValue v >>= fun _ => pure v) = _
    by_cases hfinite : Scalar.isFinite v = true
    · rw [checkValue_eq_ok_iff.mpr hfinite]
      rfl
    · rw [checkValue, if_neg hfinite, readValue, if_neg hfinite]
      rfl

theorem perform_trialValue_checked (f : Responder α) (n : Nat) (t : Tally) (x : List α)
    (j : Journal α) :
    (trialValue f.oracle x).perform (j.withTally t) =
      Run.transport (.withTally t) id ((trialValue (f.oracle.checked n) x).perform j) := by
  rw [perform_trialValue (f.perform_value x _), perform_trialValue (f.perform_checked_value n x j),
    readValue_admissibleValue]
  change ((readValue (f.value j.queries x)).mapError Stop.fault, _) = _
  cases readValue (f.value j.queries x) <;> rfl

end

section

variable {A : Arithmetic Float} (hA : A.Standard) {f : Responder Float} {n : Nat}
  {x d : List Float} (hd : d.length = n)
include hA hd

/-- The slope is finite only if the gradient has no entry to refuse. -/
theorem readSlope_admissibleGradient {asked : List (Query Float)}
    (hlength : ∀ g, f.gradient asked x = .ok g → g.length = n) :
    readSlope A d (f.admissibleGradient n asked x) = readSlope A d (f.gradient asked x) := by
  rw [Responder.admissibleGradient]
  rcases hg : f.gradient asked x with fault | g
  · rfl
  · have hgn := hlength g hg
    change readSlope A d (checkGradient n g >>= fun _ => pure g) = _
    rw [checkGradient, if_pos hgn]
    rcases hfirst : firstNonFinite g with _ | ⟨index, a⟩
    · rfl
    · obtain ⟨s, hs⟩ := hA.lawful.exists_inner (hgn.trans hd.symm)
      have hslope : ¬ Scalar.isFinite s = true := by
        intro hfinite
        have hentries := hA.finite_of_inner (hgn.trans hd.symm) hs hfinite
        rw [firstNonFinite_eq_none_iff.mpr hentries] at hfirst
        cases hfirst
      rw [readSlope.eq_1, hs]
      dsimp only
      rw [if_neg hslope]
      rfl

theorem perform_trialSlope_checked {j : Journal Float} (t : Tally)
    (hlength : ∀ g, f.gradient j.queries x = .ok g → g.length = n) :
    (trialSlope A f.oracle x d).perform (j.withTally t) =
      Run.transport (.withTally t) id ((trialSlope A (f.oracle.checked n) x d).perform j) := by
  rw [perform_trialSlope (f.perform_gradient x _),
    perform_trialSlope (f.perform_checked_gradient n x j)]
  rw [readSlope_admissibleGradient hA hd hlength]
  change (readSlope A d (f.gradient j.queries x), _) = _
  cases readSlope A d (f.gradient j.queries x) <;> rfl

end

/-! ### The search -/

/-- Counting does not change a search. Whatever the functions answer at the trials, a search that
asks them directly and one that asks them through a checked oracle put the same questions in the
same order, and end in the same way. -/
theorem search_checked {A : Arithmetic Float} (hA : A.Standard) (opts : Options Float)
    (f : Responder Float) {x d : List Float} (hd : d.length = x.length) (g : List Float)
    (j : Journal Float) (hvalue : ∀ v, f.value j.queries x = .ok v → v.isFinite = true)
    (hgradient : ∀ asked y h, y.length = x.length → f.gradient asked y = .ok h →
      h.length = x.length) :
    ((search A opts (f.oracle.checked x.length) x d g).perform j).1 =
        ((search A opts f.oracle x d g).perform j).1 ∧
      ((search A opts (f.oracle.checked x.length) x d g).perform j).2.entries =
        ((search A opts f.oracle x d g).perform j).2.entries := by
  have hsearch : (search A opts f.oracle x d g).perform (j.withTally j.tally) =
      Run.transport (.withTally j.tally) id
        ((search A opts (f.oracle.checked x.length) x d g).perform j) := by
    refine Run.transport_ofOption_congr_bind rfl fun slope _ => ?_
    split
    · rfl
    · refine Run.transport_bind (F := id) ?_ fun value j₁ _ => ?_
      · rw [f.perform_value, f.perform_checked_value, f.admissibleValue_eq_of_finite hvalue]
        change ((f.value j.queries x).mapError Stop.fault, _) = _
        cases f.value j.queries x <;> rfl
      · refine transport_seek (fun step j₂ => ?_) rounds _ j₁
        refine transport_judge (V := id) Option.map_id_apply.symm (fun _ => Iff.rfl) (fun _ => rfl)
          (fun trial _ => perform_trialValue_checked f x.length j.tally trial j₂) ?_
        intro trial j₃ htrial
        have hlength := hA.length_of_addScaled_eq_some hd htrial
        exact perform_trialSlope_checked hA hd j.tally (hgradient j₃.queries trial · hlength)
  rw [show j.withTally j.tally = j from rfl] at hsearch
  rw [hsearch]
  rcases (search A opts (f.oracle.checked x.length) x d g).perform j with ⟨_ | _, _⟩ <;>
    exact ⟨rfl, rfl⟩

/-- The objective falls in the first coordinate, and its gradient is infinite in the other one. -/
def crevice : Problem Float :=
  .ofFunctions (fun x => -x.headD 0.0) fun _ => [-1.0, 1.0 / 0.0]

/-- Along the first axis of the crevice the infinite entry meets a zero at each trial. -/
theorem search_checked_crevice :
    ((search .laned .standard (crevice.oracle.checked 2) [0.0, 0.0] [1.0, 0.0]
        [-1.0, 0.0]).perform {}).1 =
      ((search .laned .standard crevice.oracle [0.0, 0.0] [1.0, 0.0] [-1.0, 0.0]).perform {}).1 ∧
    ((search .laned .standard (crevice.oracle.checked 2) [0.0, 0.0] [1.0, 0.0]
        [-1.0, 0.0]).perform {}).2.entries =
      ((search .laned .standard crevice.oracle [0.0, 0.0] [1.0, 0.0]
        [-1.0, 0.0]).perform {}).2.entries := by
  have hvalue : ∀ v, crevice.value [0.0, 0.0] = .ok v → v.isFinite = true := by
    rintro v hv
    cases hv
    decide +kernel
  have hgradient : ∀ (asked : List (Query Float)) (y h : List Float), y.length = 2 →
      crevice.gradient y = .ok h → h.length = 2 := by
    rintro asked y h - hh
    cases hh
    rfl
  have hlength : ([0.0, 0.0] : List Float).length = 2 := rfl
  have hsearch := search_checked .laned .standard (.ofProblem crevice) (x := [0.0, 0.0])
    (d := [1.0, 0.0]) rfl [-1.0, 0.0] {} hvalue hgradient
  rwa [Responder.oracle_ofProblem, hlength] at hsearch

end LineSearch

end QuasiNewton
