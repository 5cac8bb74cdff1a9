import QuasiNewton.Proofs.Course
import QuasiNewton.Proofs.Double
import QuasiNewton.Proofs.Preservation

/-!
# What an iteration makes of its slope

The slope along the direction of a state decides how the iteration from there begins. In doubles
there are three cases (`Lbfgs.slope_heeded`). Where the slope is negative, the iteration searches.
Where it is not, the iteration warns, takes a fixed small step and does not ask for the objective.
Where it is undefined, since numbers overflowed in the recursion, the iteration searches without a
warning. No trial of such a search can pass, so its first step is halved until the search gives up.
-/

namespace QuasiNewton

/-! ### Searches along an undefined slope -/

namespace LineSearch

/-- The step that follows one that was too long, while no step was too short. -/
def halve (step : Float) : Float :=
  0.5 * (0.0 + step)

variable {A : Arithmetic Float} {opts : Options Float} {o : Oracle Float} {l : Line Float}
  {j j' : Journal Float}

theorem Line.not_decreases (hslope : l.slope.isNaN = true) (opts : Options Float)
    (step value : Float) : ¬ l.Decreases opts step value :=
  Double.not_le_of_isNaN (Double.isNaN_add (Double.isNaN_mul hslope))

theorem Line.Tried.eq_tooLong {t : Trial Float} {verdict : Verdict}
    (h : l.Tried A opts o t j verdict j') (hslope : l.slope.isNaN = true) :
    verdict = .tooLong := by
  cases h with
  | fails _ _ _ => rfl
  | passes _ _ hpasses _ =>
    obtain ⟨v, -, hdecreases⟩ := hpasses
    exact absurd hdecreases (l.not_decreases hslope opts t.step v)

/-- No verdict but one is ever given, and the bracket is refined accordingly. -/
theorem Line.Sought.exists_eq_halve {left : Nat} {b : Bracket Float}
    {trials : List (Trial Float)} {step : Float} (h : l.Sought A opts o left b trials j step j')
    (hslope : l.slope.isNaN = true) (hlower : b.lower = 0.0) :
    ∃ k ≤ left, step = halve^[k] b.step := by
  have hsettle {b : Bracket Float} (hlower : b.lower = 0.0) : b.settle = b.step := by
    rw [Bracket.settle, hlower]
    exact if_neg (by decide +kernel)
  have hstep {b : Bracket Float} (hlower : b.lower = 0.0) : b.shorten.step = halve b.step := by
    rw [Bracket.shorten, hlower]
    rfl
  induction h with
  | exhausted b _ => exact ⟨0, Nat.zero_le _, hsettle hlower⟩
  | accepted _ htried => cases htried.eq_tooLong hslope
  | @tooSmall left b _ _ _ _ _ htried _ _ =>
    obtain rfl := htried.eq_tooLong hslope
    exact ⟨1, Nat.le_add_left 1 left, (hsettle (b := b.shorten) hlower).trans (hstep hlower)⟩
  | refined _ htried _ _ _ ih =>
    obtain rfl := htried.eq_tooLong hslope
    obtain ⟨k, hk, rfl⟩ := ih hlower
    exact ⟨k + 1, Nat.succ_le_succ hk, congrArg halve^[k] (hstep hlower)⟩

/-- A search along an undefined slope chooses its first step, halved as often as there were trials
at most. -/
theorem exists_eq_halve_of_search {x d g : List Float} {slope step : Float}
    (hslope : A.inner g d = some slope) (hnan : slope.isNaN = true)
    (h : (search A opts o x d g).perform j = (.ok step, j')) :
    ∃ k ≤ rounds, step = halve^[k] opts.firstStep := by
  obtain ⟨s, hsearched⟩ := exists_searched h
  cases hsearched with
  | declined hslope' hle =>
    cases hslope.symm.trans hslope'
    exact absurd hle (Double.not_le_of_isNaN hnan)
  | sought hslope' _ _ hsought =>
    cases hslope.symm.trans hslope'
    exact hsought.exists_eq_halve hnan rfl

end LineSearch

/-! ### Journals of an iteration -/

section

variable {α : Type}

namespace Journal

/-- The records `rs` were made since `j`, and after them none but those of the least severity. -/
def Notes (j : Journal α) (rs : List (Record α)) (j' : Journal α) : Prop :=
  ∃ later, j'.records = j.records ++ rs ++ later ∧ ∀ r ∈ later, r.severity = .debug

/-- Since `j` the objective was asked for at `x`, before anything else, and there was no warning. -/
structure Searching (j : Journal α) (x : List α) (j' : Journal α) : Prop where
  asks : j.queries ++ [.value x] <+: j'.queries
  notes : j.Notes [] j'

/-- Since `j` there was the record `r`, and nothing was asked for but the gradient at `x`. -/
structure Declining (j : Journal α) (r : Record α) (x : List α) (j' : Journal α) : Prop where
  asks : j'.queries = j.queries ++ [.gradient x]
  notes : j.Notes [r] j'

variable {j j₁ j₂ : Journal α} {rs : List (Record α)} {x : List α}

theorem Notes.of_eq (h : j₁.records = j.records ++ rs) : j.Notes rs j₁ :=
  ⟨[], h.trans (List.append_nil _).symm, List.forall_mem_nil _⟩

theorem Notes.note (h : j.Notes rs j₁) {r : Record α} (hr : r.severity = .debug) :
    j.Notes rs (j₁.push (.noted r)) := by
  obtain ⟨later, hrecords, hlater⟩ := h
  refine ⟨later ++ [r], ?_, List.forall_mem_append.mpr ⟨hlater, List.forall_mem_singleton.mpr hr⟩⟩
  rw [records_push_noted, hrecords, List.append_assoc]

theorem Searching.begin (h : j₁.queries = j.queries ++ [.value x] ∧ j₁.records = j.records) :
    j.Searching x j₁ :=
  ⟨h.1 ▸ List.prefix_rfl, .of_eq (h.2.trans (List.append_nil _).symm)⟩

theorem Searching.enter {q : Query α} (hj₁ : j.Searching x j₁)
    (h : j₂.queries = j₁.queries ++ [q] ∧ j₂.records = j₁.records) : j.Searching x j₂ where
  asks := h.1 ▸ hj₁.asks.trans (List.prefix_append _ _)
  notes := by
    obtain ⟨later, hrecords, hlater⟩ := hj₁.notes
    exact ⟨later, h.2.trans hrecords, hlater⟩

theorem Searching.note (h : j.Searching x j₁) {r : Record α} (hr : r.severity = .debug) :
    j.Searching x (j₁.push (.noted r)) :=
  ⟨(queries_push_noted j₁ r).symm ▸ h.asks, h.notes.note hr⟩

end Journal

end

/-! ### Iterations -/

namespace Lbfgs

section

variable {α : Type} [Scalar α]

/-- The iteration warns, moves by the fixed step and asks for the gradient there, and for nothing
else. -/
def State.Declines (A : Arithmetic α) (opts : LineSearch.Options α) (o : Oracle α) (s : State α)
    (j : Journal α) (d : List α) (slope : α) : Prop :=
  ∃ point, A.addScaled s.point d 1e-8 = some point ∧
    j.Declining (.nonDescent name s.iteration slope) point ((s.advance A opts o).perform j).2 ∧
    ∀ s' step j', (s.advance A opts o).perform j = (.ok (s', step), j') →
      s'.point = point ∧ step = 1e-8

/-- The iteration asks for the objective where it is, and it makes no warning. -/
def State.Searches (A : Arithmetic α) (opts : LineSearch.Options α) (o : Oracle α) (s : State α)
    (j : Journal α) : Prop :=
  j.Searching s.point ((s.advance A opts o).perform j).2

variable {A : Arithmetic α} {n : Nat} {s : State α} {d : List α} {slope : α}

section

variable (hA : A.Lawful) (hn : 0 < n) (hs : s.Shaped A n) (hd : s.direction A = some d)
  (hslope : A.inner s.gradient d = some slope)
include hA hn hs hd hslope

theorem State.declines_of_le (hle : 0.0 ≤ slope) (opts : LineSearch.Options α) (f : Responder α)
    (j : Journal α) : s.Declines A opts (f.oracle.checked n) j d slope := by
  let warning : Record α := .nonDescent name s.iteration slope
  obtain ⟨point, hpoint, -⟩ := hA.exists_addScaled hn hs.length_point
    (hs.length_direction hA hn hd) (1e-8 : α)
  have entered {j' : Journal α}
      (h : j'.queries = (j.push (.noted warning)).queries ++ [.gradient point] ∧
        j'.records = (j.push (.noted warning)).records) : j.Declining warning point j' := by
    rw [Journal.queries_push_noted, Journal.records_push_noted] at h
    exact ⟨h.1, .of_eq h.2⟩
  have hphases : LineSearch.Phases A opts (f.oracle.checked n) n s.point d s.gradient
      (j.push (.noted warning)) (fun step j' => step = 1e-8 ∧ j' = j.push (.noted warning))
      (fun step _ j' => step = 1e-8 ∧ j.Declining warning point j')
      (fun _ => j.Declining warning point) :=
    { search := LineSearch.triple_search_of_seek (C := fun _ _ => True) hslope
        (fun _ => ⟨rfl, rfl⟩) (fun h => absurd hle h) (fun h => absurd hle h)
      gradient := by
        rintro _ point' _ hpoint' - ⟨rfl, rfl⟩
        cases hpoint.symm.trans hpoint'
        exact (f.triple_gradient_entered n point _).mono
          (fun _ _ h => ⟨h.1, rfl, entered h.2⟩) (fun _ _ h => entered h)
      note := by
        rintro step _ j' r hr ⟨hstep, hasks, hnotes⟩
        exact ⟨hstep, (Journal.queries_push_noted j' r).trans hasks, hnotes.note hr⟩ }
  have htriple := State.triple_advance hA hn hs hd hslope (if_pos hle).symm hphases
  refine ⟨point, hpoint, ?_, ?_⟩
  · exact (htriple.mono (fun _ _ h => h.2.2.2) (fun _ _ h => h)).result
      (C := fun _ => j.Declining warning point)
  · intro s' step j' h
    obtain ⟨-, hpoint', rfl, -⟩ := htriple.of_ok h
    exact ⟨Option.some.inj (hpoint'.symm.trans hpoint), rfl⟩

theorem State.searches_of_not_le (hle : ¬ 0.0 ≤ slope) (opts : LineSearch.Options α)
    (f : Responder α) (j : Journal α) : s.Searches A opts (f.oracle.checked n) j := by
  have hgradient {x : List α} {j₁ : Journal α} (hj₁ : j.Searching s.point j₁) :
      ((f.oracle.checked n).gradient x).Triple j₁
        (fun g j' => g.length = n ∧ j.Searching s.point j') (fun _ => j.Searching s.point) :=
    (f.triple_gradient_entered n x j₁).mono (fun _ _ h => ⟨h.1, hj₁.enter h.2⟩)
      (fun _ _ h => hj₁.enter h)
  have htrials : (f.oracle.checked n).KeepsTrials n (j.Searching s.point)
      (fun _ => j.Searching s.point) (fun _ => j.Searching s.point) :=
    { value := fun _ hj₁ => (f.triple_value_entered n _ _).mono (fun _ _ => hj₁.enter)
        (fun _ _ => hj₁.enter)
      gradient := fun _ => hgradient
      nonFiniteValue := id
      invalidGradient := id }
  have hphases : LineSearch.Phases A opts (f.oracle.checked n) n s.point d s.gradient j
      (fun _ => j.Searching s.point) (fun _ _ => j.Searching s.point)
      (fun _ => j.Searching s.point) :=
    { search := by
        refine LineSearch.triple_search_of_seek (C := fun _ => j.Searching s.point) hslope
          (fun h => absurd h hle) (fun _ => (f.triple_value_entered n _ _).mono
            (fun _ _ => .begin) (fun _ _ => .begin)) fun _ hj₁ => ?_
        exact (LineSearch.triple_seek htrials hA (hs.length_direction hA hn hd) hn
          hs.length_point opts _ _ hj₁).mono (fun _ _ h => h) (fun _ _ h => h.elim id id)
      gradient := fun _ _ => hgradient
      note := fun _ hr hj₁ => hj₁.note hr }
  have htriple := State.triple_advance hA hn hs hd hslope (if_neg hle).symm hphases
  exact (htriple.mono (fun _ _ h => h.2.2) (fun _ _ h => h)).result
    (C := fun _ => j.Searching s.point)

end

end

/-! ### Runs in doubles -/

/-- What an iteration makes of the slope along its direction. -/
inductive State.Heeds (A : Arithmetic Float) (opts : LineSearch.Options Float) (o : Oracle Float)
    (s : State Float) (j : Journal Float) (d : List Float) (slope : Float) : Prop where
  | descends (hlt : slope < 0.0) (hsearches : s.Searches A opts o j) : Heeds A opts o s j d slope
  | ascends (hle : 0.0 ≤ slope) (hdeclines : s.Declines A opts o j d slope) :
      Heeds A opts o s j d slope
  /-- The search halves its first step, again and again. -/
  | undefined (hnan : slope.isNaN = true) (hsearches : s.Searches A opts o j)
      (hstep : ∀ s' step j', (s.advance A opts o).perform j = (.ok (s', step), j') →
        ∃ k ≤ LineSearch.rounds, step = LineSearch.halve^[k] opts.firstStep) :
      Heeds A opts o s j d slope

/-- Wherever a run comes, the state has a direction, and the iteration heeds the slope along it. -/
theorem slope_heeded {A : Arithmetic Float} (hA : A.Standard) (f : Responder Float)
    (solver : Lbfgs Float) (x₀ : List Float) (j : Journal Float) {s : State Float}
    {j₁ : Journal Float}
    (hvisit : (s, j₁) ∈
      (solver.method A).itinerary solver.options.toStopping f.oracle x₀ j) :
    ∃ d slope, s.direction A = some d ∧ A.inner s.gradient d = some slope ∧
      s.Heeds A solver.options.lineSearch (f.oracle.checked x₀.length) j₁ d slope := by
  obtain ⟨hn, hs, -⟩ := Method.forall_itinerary (fun hn => solver.keeps_method hA.lawful hn)
    (f.keeps_asked x₀.length []) List.nil_prefix _ _ hvisit
  obtain ⟨d, hd, hdlen⟩ := hs.exists_direction hA.lawful hn
  obtain ⟨slope, hslope⟩ := hA.lawful.exists_inner (hs.length_gradient.trans hdlen.symm)
  refine ⟨d, slope, hd, hslope, ?_⟩
  have hsearches (hle : ¬ 0.0 ≤ slope) :=
    State.searches_of_not_le hA.lawful hn hs hd hslope hle solver.options.lineSearch f j₁
  obtain hlt | hle | hnan | hzero := Double.lt_or_le_or_isNaN slope 0.0
  · have hle : ¬ 0.0 ≤ slope := fun h => Double.lt_irrefl _ (Double.lt_of_lt_of_le hlt h)
    exact .descends hlt (hsearches hle)
  · exact .ascends hle (State.declines_of_le hA.lawful hn hs hd hslope hle _ f j₁)
  · refine .undefined hnan (hsearches (Double.not_le_of_isNaN hnan)) ?_
    intro s' step j' h
    obtain ⟨i⟩ := State.perform_advance_eq_ok_iff.mp h
    obtain rfl : i.direction = d := Option.some.inj (i.direction_eq.symm.trans hd)
    exact LineSearch.exists_eq_halve_of_search hslope hnan i.search_eq
  · exact absurd hzero (by decide)

/-- An objective so steep that inner products with its gradient overflow. -/
def cliff : Problem Float :=
  let weights : List (Float × Float) := [(3e157, 600.0), (1e157, 2500.0)]
  .ofFunctions
    (fun x => orderedSum (List.zipWith (fun w a => w.1 * a + w.2 * (a * a)) weights x))
    (List.zipWith (fun w a => w.1 + 2.0 * w.2 * a) weights)

/-- The slope is undefined, and the iteration asks for the objective, warns of nothing and takes a
step that is less than the fixed one. -/
def searchesBlindly (m : Method Float (State Float)) (o : Oracle Float) :
    State Float × Journal Float → Bool
  | (s, j) =>
    ((s.direction .laned).bind (Arithmetic.laned.inner s.gradient)).any Float.isNaN &&
      match (m.advance o s).perform j with
      | (.ok (_, step), j') => decide (step < 1e-8) && j'.records.all (·.severity = .debug) &&
          decide (j.tally.values < j'.tally.values)
      | (.error _, _) => false

/-- After one iteration on the cliff the slope is infinity minus infinity. The next iteration asks
for the objective, warns of nothing, and takes a step that is not the fixed one. -/
theorem exists_visit_cliff :
    ∃ v ∈ (((⟨.ofSettings [.budget 2]⟩ : Lbfgs Float).method .laned).itinerary ⟨1e-6, 2⟩
        (Responder.ofProblem cliff).oracle [0.0, 0.0] {}).dropLast,
      (∃ d slope, v.1.direction .laned = some d ∧
        Arithmetic.laned.inner v.1.gradient d = some slope ∧ slope.isNaN = true) ∧
      ∃ s' step j', (v.1.advance .laned .standard
          ((Responder.ofProblem cliff).oracle.checked 2)).perform v.2 = (.ok (s', step), j') ∧
        step < 1e-8 ∧ (∀ r ∈ j'.records, r.severity = .debug) ∧
        v.2.tally.values < j'.tally.values := by
  have hblind : (((⟨.ofSettings [.budget 2]⟩ : Lbfgs Float).method .laned).itinerary ⟨1e-6, 2⟩
      (Responder.ofProblem cliff).oracle [0.0, 0.0] {}).dropLast.any
        (searchesBlindly ((⟨.ofSettings [.budget 2]⟩ : Lbfgs Float).method .laned)
          ((Responder.ofProblem cliff).oracle.checked [(0.0 : Float), 0.0].length)) = true := by
    decide +kernel
  obtain ⟨⟨s, j⟩, hv, hblind⟩ := List.any_eq_true.mp hblind
  obtain ⟨hslope, hadvance⟩ := Bool.and_eq_true_iff.mp hblind
  refine ⟨(s, j), hv, ?_, ?_⟩
  · obtain ⟨slope, hinner, hnan⟩ := (Option.any_eq_true _ _).mp hslope
    obtain ⟨d, hd, hinner⟩ := Option.bind_eq_some_iff.mp hinner
    exact ⟨d, slope, hd, hinner, hnan⟩
  · split at hadvance
    · rename_i s' step j' h
      simp only [Bool.and_eq_true, decide_eq_true_eq, List.all_eq_true] at hadvance
      exact ⟨s', step, j', h, hadvance.1.1, hadvance.1.2, hadvance.2⟩
    · cases hadvance

/-- The slope that is undefined on the cliff is heeded as such. -/
theorem slope_heeded_cliff :
    ∃ v ∈ ((⟨.ofSettings [.budget 2]⟩ : Lbfgs Float).method .laned).itinerary ⟨1e-6, 2⟩
        (Responder.ofProblem cliff).oracle [0.0, 0.0] {},
      ∃ d slope, v.1.direction .laned = some d ∧
        Arithmetic.laned.inner v.1.gradient d = some slope ∧ slope.isNaN = true ∧
        v.1.Heeds .laned .standard ((Responder.ofProblem cliff).oracle.checked 2) v.2 d slope := by
  obtain ⟨v, hv, ⟨d, slope, hd, hslope, hnan⟩, -⟩ := exists_visit_cliff
  have hv := List.mem_of_mem_dropLast hv
  obtain ⟨d', slope', hd', hslope', hheeds⟩ :=
    slope_heeded .laned (Responder.ofProblem cliff) ⟨.ofSettings [.budget 2]⟩ [0.0, 0.0] {} hv
  cases hd.symm.trans hd'
  cases hslope.symm.trans hslope'
  exact ⟨v, hv, d, slope, hd, hslope, hnan, hheeds⟩

/-- At each visit but the last an iteration begins. It is not true that each of them has a negative
slope or else warns and takes the fixed step. -/
theorem slope_undefined_cliff :
    (Options.ofSettings [.budget 2] : Options Float).check = .ok () ∧
    checkPoint [(0.0 : Float), 0.0] = .ok () ∧
    ¬ ∀ v ∈ (((⟨.ofSettings [.budget 2]⟩ : Lbfgs Float).method .laned).itinerary ⟨1e-6, 2⟩
        (Responder.ofProblem cliff).oracle [0.0, 0.0] {}).dropLast,
      ∃ d slope, v.1.direction .laned = some d ∧
        Arithmetic.laned.inner v.1.gradient d = some slope ∧
        (slope < 0.0 ∨ v.1.Declines .laned .standard
          ((Responder.ofProblem cliff).oracle.checked 2) v.2 d slope) := by
  refine ⟨by decide +kernel, by decide +kernel, fun h => ?_⟩
  obtain ⟨v, hv, ⟨d, slope, hd, hslope, hnan⟩, s', step, j', hadvance, hstep, -, -⟩ :=
    exists_visit_cliff
  obtain ⟨d', slope', hd', hslope', hheeds⟩ := h v hv
  cases hd.symm.trans hd'
  cases hslope.symm.trans hslope'
  obtain hlt | ⟨_, -, -, hdeclines⟩ := hheeds
  · exact Double.not_lt_of_isNaN hnan hlt
  · obtain ⟨-, rfl⟩ := hdeclines s' step j' hadvance
    exact Double.lt_irrefl _ hstep

end Lbfgs

end QuasiNewton
