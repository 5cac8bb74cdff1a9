import QuasiNewton.Proofs.Lbfgs.Shaped
import QuasiNewton.Proofs.Responder
import QuasiNewton.Proofs.Visits
import QuasiNewton.Lbfgs.Solver
import QuasiNewton.SteepestDescent

/-!
# What the questions keep, the runs keep

A solver reaches the caller's functions only through its oracle. So a property of journals that
each question at a point of the right length keeps, and that survives the failures which a line
search swallows, is kept by searches, by iterations and by the loop of a solver
(`LineSearch.triple_search`, `Lbfgs.keeps_method`, `SteepestDescent.keeps_method`,
`Method.triple_minimize`). On the way no two vectors meet whose lengths do not fit.

Where what is known changes in the course of an iteration, the same is said phase by phase: of the
trials (`LineSearch.triple_seek`), of an iteration (`Method.Follows`), and of the iterations that
begin at the visits of a loop (`Method.triple_descend_visits`).
-/

namespace QuasiNewton

variable {α : Type}

/-- Each question at a point of length `n` keeps `I`, and where it fails `E` holds. -/
structure Oracle.Keeps (o : Oracle α) (n : Nat) (I : Journal α → Prop)
    (E : Stop α → Journal α → Prop) : Prop where
  note : ∀ {j : Journal α} (r : Record α), I j → I (j.push (.noted r))
  value : ∀ {x : List α} {j : Journal α}, x.length = n → I j →
    (o.value x).Triple j (fun _ => I) E
  gradient : ∀ {x : List α} {j : Journal α}, x.length = n → I j →
    (o.gradient x).Triple j (fun g j' => g.length = n ∧ I j') E
  /-- A search goes on after this failure. -/
  nonFiniteValue : ∀ {v : α} {j : Journal α}, E (.fault (.nonFiniteValue v)) j → I j
  /-- A search goes on after this failure. -/
  invalidGradient : ∀ {index : Nat} {a : α} {reason : String} {j : Journal α},
    E (.fault (.invalidGradient index a reason)) j → I j

/-- Each question at a trial point of length `n` keeps `I`. Where one for the value fails `V` holds,
and where one for the gradient fails `G` does. -/
structure Oracle.KeepsTrials (o : Oracle α) (n : Nat) (I : Journal α → Prop)
    (V G : Stop α → Journal α → Prop) : Prop where
  value : ∀ {x : List α} {j : Journal α}, x.length = n → I j →
    (o.value x).Triple j (fun _ => I) V
  gradient : ∀ {x : List α} {j : Journal α}, x.length = n → I j →
    (o.gradient x).Triple j (fun g j' => g.length = n ∧ I j') G
  /-- A search goes on after this failure of a value. -/
  nonFiniteValue : ∀ {v : α} {j : Journal α}, V (.fault (.nonFiniteValue v)) j → I j
  /-- A search goes on after this failure of a gradient. -/
  invalidGradient : ∀ {index : Nat} {a : α} {reason : String} {j : Journal α},
    G (.fault (.invalidGradient index a reason)) j → I j

variable {o : Oracle α} {n : Nat} {I : Journal α → Prop} {E V G : Stop α → Journal α → Prop}
  {j : Journal α}

theorem Oracle.Keeps.trials (ho : o.Keeps n I E) : o.KeepsTrials n I E E where
  value := ho.value
  gradient := ho.gradient
  nonFiniteValue := ho.nonFiniteValue
  invalidGradient := ho.invalidGradient

variable [Scalar α] {A : Arithmetic α}

/-- What was asked stays asked. -/
theorem Responder.keeps_asked (f : Responder α) (n : Nat) (asked : List (Query α)) :
    (f.oracle.checked n).Keeps n (fun j => asked <+: j.queries)
      (fun _ j => asked <+: j.queries) where
  note r hj := (Journal.queries_push_noted _ r).symm ▸ hj
  value {x j} _ hj := by
    have entered (j' : Journal α) (hj' : j'.queries = j.queries ++ [.value x]) :
        asked <+: j'.queries := hj' ▸ hj.trans (List.prefix_append _ _)
    exact (f.triple_value_entered n x j).mono (fun _ _ h => entered _ h.1)
      (fun _ _ h => entered _ h.1)
  gradient {x j} _ hj := by
    have entered (j' : Journal α) (hj' : j'.queries = j.queries ++ [.gradient x]) :
        asked <+: j'.queries := hj' ▸ hj.trans (List.prefix_append _ _)
    exact (f.triple_gradient_entered n x j).mono (fun _ _ h => ⟨h.1, entered _ h.2.1⟩)
      (fun _ _ h => entered _ h.1)
  nonFiniteValue h := h
  invalidGradient h := h

/-- A question makes no record. -/
theorem Responder.keepsTrials_records (f : Responder α) (n : Nat) (C : List (Record α) → Prop) :
    (f.oracle.checked n).KeepsTrials n (fun j => C j.records) (fun _ j => C j.records)
      (fun _ j => C j.records) where
  value {x j} _ hj := (f.triple_value_entered n x j).mono (fun _ _ h => h.2.symm ▸ hj)
    (fun _ _ h => h.2.symm ▸ hj)
  gradient {x j} _ hj := (f.triple_gradient_entered n x j).mono
    (fun _ _ h => ⟨h.1, h.2.2.symm ▸ hj⟩) (fun _ _ h => h.2.symm ▸ hj)
  nonFiniteValue h := h
  invalidGradient h := h

theorem Responder.shapedAt_checked (f : Responder α) (n : Nat) :
    (f.oracle.checked n).ShapedAt n :=
  fun _ h => ((f.triple_gradient_entered n _ _).of_ok h).1

/-! ### The line search -/

namespace LineSearch

/-- A trial keeps what its two questions keep. -/
theorem triple_judge_of_trials (hA : A.Lawful) (hn : 0 < n) {l : Line α}
    (horigin : l.origin.length = n) (hdirection : l.direction.length = n)
    (hvalue : ∀ {trial : List α} {j : Journal α}, trial.length = n → I j →
      (trialValue o trial).Triple j (fun _ => I) E)
    (hslope : ∀ {trial : List α} {j : Journal α}, trial.length = n → I j →
      (trialSlope A o trial l.direction).Triple j (fun _ => I) E)
    (opts : Options α) (step : α) (hj : I j) :
    (l.judge A opts o step).Triple j (fun _ => I) E := by
  obtain ⟨trial, htrial, hlength⟩ := hA.exists_addScaled hn horigin hdirection step
  refine Run.triple_ofOption_bind htrial ?_
  apply (hvalue hlength hj).bind
  rintro (_ | value) j' hj'
  · exact Run.triple_pure hj'
  · dsimp only
    split
    · exact (hslope hlength hj').bind fun _ _ h => Run.triple_pure h
    · exact Run.triple_pure hj'

/-- A search keeps what its trials keep. -/
theorem triple_seek_of_judge {l : Line α} {opts : Options α}
    (hjudge : ∀ (step : α) {j : Journal α}, I j →
      (l.judge A opts o step).Triple j (fun _ => I) E)
    (left : Nat) (b : Bracket α) (hj : I j) :
    (l.seek A opts o left b).Triple j (fun _ => I) E := by
  induction left generalizing b j with
  | zero => exact Run.triple_pure hj
  | succ left ih =>
    rw [Line.seek_succ]
    apply (hjudge b.step hj).bind
    intro verdict j' hj'
    split
    · exact Run.triple_pure hj'
    · split
      · exact Run.triple_pure hj'
      · exact ih _ hj'

section

variable (ho : o.KeepsTrials n I V G)
include ho

theorem triple_trialValue {trial : List α} (htrial : trial.length = n) (hj : I j) :
    (trialValue o trial).Triple j (fun _ => I) V := by
  apply (ho.value htrial hj).attempt.bind
  rintro (f | value) j' h
  · cases f with
    | nonFiniteValue v => exact Run.triple_pure (ho.nonFiniteValue h)
    | _ => exact h
  · exact Run.triple_pure h

variable (hA : A.Lawful) {l : Line α} (hdirection : l.direction.length = n)
include hA hdirection

theorem triple_trialSlope {trial : List α} (htrial : trial.length = n) (hj : I j) :
    (trialSlope A o trial l.direction).Triple j (fun _ => I) G := by
  apply (ho.gradient htrial hj).attempt.bind
  rintro (f | gradient) j' h
  · cases f with
    | invalidGradient index a reason => exact Run.triple_pure (ho.invalidGradient h)
    | _ => exact h
  · obtain ⟨hlength, hj'⟩ := h
    obtain ⟨slope, hslope⟩ := hA.exists_inner (hlength.trans hdirection.symm)
    exact Run.triple_ofOption_bind hslope (Run.triple_pure hj')

variable (hn : 0 < n) (horigin : l.origin.length = n)
include hn horigin

theorem triple_judge (opts : Options α) (step : α) (hj : I j) :
    (l.judge A opts o step).Triple j (fun _ => I) (fun stop j' => V stop j' ∨ G stop j') :=
  triple_judge_of_trials hA hn horigin hdirection
    (fun hlength hj => (triple_trialValue ho hlength hj).mono (fun _ _ h => h) (fun _ _ => Or.inl))
    (fun hlength hj => (triple_trialSlope ho hA hdirection hlength hj).mono (fun _ _ h => h)
      (fun _ _ => Or.inr))
    opts step hj

theorem triple_seek (opts : Options α) (left : Nat) (b : Bracket α) (hj : I j) :
    (l.seek A opts o left b).Triple j (fun _ => I) (fun stop j' => V stop j' ∨ G stop j') :=
  triple_seek_of_judge (fun step _ => triple_judge ho hA hdirection hn horigin opts step) left b hj

end

/-- A search is declined, or it asks for the value where it begins and seeks. -/
theorem triple_search_of_seek {opts : Options α} {x d g : List α} {slope : α}
    {C Q : α → Journal α → Prop} (hslope : A.inner g d = some slope)
    (hdeclined : 0.0 ≤ slope → Q nonDescentStep j)
    (hvalue : ¬ 0.0 ≤ slope → (o.value x).Triple j C E)
    (hseek : ∀ {value j'}, ¬ 0.0 ≤ slope → C value j' →
      (Line.seek A opts o ⟨x, d, value, slope⟩ rounds (Bracket.initial opts.firstStep)).Triple j'
        Q E) :
    (search A opts o x d g).Triple j Q E := by
  refine Run.triple_ofOption_bind hslope ?_
  dsimp only
  split
  · exact Run.triple_pure (hdeclined ‹_›)
  · apply (hvalue ‹_›).bind
    intro value j' hj'
    exact hseek ‹_› hj'

theorem triple_search (ho : o.KeepsTrials n I E E) (hA : A.Lawful) (hn : 0 < n) (opts : Options α)
    {x d g : List α} (hx : x.length = n) (hd : d.length = n) (hg : g.length = n) (hj : I j) :
    (search A opts o x d g).Triple j (fun _ => I) E := by
  obtain ⟨slope, hslope⟩ := hA.exists_inner (hg.trans hd.symm)
  refine triple_search_of_seek hslope (fun _ => hj) (fun _ => ho.value hx hj) fun _ hj' => ?_
  exact (triple_seek ho hA hd hn hx opts rounds _ hj').mono (fun _ _ h => h)
    (fun _ _ h => h.elim id id)

end LineSearch

/-! ### Iterations -/

/-- The phases of an iteration that searches from `x` along `d`: `Q` holds after the search, and `R`
once the gradient is known where the step leads. -/
structure LineSearch.Phases (A : Arithmetic α) (opts : Options α) (o : Oracle α) (n : Nat)
    (x d g : List α) (j : Journal α) (Q : α → Journal α → Prop)
    (R : α → List α → Journal α → Prop) (E : Stop α → Journal α → Prop) : Prop where
  search : (search A opts o x d g).Triple j Q E
  gradient : ∀ {step : α} {point : List α} {j : Journal α},
    A.addScaled x d step = some point → point.length = n → Q step j →
      (o.gradient point).Triple j (fun g j' => g.length = n ∧ R step point j') E
  note : ∀ {step : α} {point : List α} {j : Journal α} (r : Record α), r.severity = .debug →
    R step point j → R step point (j.push (.noted r))

/-- At most a warning was noted in between. -/
def Journal.Warned (j j' : Journal α) : Prop :=
  j' = j ∨ ∃ r : Record α, r.severity = .warning ∧ j' = j.push (.noted r)

omit [Scalar α] in
theorem Journal.warned_ite {p : Prop} [Decidable p] (j : Journal α) {r : Record α}
    (hr : r.severity = .warning) : j.Warned (if p then j.push (.noted r) else j) := by
  split
  · exact Or.inr ⟨r, hr, rfl⟩
  · exact Or.inl rfl

theorem Oracle.Keeps.phases (ho : o.Keeps n I E) (hA : A.Lawful) (hn : 0 < n)
    (opts : LineSearch.Options α) {x d g : List α} (hx : x.length = n) (hd : d.length = n)
    (hg : g.length = n) (hj : I j) {j' : Journal α} (hwarned : j.Warned j') :
    LineSearch.Phases A opts o n x d g j' (fun _ => I) (fun _ _ => I) E where
  search := by
    obtain rfl | ⟨r, -, rfl⟩ := hwarned
    · exact LineSearch.triple_search ho.trials hA hn opts hx hd hg hj
    · exact LineSearch.triple_search ho.trials hA hn opts hx hd hg (ho.note r hj)
  gradient _ hlength hj := ho.gradient hlength hj
  note r _ hj := ho.note r hj

variable {Q : α → Journal α → Prop} {R : α → List α → Journal α → Prop}

theorem Lbfgs.State.triple_advance (hA : A.Lawful) (hn : 0 < n) {opts : LineSearch.Options α}
    {s : State α} (hs : s.Shaped A n) {d : List α} {slope : α} (hd : s.direction A = some d)
    (hslope : A.inner s.gradient d = some slope) {j₁ : Journal α}
    (hj₁ : j₁ = if 0.0 ≤ slope then j.push (.noted (.nonDescent name s.iteration slope)) else j)
    (hphases : LineSearch.Phases A opts o n s.point d s.gradient j₁ Q R E) :
    (s.advance A opts o).Triple j
      (fun p j' => p.1.Shaped A n ∧ A.addScaled s.point d p.2 = some p.1.point ∧
        R p.2 p.1.point j') E := by
  have hdlen := hs.length_direction hA hn hd
  refine Run.triple_ofOption_bind hd (Run.triple_ofOption_bind hslope ?_)
  rw [Run.Triple, Run.perform_ite_note, ← hj₁]
  apply hphases.search.bind
  intro step j₂ hj₂
  obtain ⟨point, hpoint, hpointlen⟩ := hA.exists_addScaled hn hs.length_point hdlen step
  refine Run.triple_ofOption_bind hpoint ?_
  apply (hphases.gradient hpoint hpointlen hj₂).bind
  rintro gradient j₃ ⟨hgradlen, hj₃⟩
  obtain ⟨move, hmove, hmovelen⟩ := hA.exists_sub hn hpointlen hs.length_point
  obtain ⟨change, hchange, hchangelen⟩ := hA.exists_sub hn hgradlen hs.length_gradient
  obtain ⟨curvature, hcurvature⟩ := hA.exists_inner (hmovelen.trans hchangelen.symm)
  obtain ⟨⟨stored, history⟩, hoffer⟩ :=
    History.exists_offer hA s.history (hmovelen.trans hchangelen.symm)
  refine Run.triple_ofOption_bind hmove (Run.triple_ofOption_bind hchange ?_)
  refine Run.triple_ofOption_bind hcurvature (Run.triple_ofOption_bind hoffer ?_)
  have hs' : State.Shaped A n ⟨⟨point, gradient, s.iteration + 1⟩, history⟩ :=
    ⟨hpointlen, hgradlen, hs.built.offer hmovelen hchangelen hoffer⟩
  exact Run.triple_ite_note hj₃ (hphases.note _ rfl hj₃)
    fun j₄ hj₄ => Run.triple_pure ⟨hs', hpoint, hj₄⟩

/-- An iterate of vectors of length `n`. -/
structure Iterate.Shaped (n : Nat) (i : Iterate α) : Prop where
  length_point : i.point.length = n
  length_gradient : i.gradient.length = n

theorem SteepestDescent.triple_advance (hA : A.Lawful) (hn : 0 < n)
    {opts : LineSearch.Options α} {i : Iterate α} (hi : i.Shaped n)
    (hphases : LineSearch.Phases A opts o n i.point (scale i.gradient (-1.0)) i.gradient j Q R E) :
    (SteepestDescent.advance A opts o i).Triple j
      (fun p j' => p.1.Shaped n ∧ R p.2 p.1.point j') E := by
  have hdlen : (scale i.gradient (-1.0)).length = n :=
    (length_scale _ _).trans hi.length_gradient
  apply hphases.search.bind
  intro step j₁ hj₁
  obtain ⟨point, hpoint, hpointlen⟩ := hA.exists_addScaled hn hi.length_point hdlen step
  refine Run.triple_ofOption_bind hpoint ?_
  apply (hphases.gradient hpoint hpointlen hj₁).bind
  rintro gradient j₂ ⟨hgradlen, hj₂⟩
  exact Run.triple_pure ⟨⟨hpointlen, hgradlen⟩, hj₂⟩

/-! ### Methods -/

/-- The start point may be refused before anything is asked; otherwise it is not empty. -/
theorem Oracle.triple_opening (o : Oracle α) {x₀ : List α} {Q : List α → Journal α → Prop}
    (hrefused : ∀ f, checkPoint x₀ = .error f → E (.fault f) j)
    (hgradient : ((o.checked x₀.length).gradient x₀).Triple j.resetTally Q E) :
    (o.opening x₀).Triple j (fun g j' => 0 < x₀.length ∧ Q g j') E := by
  apply (Run.triple_ofExcept (Q := fun _ j' => checkPoint x₀ = .ok () ∧ j' = j)
    (fun _ h => ⟨h, rfl⟩) hrefused).bind
  rintro _ j ⟨hx₀, rfl⟩
  apply (Run.triple_amend rfl (Q := fun _ j' => j' = j.resetTally)).bind
  rintro _ _ rfl
  exact hgradient.mono (fun _ _ h => ⟨length_pos_of_checkPoint hx₀, h⟩) (fun _ _ h => h)

namespace Method

variable {σ : Type}

/-- There may be no room for the first state, once the gradient at the start point is known. -/
theorem triple_opening (m : Method α σ) {x₀ : List α} {Q : List α → Journal α → Prop}
    (hrefused : ∀ f, checkPoint x₀ = .error f → E (.fault f) j)
    (hgradient : ((o.checked x₀.length).gradient x₀).Triple j.resetTally Q E)
    (hroom : ∀ {g j'}, 0 < x₀.length → Q g j' → m.start x₀ g = none → E .noRoom j') :
    (m.opening o x₀).Triple j
      (fun s j' => 0 < x₀.length ∧ ∃ g, m.start x₀ g = some s ∧ Q g j') E := by
  apply (o.triple_opening hrefused hgradient).bind
  rintro g j' ⟨hn, hg⟩
  cases hstart : m.start x₀ g with
  | none => exact hroom hn hg hstart
  | some s => exact ⟨hn, g, hstart, hg⟩

/-- Where all gradients have the length of the points, `S` holds of all states of the method, and
an iteration keeps what the questions keep. -/
structure Keeps (m : Method α σ) (n : Nat) (S : σ → Prop) : Prop where
  start : ∀ {x g : List α} {s : σ}, x.length = n → g.length = n → m.start x g = some s → S s
  length_point : ∀ {s : σ}, S s → (m.iterate s).point.length = n
  advance : ∀ {o : Oracle α} {I : Journal α → Prop} {E : Stop α → Journal α → Prop},
    o.Keeps n I E → ∀ {s : σ} {j : Journal α}, S s → I j →
      (m.advance o s).Triple j (fun p j' => S p.1 ∧ I j') E

/-- Where all gradients have the length of the points, `S` holds of all states of the method, and
an iteration goes through its phases, with a search along the direction of the state. -/
structure Follows (m : Method α σ) (A : Arithmetic α) (opts : LineSearch.Options α)
    (direction : σ → Option (List α)) (n : Nat) (S : σ → Prop) : Prop where
  start : ∀ {x g : List α} {s : σ}, x.length = n → g.length = n → m.start x g = some s → S s
  length_point : ∀ {s : σ}, S s → (m.iterate s).point.length = n
  length_gradient : ∀ {s : σ}, S s → (m.iterate s).gradient.length = n
  exists_direction : ∀ {s : σ}, S s → ∃ d, direction s = some d ∧ d.length = n
  advance : ∀ {o : Oracle α} {Q : α → Journal α → Prop} {R : α → List α → Journal α → Prop}
    {E : Stop α → Journal α → Prop} {s : σ} {d : List α} {j : Journal α},
    S s → direction s = some d →
    (∀ j', j.Warned j' → LineSearch.Phases A opts o n (m.iterate s).point d
      (m.iterate s).gradient j' Q R E) →
    (m.advance o s).Triple j (fun p j' => S p.1 ∧ R p.2 (m.iterate p.1).point j') E

variable {m : Method α σ} {S : σ → Prop} {opts : LineSearch.Options α}
  {direction : σ → Option (List α)}

theorem Follows.keeps (hm : m.Follows A opts direction n S) (hA : A.Lawful) (hn : 0 < n) :
    m.Keeps n S where
  start := hm.start
  length_point := hm.length_point
  advance ho s _ hs hj := by
    obtain ⟨d, hd, hdlen⟩ := hm.exists_direction hs
    exact hm.advance hs hd fun _ hwarned => ho.phases hA hn opts (hm.length_point hs) hdlen
      (hm.length_gradient hs) hj hwarned

/-- What the iterations that begin at the visits of a loop keep. -/
theorem triple_descend_visits {tolerance : α} {left : Nat} {s : σ}
    (hadvance : ∀ v ∈ m.visits tolerance o left s j, S v.1 → I v.2 →
      (m.advance o v.1).Triple v.2
        (fun p j' => S p.1 ∧ I (j'.push (.noted (m.iterationRecord p.1 p.2)))) E)
    (hs : S s) (hj : I j) :
    (m.descend tolerance o left s).Triple j (fun p j' => S p.2 ∧ I j') E := by
  induction left generalizing s j with
  | zero =>
    rw [descend]
    split
    · exact Run.triple_pure ⟨hs, hj⟩
    · exact Run.triple_pure ⟨hs, hj⟩
  | succ left ih =>
    by_cases hlt : m.gradNorm s < tolerance
    · rw [descend_of_lt hlt]
      exact Run.triple_pure ⟨hs, hj⟩
    · have hfirst := hadvance (s, j) (m.mem_visits ..) hs hj
      rcases h : (m.advance o s).perform j with ⟨stop | ⟨s', step⟩, j₁⟩
      · rw [Run.Triple, descend, if_neg hlt, Run.perform_bind, h]
        exact hfirst.of_error h
      · obtain ⟨hs', hj₁⟩ := hfirst.of_ok h
        rw [visits_succ_of_ok hlt h] at hadvance
        rw [Run.Triple, perform_descend_succ hlt h]
        exact ih (fun v hv => hadvance v (List.mem_cons_of_mem _ hv)) hs' hj₁

theorem triple_descend (hm : m.Keeps n S) (ho : o.Keeps n I E) (tolerance : α) (left : Nat)
    {s : σ} (hs : S s) (hj : I j) :
    (m.descend tolerance o left s).Triple j (fun p j' => S p.2 ∧ I j') E := by
  refine triple_descend_visits (fun v _ hs hj => ?_) hs hj
  exact (hm.advance ho hs hj).mono (fun _ _ h => ⟨h.1, ho.note _ h.2⟩) (fun _ _ h => h)

/-- The conclusion: it stops where its question does, and otherwise as the outcome is made or
refused, after the last record. -/
theorem triple_conclude {V : α → Journal α → Prop} {Q : Outcome α → Journal α → Prop}
    {t : Termination} {s : σ} (hvalue : (o.value (m.iterate s).point).Triple j V E)
    (hcreate : ∀ {value j₁}, V value j₁ → ∀ tally r,
      (∀ out, Outcome.create (m.iterate s).point value t (m.iterate s).iteration tally
        (m.gradNorm s) = .ok out → Q out (j₁.push (.noted r))) ∧
      (∀ fault, Outcome.create (m.iterate s).point value t (m.iterate s).iteration tally
        (m.gradNorm s) = .error fault → E (.fault fault) (j₁.push (.noted r)))) :
    (m.conclude o t s).Triple j Q E := by
  apply hvalue.bind
  intro value j₁ hj₁
  let last : Record α :=
    .terminated m.name t.text (m.iterate s).iteration value (m.gradNorm s)
  apply (Run.triple_note rfl (Q := fun _ j' => j' = j₁.push (.noted last))).bind
  rintro _ _ rfl
  apply (Run.triple_tally rfl (Q := fun _ j' => j' = j₁.push (.noted last))).bind
  rintro tally _ rfl
  obtain ⟨hok, herror⟩ := hcreate hj₁ tally.named last
  exact Run.triple_ofExcept hok herror

/-- A whole run: the start point may be refused, there may be no room for the first state, and what
is said of the conclusion is said of the run. -/
theorem triple_minimize {x₀ : List α} {Q : Outcome α → Journal α → Prop}
    {E' : Stop α → Journal α → Prop}
    (hrefused : ∀ f, checkPoint x₀ = .error f → E' (.fault f) j)
    (hm : 0 < x₀.length → m.Keeps x₀.length S)
    (ho : (o.checked x₀.length).Keeps x₀.length I E) (hj : I j.resetTally)
    (hE : ∀ stop j', E stop j' → E' stop j')
    (hroom : ∀ {g j'}, m.start x₀ g = none → I j' → E' .noRoom j')
    (hconclude : ∀ t s j', (m.iterate s).point.length = x₀.length → I j' →
      (m.conclude (o.checked x₀.length) t s).Triple j' Q E') (limits : Stopping α) :
    (m.minimize limits o x₀).Triple j Q E' := by
  rw [minimize_eq_loop_bind]
  refine Run.Triple.bind (Q := fun p j' => (m.iterate p.2).point.length = x₀.length ∧ I j') ?_
    fun p j' h => hconclude p.1 p.2 j' h.1 h.2
  refine (m.triple_opening hrefused ((ho.gradient rfl hj).mono (fun _ _ h => h) hE)
    fun _ hj' hnone => hroom hnone hj'.2).bind ?_
  rintro s₀ j₁ ⟨hn, g₀, hs₀, hg₀, hj₁⟩
  refine (triple_descend (hm hn) ho _ _ ((hm hn).start rfl hg₀ hs₀) hj₁).mono ?_ hE
  rintro ⟨t, s⟩ j₂ ⟨hs, hj₂⟩
  exact ⟨(hm hn).length_point hs, hj₂⟩

/-- What is known of each visit of a run. -/
theorem forall_itinerary {x₀ : List α} (hm : 0 < x₀.length → m.Keeps x₀.length S)
    (ho : (o.checked x₀.length).Keeps x₀.length I E) (hj : I j.resetTally) (limits : Stopping α) :
    ∀ v ∈ m.itinerary limits o x₀ j, 0 < x₀.length ∧ S v.1 ∧ I v.2 := by
  intro v hv
  obtain ⟨s₀, j₁, hopening⟩ := exists_opening_of_itinerary (List.ne_nil_of_mem hv)
  obtain ⟨g₀, hopened, hs₀⟩ := perform_opening_eq_ok_iff.mp hopening
  obtain ⟨hx₀, hgradient⟩ := Oracle.perform_opening_eq_ok_iff.mp hopened
  have hn : 0 < x₀.length := length_pos_of_checkPoint hx₀
  obtain ⟨hg₀, hj₁⟩ := (ho.gradient rfl hj).of_ok hgradient
  rw [itinerary_eq hopening] at hv
  refine ⟨hn, m.forall_visits (I := fun s j => S s ∧ I j) ?_ _ _
    ⟨(hm hn).start rfl hg₀ hs₀, hj₁⟩ v hv⟩
  rintro s s' step j j' ⟨hs, hj⟩ h
  obtain ⟨hs', hj'⟩ := ((hm hn).advance ho hs hj).of_ok h
  exact ⟨hs', ho.note _ hj'⟩

end Method

theorem Lbfgs.follows_method (hA : A.Lawful) (hn : 0 < n) (solver : Lbfgs α) :
    (solver.method A).Follows A solver.options.lineSearch (State.direction A) n
      (State.Shaped A n) where
  start hx hg hs := by
    obtain ⟨-, rfl⟩ := State.create_eq_some_iff.mp hs
    exact State.shaped_initial _ hx hg
  length_point hs := hs.length_point
  length_gradient hs := hs.length_gradient
  exists_direction hs := hs.exists_direction hA hn
  advance hs hd hphases := by
    obtain ⟨slope, hslope⟩ := hA.exists_inner
      (hs.length_gradient.trans (hs.length_direction hA hn hd).symm)
    exact (State.triple_advance hA hn hs hd hslope rfl (hphases _ (Journal.warned_ite _ rfl))).mono
      (fun _ _ h => ⟨h.1, h.2.2⟩) (fun _ _ h => h)

theorem SteepestDescent.follows_method (hA : A.Lawful) (hn : 0 < n) (solver : SteepestDescent α) :
    (solver.method A).Follows A solver.lineSearch (fun i => some (scale i.gradient (-1.0))) n
      (Iterate.Shaped n) where
  start hx hg hi := by
    cases hi
    exact ⟨hx, hg⟩
  length_point hi := hi.length_point
  length_gradient hi := hi.length_gradient
  exists_direction hi := ⟨_, rfl, (length_scale _ _).trans hi.length_gradient⟩
  advance hi hd hphases := by
    cases hd
    exact SteepestDescent.triple_advance hA hn hi (hphases _ (Or.inl rfl))

theorem Lbfgs.keeps_method (hA : A.Lawful) (hn : 0 < n) (solver : Lbfgs α) :
    (solver.method A).Keeps n (State.Shaped A n) :=
  (solver.follows_method hA hn).keeps hA hn

theorem SteepestDescent.keeps_method (hA : A.Lawful) (hn : 0 < n) (solver : SteepestDescent α) :
    (solver.method A).Keeps n (Iterate.Shaped n) :=
  (solver.follows_method hA hn).keeps hA hn

end QuasiNewton
