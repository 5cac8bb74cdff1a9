import QuasiNewton.Proofs.LineSearch.Trials
import QuasiNewton.Proofs.Responder

/-!
# The questions of a line search

With an oracle that enters and counts each question, the trials of a search tell exactly what is
asked in its course and in which order (`Searched.asks`): the value at the origin, and then for
each trial the value, followed by the gradient if the trial passes. A question whose answer the
search swallows is among them.
-/

namespace QuasiNewton

variable {α : Type}

namespace Journal

/-- From `j` to `j'` these questions were asked, and each of them was counted. -/
structure Asks (j : Journal α) (qs : List (Query α)) (j' : Journal α) : Prop where
  queries_eq : j'.queries = j.queries ++ qs
  values_eq : j'.tally.values = j.tally.values + qs.countP Query.isValue
  gradients_eq : j'.tally.gradients = j.tally.gradients + qs.countP Query.isGradient

variable {j j₁ j₂ : Journal α} {qs rs : List (Query α)}

theorem Asks.refl (j : Journal α) : j.Asks [] j :=
  ⟨(List.append_nil _).symm, rfl, rfl⟩

theorem Asks.note (j : Journal α) (r : Record α) : j.Asks [] (j.push (.noted r)) :=
  ⟨(queries_push_noted j r).trans (List.append_nil _).symm, rfl, rfl⟩

/-- A record that is only made under a condition. -/
theorem Asks.ite_note {p : Prop} [Decidable p] (j : Journal α) (r : Record α) :
    j.Asks [] (if p then j.push (.noted r) else j) := by
  split
  · exact Asks.note j r
  · exact Asks.refl j

theorem Asks.append (h₁ : j.Asks qs j₁) (h₂ : j₁.Asks rs j₂) : j.Asks (qs ++ rs) j₂ where
  queries_eq := by rw [h₂.queries_eq, h₁.queries_eq, List.append_assoc]
  values_eq := by rw [h₂.values_eq, h₁.values_eq, List.countP_append, Nat.add_assoc]
  gradients_eq := by rw [h₂.gradients_eq, h₁.gradients_eq, List.countP_append, Nat.add_assoc]

theorem Asks.push_note (h : j.Asks qs j₁) (r : Record α) : j.Asks qs (j₁.push (.noted r)) := by
  simpa using h.append (Asks.note j₁ r)

theorem Asks.of_push_note {r : Record α} (h : j.Asks qs (j₁.push (.noted r))) : j.Asks qs j₁ where
  queries_eq := (queries_push_noted j₁ r).symm.trans h.queries_eq
  values_eq := h.values_eq
  gradients_eq := h.gradients_eq

theorem Asks.unique (h : j.Asks qs j₁) (h' : j.Asks rs j₁) : qs = rs :=
  List.append_cancel_left (h.queries_eq.symm.trans h'.queries_eq)

end Journal

/-- Each question is entered and counted once, whether it is answered or not. -/
structure Oracle.Counts (o : Oracle α) : Prop where
  value : ∀ (x : List α) (j : Journal α), j.Asks [.value x] ((o.value x).perform j).2
  gradient : ∀ (x : List α) (j : Journal α), j.Asks [.gradient x] ((o.gradient x).perform j).2

theorem Oracle.Counts.asks_value {o : Oracle α} (ho : o.Counts) {x : List α} {v : α}
    {j j' : Journal α} (h : (o.value x).perform j = (.ok v, j')) : j.Asks [.value x] j' := by
  have hasks := ho.value x j
  rwa [h] at hasks

theorem Oracle.Counts.asks_gradient {o : Oracle α} (ho : o.Counts) {x g : List α}
    {j j' : Journal α} (h : (o.gradient x).perform j = (.ok g, j')) :
    j.Asks [.gradient x] j' := by
  have hasks := ho.gradient x j
  rwa [h] at hasks

variable [Scalar α]

theorem Responder.counts_checked (f : Responder α) (n : Nat) : (f.oracle.checked n).Counts where
  value x j := by
    rw [perform_checked_value]
    exact ⟨j.countValue.queries_push_asked _, rfl, rfl⟩
  gradient x j := by
    rw [perform_checked_gradient]
    exact ⟨j.countGradient.queries_push_asked _, rfl, rfl⟩

namespace LineSearch

variable {A : Arithmetic α} {opts : Options α} {o : Oracle α} {j j' : Journal α}

/-! ### What a trial asks -/

theorem journal_trialValue (o : Oracle α) (trial : List α) (j : Journal α) :
    ((trialValue o trial).perform j).2 = ((o.value trial).perform j).2 := by
  rw [trialValue, Run.perform_bind, Run.perform_attempt]
  rcases (o.value trial).perform j with ⟨(f | _ | _) | v, j₁⟩
  · cases f <;> rfl
  · rfl
  · rfl
  · rfl

theorem journal_trialSlope (A : Arithmetic α) (o : Oracle α) (trial direction : List α)
    (j : Journal α) :
    ((trialSlope A o trial direction).perform j).2 = ((o.gradient trial).perform j).2 := by
  rw [trialSlope, Run.perform_bind, Run.perform_attempt]
  rcases (o.gradient trial).perform j with ⟨(f | _ | _) | g, j₁⟩
  · cases f <;> rfl
  · rfl
  · rfl
  · dsimp only
    rw [Run.perform_bind]
    cases A.inner g direction <;> rfl

def Trial.queries (opts : Options α) (l : Line α) (t : Trial α) : List (Query α) :=
  .value t.point :: if t.Passes opts l then [.gradient t.point] else []

def Search.queries (opts : Options α) : Search α → List (Query α)
  | declined _ => []
  | sought l trials => .value l.origin :: trials.flatMap (·.queries opts l)

theorem Line.Tried.asks (ho : o.Counts) {l : Line α} {t : Trial α} {verdict : Verdict}
    (h : l.Tried A opts o t j verdict j') : j.Asks (t.queries opts l) j' := by
  cases h with
  | fails _ hvalue hpasses =>
    have hj := ho.value t.point j
    rw [← journal_trialValue, hvalue] at hj
    rwa [Trial.queries, if_neg hpasses]
  | @passes j₁ _ _ _ hvalue hpasses hslope =>
    have hj := ho.value t.point j
    rw [← journal_trialValue, hvalue] at hj
    have hj₁ := ho.gradient t.point j₁
    rw [← journal_trialSlope A o t.point l.direction, hslope] at hj₁
    rw [Trial.queries, if_pos hpasses]
    exact hj.append hj₁

theorem Line.Sought.asks (ho : o.Counts) {l : Line α} {left : Nat} {b : Bracket α}
    {trials : List (Trial α)} {step : α} (h : l.Sought A opts o left b trials j step j') :
    j.Asks (trials.flatMap (·.queries opts l)) j' := by
  induction h with
  | exhausted _ j => exact Journal.Asks.refl j
  | accepted _ htried => simpa using htried.asks ho
  | tooSmall _ htried _ _ => simpa using htried.asks ho
  | refined _ htried _ _ _ ih => exact (htried.asks ho).append ih

/-- The questions in the course of a search. -/
theorem Searched.asks (ho : o.Counts) {x d g : List α} {s : Search α} {step : α}
    (h : Searched A opts o x d g s j step j') : j.Asks (s.queries opts) j' := by
  cases h with
  | declined _ _ => exact Journal.Asks.refl j
  | sought _ _ hvalue hsought => exact (ho.asks_value hvalue).append (hsought.asks ho)

/-! ### Their number -/

theorem countP_isValue_queries (opts : Options α) (s : Search α) :
    (s.queries opts).countP Query.isValue = s.values := by
  have trial (l : Line α) (t : Trial α) : (t.queries opts l).countP Query.isValue = 1 := by
    unfold Trial.queries
    split <;> rfl
  cases s with
  | declined _ => rfl
  | sought l trials =>
    rw [Search.queries, Search.values, List.countP_cons_of_pos rfl, Nat.add_comm]
    congr 1
    induction trials with
    | nil => rfl
    | cons t later ih =>
      rw [List.flatMap_cons, List.countP_append, trial, ih, List.length_cons, Nat.add_comm]

theorem countP_isGradient_queries (opts : Options α) (s : Search α) :
    (s.queries opts).countP Query.isGradient = s.passing opts := by
  have trial (l : Line α) (t : Trial α) :
      (t.queries opts l).countP Query.isGradient = if t.Passes opts l then 1 else 0 := by
    unfold Trial.queries
    split <;> rfl
  cases s with
  | declined _ => rfl
  | sought l trials =>
    rw [Search.queries, Search.passing, List.countP_cons_of_neg Bool.false_ne_true]
    induction trials with
    | nil => rfl
    | cons t later ih =>
      rw [List.flatMap_cons, List.countP_append, trial, ih, List.countP_cons, Nat.add_comm]
      simp only [decide_eq_true_eq]

end LineSearch

end QuasiNewton
