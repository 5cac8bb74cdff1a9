import QuasiNewton.Lbfgs.InPlace
import QuasiNewton.Proofs.Lbfgs.Agreement
import QuasiNewton.Proofs.Lbfgs.Iteration

/-!
# An iteration in place happens or does not happen

Although an iteration in place writes the parts of the state one after the other, it does the same
as to compute the next state apart and to let it take the place of the old one at the end
(`Lbfgs.State.perform_step`). So an iteration that stops leaves the state as it was, and attempts
that fail can be left out of a run of attempts.
-/

namespace QuasiNewton

namespace InPlace

variable {σ α β γ : Type} {s : σ}

theorem exists_perform_of_isOk {r : InPlace σ α β} {j : Journal α}
    (h : (r.perform s j).1.isOk = true) : ∃ b s' j', r.perform s j = (.ok b, s', j') := by
  rcases hr : r.perform s j with ⟨stop | b, s', j'⟩
  · rw [hr] at h
    cases h
  · exact ⟨b, s', j', rfl⟩

theorem exists_perform_of_not_isOk {r : InPlace σ α β} {j : Journal α}
    (h : (r.perform s j).1.isOk = false) : ∃ stop s' j', r.perform s j = (.error stop, s', j') := by
  rcases hr : r.perform s j with ⟨stop | b, s', j'⟩
  · exact ⟨stop, s', j', rfl⟩
  · rw [hr] at h
    cases h

/-- The next state takes the place of the old one if the run that computes it has an answer. -/
def commit (r : Run α (σ × β)) (s : σ) (j : Journal α) : Except (Stop α) β × σ × Journal α :=
  match r.perform j with
  | (.ok (s', b), j') => (.ok b, s', j')
  | (.error stop, j') => (.error stop, s, j')

theorem perform_ofRun_bind_eq_commit {r : Run α β} {k : β → InPlace σ α γ}
    {k' : β → Run α (σ × γ)} (h : ∀ b j, (k b).perform s j = commit (k' b) s j)
    (j : Journal α) : (ofRun r >>= k).perform s j = commit (r >>= k') s j := by
  rw [perform_bind, perform_ofRun, commit, Run.perform_bind]
  rcases r.perform j with ⟨stop | b, j'⟩
  · rfl
  · exact h b j'

theorem perform_ite_note_eq_commit {p : Prop} [Decidable p] {r : Record α}
    {k : Unit → InPlace σ α β} {k' : Unit → Run α (σ × β)}
    (h : ∀ j, (k ()).perform s j = commit (k' ()) s j) (j : Journal α) :
    (if p then ofRun (Run.note r) >>= k else k ()).perform s j =
      commit (if p then Run.note r >>= k' else k' ()) s j := by
  split
  · exact perform_ofRun_bind_eq_commit (fun _ => h) j
  · exact h j

end InPlace

namespace Lbfgs.State

open InPlace

variable {α : Type} [Scalar α] {A : Arithmetic α} {opts : LineSearch.Options α} {o : Oracle α}

theorem attempt_eq_commit (A : Arithmetic α) (opts : LineSearch.Options α) (o : Oracle α)
    (s : State α) (j : Journal α) : s.attempt A opts o j = commit (s.advance A opts o) s j := by
  rw [attempt, commit]
  rcases (s.advance A opts o).perform j with ⟨_ | ⟨_, _⟩, _⟩ <;> rfl

/-- An iteration in place is an attempt to compute the next state. -/
theorem perform_step (A : Arithmetic α) (opts : LineSearch.Options α) (o : Oracle α)
    (s : State α) (j : Journal α) : (step A opts o).perform s j = s.attempt A opts o j := by
  rw [attempt_eq_commit, step, perform_bind, perform_current]
  apply perform_ofRun_bind_eq_commit
  intro direction j
  apply perform_ofRun_bind_eq_commit
  intro slope j
  apply perform_ite_note_eq_commit
  intro j
  apply perform_ofRun_bind_eq_commit
  intro step j
  apply perform_ofRun_bind_eq_commit
  intro point j
  apply perform_ofRun_bind_eq_commit
  intro gradient j
  apply perform_ofRun_bind_eq_commit
  intro move j
  apply perform_ofRun_bind_eq_commit
  intro change j
  apply perform_ofRun_bind_eq_commit
  intro curvature j
  -- only here the two differ: one writes piece by piece what the other puts together
  rw [perform_bind, perform_push]
  rcases s.history.offer A move change with _ | ⟨stored, history⟩
  · rfl
  · cases stored
    · rfl
    · rfl

theorem state_eq_of_perform_step_eq_error {s s' : State α} {j j' : Journal α} {stop : Stop α}
    (h : (step A opts o).perform s j = (.error stop, s', j')) : s' = s := by
  rw [perform_step] at h
  rcases s.attempt_cases A opts o j with ⟨hok, -⟩ | ⟨-, hsame⟩
  · rw [h] at hok
    cases hok
  · rwa [h] at hsame

/-- If the functions answer without regard to the journal, so does an iteration in place. -/
theorem perform_step_congr (A : Arithmetic α) (opts : LineSearch.Options α) (ho : o.Steady)
    (s : State α) (j j' : Journal α) :
    ((step A opts o).perform s j).1 = ((step A opts o).perform s j').1 ∧
      ((step A opts o).perform s j).2.1 = ((step A opts o).perform s j').2.1 := by
  have hsame := (s.agrees_advance (.refl A) (fun _ _ _ _ => trivial) ho opts).answer_eq j j'
  simp only [perform_step, attempt_eq_commit, commit]
  revert hsame
  rcases (s.advance A opts o).perform j with ⟨_ | ⟨_, _⟩, _⟩ <;>
    rcases (s.advance A opts o).perform j' with ⟨_ | ⟨_, _⟩, _⟩ <;> rintro ⟨⟩ <;>
    exact ⟨rfl, rfl⟩

/-! ### Runs of attempts -/

/-- An attempt to iterate: the constants and the functions that it is given, the journal that it
finds, and its answer. The functions may take into account what the journal says of the past. -/
structure Attempt (α : Type) where
  options : LineSearch.Options α
  oracle : Oracle α
  journal : Journal α
  answer : Except (Stop α) α

/-- What does not depend on how an attempt ends. -/
def Attempt.given (a : Attempt α) : LineSearch.Options α × Oracle α :=
  (a.options, a.oracle)

/-- Attempts in place on one state, one after the other. -/
inductive Attempts (A : Arithmetic α) : State α → List (Attempt α) → State α → Prop where
  | nil (s : State α) : Attempts A s [] s
  | cons {s s₁ s' : State α} {a : Attempt α} {later : List (Attempt α)} {j₁ : Journal α}
      (hstep : (step A a.options a.oracle).perform s a.journal = (a.answer, s₁, j₁))
      (hlater : Attempts A s₁ later s') : Attempts A s (a :: later) s'

theorem Attempts.filter_isOk {s s' : State α} {log : List (Attempt α)} (h : Attempts A s log s') :
    Attempts A s (log.filter (·.answer.isOk)) s' := by
  induction h with
  | nil s => exact .nil s
  | @cons s s₁ s' a later j₁ hstep _ ih =>
    cases hanswer : a.answer with
    | ok b =>
      rw [List.filter_cons_of_pos (by rw [hanswer]; rfl)]
      exact .cons hstep ih
    | error stop =>
      rw [List.filter_cons_of_neg (by rw [hanswer]; exact Bool.false_ne_true)]
      rw [hanswer] at hstep
      -- the failed attempt left the state where the later attempts begin
      rwa [state_eq_of_perform_step_eq_error hstep] at ih

theorem Attempts.unique {s s₁ s₂ : State α} {log₁ log₂ : List (Attempt α)}
    (h₁ : Attempts A s log₁ s₁) (h₂ : Attempts A s log₂ s₂)
    (hgiven : log₁.map Attempt.given = log₂.map Attempt.given)
    (hsteady : ∀ a ∈ log₁, a.oracle.Steady) :
    log₁.map Attempt.answer = log₂.map Attempt.answer ∧ s₁ = s₂ := by
  induction h₁ generalizing log₂ with
  | nil s =>
    obtain rfl := List.map_eq_nil_iff.mp hgiven.symm
    cases h₂
    exact ⟨rfl, rfl⟩
  | @cons s s₁ s' a later j₁ hstep _ ih =>
    cases h₂ with
    | nil => cases hgiven
    | @cons _ t₁ _ b later' k₁ hstep' hlater' =>
      obtain ⟨⟨hoptions, horacle⟩, hlater⟩ : (a.options = b.options ∧ a.oracle = b.oracle) ∧
          later.map Attempt.given = later'.map Attempt.given := by
        simpa [Attempt.given] using hgiven
      obtain ⟨hanswer, hstate⟩ := perform_step_congr A a.options
        (hsteady a List.mem_cons_self) s a.journal b.journal
      rw [hstep, hoptions, horacle, hstep'] at hanswer hstate
      dsimp only at hanswer hstate
      subst hstate
      obtain ⟨hanswers, rfl⟩ := ih hlater' hlater
        (fun c hc => hsteady c (List.mem_cons_of_mem a hc))
      rw [List.map_cons, List.map_cons, hanswer, hanswers]
      exact ⟨rfl, rfl⟩

/-- An iteration in place that fails leaves the state as it was. So the attempts that fail can be
left out of a run, and what remains ends in the same state with the same answers. -/
theorem failed_attempts_leave_no_trace (A : Arithmetic α) :
    (∀ (opts : LineSearch.Options α) (o : Oracle α) (s s' : State α) (j j' : Journal α)
      (stop : Stop α), (step A opts o).perform s j = (.error stop, s', j') → s' = s) ∧
    (∀ (s s' : State α) (log : List (Attempt α)), Attempts A s log s' →
      Attempts A s (log.filter (·.answer.isOk)) s' ∧
      ((∀ a ∈ log, a.oracle.Steady) → ∀ (s'' : State α) (rest : List (Attempt α)),
        Attempts A s rest s'' →
        rest.map Attempt.given = (log.filter (·.answer.isOk)).map Attempt.given →
        rest.map Attempt.answer = (log.filter (·.answer.isOk)).map Attempt.answer ∧
          s'' = s')) := by
  constructor
  · intro opts o s s' j j' stop h
    exact state_eq_of_perform_step_eq_error h
  · intro s s' log hlog
    refine ⟨hlog.filter_isOk, ?_⟩
    intro hsteady s'' rest hrest hgiven
    obtain ⟨hanswers, hstate⟩ := hlog.filter_isOk.unique hrest hgiven.symm
      (fun a ha => hsteady a (List.mem_filter.mp ha).1)
    exact ⟨hanswers.symm, hstate.symm⟩

/-- In the valley an attempt with an infinite first step fails. One with the standard constants
succeeds after it, and it ends in the same way without it, whatever was counted before. -/
theorem failed_attempts_leave_no_trace_valley :
    ∃ (o : Oracle Float) (s s' : State Float) (stop : Stop Float) (b : Float),
      o = Problem.valley.oracle.checked 2 ∧ s = .initial 1 [3.0, -2.0] [6.0, -40.0] ∧
      (∃ j', (step .laned ⟨1e-4, 0.9, 1.0 / 0.0⟩ o).perform s {} = (.error stop, s, j')) ∧
      Attempts .laned s [⟨⟨1e-4, 0.9, 1.0 / 0.0⟩, o, {}, .error stop⟩, ⟨.standard, o, {}, .ok b⟩]
        s' ∧
      Attempts .laned s [⟨.standard, o, {}, .ok b⟩] s' ∧
      Attempts .laned s [⟨.standard, o, ⟨#[], ⟨5, 3⟩⟩, .ok b⟩] s' := by
  have steady : (Problem.valley.oracle.checked 2 : Oracle Float).Steady :=
    Problem.valley.steady_oracle.checked 2
  obtain ⟨stop, s₁, j₁, hfailing⟩ := exists_perform_of_not_isOk (α := Float)
    (r := step .laned ⟨1e-4, 0.9, 1.0 / 0.0⟩ (Problem.valley.oracle.checked 2))
    (s := .initial 1 [3.0, -2.0] [6.0, -40.0]) (j := {}) (by decide +kernel)
  obtain ⟨b, s', j', hgood⟩ := exists_perform_of_isOk (α := Float)
    (r := step .laned .standard (Problem.valley.oracle.checked 2))
    (s := .initial 1 [3.0, -2.0] [6.0, -40.0]) (j := {}) (by decide +kernel)
  obtain ⟨b', s'', j'', hagain⟩ := exists_perform_of_isOk (α := Float)
    (r := step .laned .standard (Problem.valley.oracle.checked 2))
    (s := .initial 1 [3.0, -2.0] [6.0, -40.0]) (j := ⟨#[], ⟨5, 3⟩⟩) (by decide +kernel)
  refine ⟨_, _, s', stop, b, rfl, rfl, ?_⟩
  -- nothing below depends on what the functions and the state are
  generalize (Problem.valley.oracle.checked 2 : Oracle Float) = o at *
  generalize (State.initial 1 [3.0, -2.0] [6.0, -40.0] : State Float) = s at *
  obtain rfl := (failed_attempts_leave_no_trace .laned).1 _ _ _ _ _ _ _ hfailing
  have hlog := Attempts.cons (a := ⟨_, _, _, _⟩) hfailing
    (.cons (a := ⟨_, _, _, _⟩) hgood (.nil s'))
  have hrest := Attempts.cons (a := ⟨_, _, _, _⟩) hagain (.nil s'')
  obtain ⟨hfiltered, hunique⟩ := (failed_attempts_leave_no_trace .laned).2 _ _ _ hlog
  obtain ⟨hanswers, rfl⟩ := hunique
    (List.forall_mem_cons.mpr ⟨steady, List.forall_mem_singleton.mpr steady⟩) _ _ hrest rfl
  obtain rfl : b' = b := Except.ok.inj (List.cons.inj hanswers).1
  exact ⟨⟨j₁, hfailing⟩, hlog, hfiltered, hrest⟩

end Lbfgs.State

end QuasiNewton
