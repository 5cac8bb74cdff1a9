import QuasiNewton.Proofs.Descent

/-!
# Visits

The states in which the loop of a method stands, one for each iteration that succeeded and the one
where it began, each with the journal at that time. The loop ends in the state visited last
(`Method.Descends.getLast?_visits`), and what an iteration keeps holds at all visits
(`Method.forall_visits`).

Limits only cut the visits short: with a larger budget a loop that spent its budget goes on from
where it ended (`Method.Descends.perform_add`), a loop that converged is not affected
(`Method.Descends.perform_add_of_converged`), and with a smaller tolerance the loop visits at least
the same states (`Method.visits_prefix_of_tolerance`).
-/

namespace QuasiNewton

variable {α : Type} [Scalar α]

/-- How a run begins: the start point is checked, what earlier runs evaluated is forgotten, and the
gradient is asked for. -/
def Oracle.opening (o : Oracle α) (x₀ : List α) : Run α (List α) := do
  Run.ofExcept (checkPoint x₀)
  Run.amend Journal.resetTally
  (o.checked x₀.length).gradient x₀

theorem Oracle.perform_opening_eq_ok_iff {o : Oracle α} {x₀ g₀ : List α} {j j' : Journal α} :
    (o.opening x₀).perform j = (.ok g₀, j') ↔
      checkPoint x₀ = .ok () ∧
        ((o.checked x₀.length).gradient x₀).perform j.resetTally = (.ok g₀, j') := by
  rw [opening, Run.perform_ofExcept_bind_eq_ok_iff]
  constructor
  · rintro ⟨_, hx₀, h⟩
    exact ⟨hx₀, h⟩
  · rintro ⟨hx₀, h⟩
    exact ⟨(), hx₀, h⟩

theorem Problem.gradientAt_of_opening {p : Problem α} {x₀ g₀ : List α} {j j' : Journal α}
    (h : (p.oracle.opening x₀).perform j = (.ok g₀, j')) : p.GradientAt x₀.length x₀ g₀ :=
  (p.perform_checked_gradient_eq_ok_iff.mp (Oracle.perform_opening_eq_ok_iff.mp h).2).1

namespace Method

variable {σ : Type}

/-- A run up to where its loop begins, in a state for which room was reserved. -/
def opening (m : Method α σ) (o : Oracle α) (x₀ : List α) : Run α σ := do
  let g₀ ← o.opening x₀
  Run.reserve (m.start x₀ g₀)

/-- A run up to the end of its loop. -/
def loop (m : Method α σ) (limits : Stopping α) (o : Oracle α) (x₀ : List α) :
    Run α (Termination × σ) := do
  let s₀ ← m.opening o x₀
  m.descend limits.tolerance (o.checked x₀.length) limits.budget s₀

/-- The states in which the loop looks at the gradient, in order, with the journals there. -/
def visits (m : Method α σ) (tolerance : α) (o : Oracle α) :
    Nat → σ → Journal α → List (σ × Journal α)
  | left, s, j =>
    (s, j) ::
      if m.gradNorm s < tolerance then
        []
      else
        match left with
        | 0 => []
        | left + 1 =>
          match (m.advance o s).perform j with
          | (.ok (s', step), j') =>
            m.visits tolerance o left s' (j'.push (.noted (m.iterationRecord s' step)))
          | (.error _, _) => []

/-- The visits of a run; there are none if the run does not get to its loop. -/
def itinerary (m : Method α σ) (limits : Stopping α) (o : Oracle α) (x₀ : List α)
    (j : Journal α) : List (σ × Journal α) :=
  match (m.opening o x₀).perform j with
  | (.ok s₀, j₁) => m.visits limits.tolerance (o.checked x₀.length) limits.budget s₀ j₁
  | (.error _, _) => []

variable {m : Method α σ} {o : Oracle α} {x₀ : List α} {tolerance : α} {left : Nat} {s s₀ s' : σ}
  {j j' : Journal α}

theorem perform_opening_eq_ok_iff :
    (m.opening o x₀).perform j = (.ok s₀, j') ↔
      ∃ g₀, (o.opening x₀).perform j = (.ok g₀, j') ∧ m.start x₀ g₀ = some s₀ := by
  rw [opening, Run.perform_bind_eq_ok_iff]
  constructor
  · rintro ⟨g₀, j₁, hopening, hstart⟩
    obtain ⟨hs₀, rfl⟩ := Run.perform_reserve_eq_ok_iff.mp hstart
    exact ⟨g₀, hopening, hs₀⟩
  · rintro ⟨g₀, hopening, hstart⟩
    exact ⟨g₀, j', hopening, Run.perform_reserve_eq_ok_iff.mpr ⟨hstart, rfl⟩⟩

theorem minimize_eq_loop_bind (m : Method α σ) (limits : Stopping α) (o : Oracle α)
    (x₀ : List α) :
    m.minimize limits o x₀ =
      m.loop limits o x₀ >>= fun p => m.conclude (o.checked x₀.length) p.1 p.2 := by
  simp only [minimize, loop, opening, Oracle.opening, bind_assoc]

theorem perform_loop_eq_ok_iff {limits : Stopping α} {t : Termination} :
    (m.loop limits o x₀).perform j = (.ok (t, s), j') ↔
      ∃ s₀ j₁, (m.opening o x₀).perform j = (.ok s₀, j₁) ∧
        (m.descend limits.tolerance (o.checked x₀.length) limits.budget s₀).perform j₁ =
          (.ok (t, s), j') :=
  Run.perform_bind_eq_ok_iff

theorem perform_minimize_of_loop {limits : Stopping α} {t : Termination} {j₁ : Journal α}
    (h : (m.loop limits o x₀).perform j = (.ok (t, s), j₁)) :
    (m.minimize limits o x₀).perform j =
      (m.conclude (o.checked x₀.length) t s).perform j₁ := by
  rw [minimize_eq_loop_bind, Run.perform_bind, h]

theorem itinerary_eq {limits : Stopping α} {j₁ : Journal α}
    (h : (m.opening o x₀).perform j = (.ok s₀, j₁)) :
    m.itinerary limits o x₀ j =
      m.visits limits.tolerance (o.checked x₀.length) limits.budget s₀ j₁ := by
  rw [itinerary, h]

theorem descend_of_lt (hlt : m.gradNorm s < tolerance) (o : Oracle α) (left : Nat) :
    m.descend tolerance o left s = pure (.converged, s) := by
  cases left <;> rw [descend, if_pos hlt]

theorem visits_of_lt (hlt : m.gradNorm s < tolerance) (o : Oracle α) (left : Nat)
    (j : Journal α) : m.visits tolerance o left s j = [(s, j)] := by
  cases left <;> rw [visits, if_pos hlt]

theorem visits_zero (m : Method α σ) (tolerance : α) (o : Oracle α) (s : σ) (j : Journal α) :
    m.visits tolerance o 0 s j = [(s, j)] := by
  rw [visits, ite_self]

theorem visits_succ_of_ok (hlt : ¬ m.gradNorm s < tolerance) {step : α} {j₁ : Journal α}
    (h : (m.advance o s).perform j = (.ok (s', step), j₁)) :
    m.visits tolerance o (left + 1) s j =
      (s, j) ::
        m.visits tolerance o left s' (j₁.push (.noted (m.iterationRecord s' step))) := by
  rw [visits, if_neg hlt]
  simp only [h]

theorem visits_succ_of_error (hlt : ¬ m.gradNorm s < tolerance) {stop : Stop α} {j₁ : Journal α}
    (h : (m.advance o s).perform j = (.error stop, j₁)) :
    m.visits tolerance o (left + 1) s j = [(s, j)] := by
  rw [visits, if_neg hlt]
  simp only [h]

theorem exists_visits_eq_cons (m : Method α σ) (tolerance : α) (o : Oracle α) (left : Nat) (s : σ)
    (j : Journal α) : ∃ later, m.visits tolerance o left s j = (s, j) :: later := by
  cases left <;> exact ⟨_, rfl⟩

/-- Where the loop begins is its first visit. -/
theorem mem_take_visits (m : Method α σ) (tolerance : α) (o : Oracle α) (left k : Nat) (s : σ)
    (j : Journal α) : (s, j) ∈ (m.visits tolerance o left s j).take (k + 1) := by
  obtain ⟨later, hlater⟩ := m.exists_visits_eq_cons tolerance o left s j
  rw [hlater, List.take_succ_cons]
  exact List.mem_cons_self

theorem mem_visits (m : Method α σ) (tolerance : α) (o : Oracle α) (left : Nat) (s : σ)
    (j : Journal α) : (s, j) ∈ m.visits tolerance o left s j :=
  List.mem_of_mem_take (m.mem_take_visits tolerance o left 0 s j)

/-- Where a loop has a second visit, it has iterated. -/
theorem exists_of_visits_eq_cons {v : σ × Journal α} {later : List (σ × Journal α)}
    (h : m.visits tolerance o left s j = v :: later) (hne : later ≠ []) :
    ∃ left' s' step j', left = left' + 1 ∧ ¬ m.gradNorm s < tolerance ∧
      (m.advance o s).perform j = (.ok (s', step), j') ∧
      m.visits tolerance o left' s' (j'.push (.noted (m.iterationRecord s' step))) = later := by
  by_cases hlt : m.gradNorm s < tolerance
  · rw [visits_of_lt hlt] at h
    exact absurd (List.cons.inj h).2.symm hne
  · cases left with
    | zero =>
      rw [visits_zero] at h
      exact absurd (List.cons.inj h).2.symm hne
    | succ left =>
      rcases hadvance : (m.advance o s).perform j with ⟨stop | ⟨s', step⟩, j'⟩
      · rw [visits_succ_of_error hlt hadvance] at h
        exact absurd (List.cons.inj h).2.symm hne
      · rw [visits_succ_of_ok hlt hadvance] at h
        exact ⟨left, s', step, j', rfl, hlt, rfl, (List.cons.inj h).2⟩

/-- What an iteration and its record keep holds at all visits. -/
theorem forall_visits {I : σ → Journal α → Prop}
    (hadvance : ∀ {s s' step j j'}, I s j → (m.advance o s).perform j = (.ok (s', step), j') →
      I s' (j'.push (.noted (m.iterationRecord s' step)))) (tolerance : α) (left : Nat)
    (hs : I s j) : ∀ v ∈ m.visits tolerance o left s j, I v.1 v.2 := by
  induction left generalizing s j with
  | zero =>
    rw [visits_zero, List.forall_mem_singleton]
    exact hs
  | succ left ih =>
    by_cases hlt : m.gradNorm s < tolerance
    · rw [visits_of_lt hlt, List.forall_mem_singleton]
      exact hs
    · rcases h : (m.advance o s).perform j with ⟨stop | ⟨s', step⟩, j₁⟩
      · rw [visits_succ_of_error hlt h, List.forall_mem_singleton]
        exact hs
      · rw [visits_succ_of_ok hlt h, List.forall_mem_cons]
        exact ⟨hs, ih (hadvance hs h)⟩

/-! ### Where the loop ends -/

/-- One round of the loop that iterates and goes on. -/
theorem perform_descend_succ {step : α} {j₁ : Journal α} (hlt : ¬ m.gradNorm s < tolerance)
    (h : (m.advance o s).perform j = (.ok (s', step), j₁)) :
    (m.descend tolerance o (left + 1) s).perform j =
      (m.descend tolerance o left s').perform
        (j₁.push (.noted (m.iterationRecord s' step))) := by
  rw [descend, if_neg hlt, Run.perform_bind, h]
  rfl

/-- A loop that comes to its end, iteration by iteration. -/
inductive Descends (m : Method α σ) (tolerance : α) (o : Oracle α) :
    Nat → σ → Journal α → Termination → σ → Journal α → Prop where
  | converged {left : Nat} {s : σ} {j : Journal α} (hlt : m.gradNorm s < tolerance) :
      Descends m tolerance o left s j .converged s j
  | budgetSpent {s : σ} {j : Journal α} (hlt : ¬ m.gradNorm s < tolerance) :
      Descends m tolerance o 0 s j .budgetSpent s j
  | iterate {left : Nat} {s s₁ s' : σ} {step : α} {t : Termination} {j j₁ j' : Journal α}
      (hlt : ¬ m.gradNorm s < tolerance)
      (hadvance : (m.advance o s).perform j = (.ok (s₁, step), j₁))
      (hrest : Descends m tolerance o left s₁
        (j₁.push (.noted (m.iterationRecord s₁ step))) t s' j') :
      Descends m tolerance o (left + 1) s j t s' j'

theorem descends_of_perform {t : Termination}
    (h : (m.descend tolerance o left s).perform j = (.ok (t, s'), j')) :
    m.Descends tolerance o left s j t s' j' := by
  induction left generalizing s j with
  | zero =>
    rw [descend] at h
    split at h <;> cases h
    · exact .converged ‹_›
    · exact .budgetSpent ‹_›
  | succ left ih =>
    by_cases hlt : m.gradNorm s < tolerance
    · rw [descend, if_pos hlt] at h
      cases h
      exact .converged hlt
    · obtain ⟨s₁, step, j₁, hadvance, hrest⟩ := perform_descend_succ_of_not_lt hlt h
      exact .iterate hlt hadvance (ih hrest)

/-- From each visit the loop goes on as if it had begun there, with what is left of the budget. -/
theorem Invariant.exists_visits_eq {I : σ → Prop} (hI : m.Invariant o I) (hs : I s)
    {before after : List (σ × Journal α)} {v : σ × Journal α}
    (h : m.visits tolerance o left s j = before ++ v :: after) :
    ∃ rest, before.length + rest = left ∧ I v.1 ∧
      (m.iterate v.1).iteration = (m.iterate s).iteration + before.length ∧
      m.visits tolerance o rest v.1 v.2 = v :: after ∧
      (m.descend tolerance o left s).perform j = (m.descend tolerance o rest v.1).perform v.2 := by
  induction before generalizing left s j with
  | nil =>
    obtain ⟨later, hlater⟩ := m.exists_visits_eq_cons tolerance o left s j
    obtain ⟨rfl, -⟩ := List.cons.inj (hlater.symm.trans h)
    exact ⟨left, Nat.zero_add left, hs, rfl, h, rfl⟩
  | cons w before ih =>
    obtain ⟨left, s₁, step, j₁, rfl, hlt, hadvance, hvisits⟩ := exists_of_visits_eq_cons h
      (List.append_ne_nil_of_right_ne_nil before (List.cons_ne_nil v after))
    obtain ⟨hs₁, hcount⟩ := hI.advance hs hadvance
    obtain ⟨rest, hrest, hv, hcount', hafter, hdescend⟩ := ih hs₁ hvisits
    refine ⟨rest, ?_, hv, ?_, hafter, ?_⟩
    · rw [List.length_cons]
      omega
    · rw [hcount', hcount, List.length_cons]
      omega
    · rw [perform_descend_succ hlt hadvance, hdescend]

namespace Descends

variable {t : Termination}

/-- A loop ends either where the gradient is small or where the budget is spent. -/
theorem eq_converged_or_eq_budgetSpent (h : m.Descends tolerance o left s j t s' j') :
    t = .converged ∨ t = .budgetSpent := by
  induction h with
  | converged _ => exact Or.inl rfl
  | budgetSpent _ => exact Or.inr rfl
  | iterate _ _ _ ih => exact ih

theorem getLast?_visits (h : m.Descends tolerance o left s j t s' j') :
    (m.visits tolerance o left s j).getLast? = some (s', j') := by
  induction h with
  | converged hlt => rw [visits_of_lt hlt, List.getLast?_singleton]
  | budgetSpent _ => rw [visits_zero, List.getLast?_singleton]
  | iterate hlt hadvance _ ih =>
    rw [visits_succ_of_ok hlt hadvance, List.getLast?_cons, ih, Option.getD_some]

/-- The iterations are counted, so the visits are. -/
theorem length_visits {I : σ → Prop} (hI : m.Invariant o I) (hs : I s)
    (h : m.Descends tolerance o left s j t s' j') :
    (m.iterate s').iteration + 1 =
      (m.iterate s).iteration + (m.visits tolerance o left s j).length := by
  induction h with
  | converged hlt => rw [visits_of_lt hlt, List.length_singleton]
  | budgetSpent _ => rw [visits_zero, List.length_singleton]
  | iterate hlt hadvance _ ih =>
    obtain ⟨hs₁, hcount⟩ := hI.advance hs hadvance
    rw [ih hs₁, hcount, visits_succ_of_ok hlt hadvance, List.length_cons]
    omega

/-! ### Larger budgets -/

theorem length_visits_of_budgetSpent (h : m.Descends tolerance o left s j .budgetSpent s' j') :
    (m.visits tolerance o left s j).length = left + 1 := by
  -- the induction is for all ways to end, and the loop cannot have ended in another one
  generalize ht : Termination.budgetSpent = t at h
  induction h with
  | converged _ => cases ht
  | budgetSpent _ => rw [visits_zero, List.length_singleton]
  | iterate hlt hadvance _ ih => rw [visits_succ_of_ok hlt hadvance, List.length_cons, ih ht]

/-- With a larger budget a loop that spent its budget goes on from where it ended. -/
theorem perform_add (h : m.Descends tolerance o left s j .budgetSpent s' j') (extra : Nat) :
    (m.descend tolerance o (left + extra) s).perform j =
      (m.descend tolerance o extra s').perform j' := by
  generalize ht : Termination.budgetSpent = t at h
  induction h with
  | converged _ => cases ht
  | budgetSpent _ => rw [Nat.zero_add]
  | iterate hlt hadvance _ ih => rw [Nat.add_right_comm, perform_descend_succ hlt hadvance, ih ht]

theorem visits_prefix_add (h : m.Descends tolerance o left s j .budgetSpent s' j')
    (extra : Nat) : m.visits tolerance o left s j <+: m.visits tolerance o (left + extra) s j := by
  generalize ht : Termination.budgetSpent = t at h
  induction h with
  | converged _ => cases ht
  | @budgetSpent s j _ =>
    obtain ⟨later, hlater⟩ := exists_visits_eq_cons m tolerance o (0 + extra) s j
    rw [visits_zero, hlater]
    exact ⟨later, rfl⟩
  | iterate hlt hadvance _ ih =>
    rw [Nat.add_right_comm, visits_succ_of_ok hlt hadvance, visits_succ_of_ok hlt hadvance,
      List.prefix_cons_inj]
    exact ih ht

/-- A loop that converged needed none of the budget that was left. -/
theorem perform_add_of_converged (h : m.Descends tolerance o left s j .converged s' j')
    (extra : Nat) :
    (m.descend tolerance o (left + extra) s).perform j = (.ok (.converged, s'), j') := by
  generalize ht : Termination.converged = t at h ⊢
  induction h with
  | converged hlt =>
    rw [descend_of_lt hlt]
    rfl
  | budgetSpent _ => cases ht
  | iterate hlt hadvance _ ih => rw [Nat.add_right_comm, perform_descend_succ hlt hadvance, ih ht]

end Descends

/-! ### Smaller tolerances -/

/-- Where a larger tolerance lets the loop go on, a smaller one does, too. -/
theorem visits_prefix_of_tolerance {tolerance' : α}
    (htolerance : ∀ a : α, a < tolerance → a < tolerance') (o : Oracle α) (left : Nat) (s : σ)
    (j : Journal α) :
    m.visits tolerance' o left s j <+: m.visits tolerance o left s j := by
  induction left generalizing s j with
  | zero => simp only [visits_zero, List.prefix_rfl]
  | succ left ih =>
    by_cases hlt' : m.gradNorm s < tolerance'
    · obtain ⟨later, hlater⟩ := exists_visits_eq_cons m tolerance o (left + 1) s j
      rw [visits_of_lt hlt', hlater]
      exact ⟨later, rfl⟩
    · have hlt : ¬ m.gradNorm s < tolerance := fun h => hlt' (htolerance _ h)
      rcases h : (m.advance o s).perform j with ⟨stop | ⟨s', step⟩, j₁⟩
      · simp only [visits_succ_of_error hlt' h, visits_succ_of_error hlt h, List.prefix_rfl]
      · rw [visits_succ_of_ok hlt' h, visits_succ_of_ok hlt h, List.prefix_cons_inj]
        exact ih s' _

/-! ### Whole runs -/

section

variable {limits : Stopping α} {t : Termination} {out : Outcome α}

/-- A run that has visits got to its loop. -/
theorem exists_opening_of_itinerary (h : m.itinerary limits o x₀ j ≠ []) :
    ∃ s₀ j₁, (m.opening o x₀).perform j = (.ok s₀, j₁) := by
  rcases hopening : (m.opening o x₀).perform j with ⟨stop | s₀, j₁⟩
  · rw [itinerary, hopening] at h
    exact absurd rfl h
  · exact ⟨s₀, j₁, rfl⟩

theorem length_pos_of_itinerary (h : m.itinerary limits o x₀ j ≠ []) : 0 < x₀.length := by
  obtain ⟨s₀, j₁, hopening⟩ := exists_opening_of_itinerary h
  obtain ⟨g₀, hgradient, -⟩ := perform_opening_eq_ok_iff.mp hopening
  exact length_pos_of_checkPoint (Oracle.perform_opening_eq_ok_iff.mp hgradient).1

/-- A loop that comes to its end began where the run was opened. -/
theorem exists_descends_of_loop (h : (m.loop limits o x₀).perform j = (.ok (t, s), j')) :
    ∃ s₀ j₀, (m.opening o x₀).perform j = (.ok s₀, j₀) ∧
      m.Descends limits.tolerance (o.checked x₀.length) limits.budget s₀ j₀ t s j' := by
  obtain ⟨s₀, j₀, hopening, hdescend⟩ := perform_loop_eq_ok_iff.mp h
  exact ⟨s₀, j₀, hopening, descends_of_perform hdescend⟩

theorem getLast?_itinerary (h : (m.loop limits o x₀).perform j = (.ok (t, s), j')) :
    (m.itinerary limits o x₀ j).getLast? = some (s, j') := by
  obtain ⟨s₀, j₀, hopening, hdescends⟩ := exists_descends_of_loop h
  rw [itinerary_eq hopening]
  exact hdescends.getLast?_visits

/-- The state after the first iteration is visited. -/
theorem mem_itinerary {step : α} {j₁ : Journal α}
    (hopening : (m.opening o x₀).perform j = (.ok s₀, j₁))
    (hlt : ¬ m.gradNorm s₀ < limits.tolerance) (hbudget : 0 < limits.budget)
    (h : (m.advance (o.checked x₀.length) s₀).perform j₁ = (.ok (s', step), j')) :
    (s', j'.push (.noted (m.iterationRecord s' step))) ∈ m.itinerary limits o x₀ j := by
  obtain ⟨left, hleft⟩ := Nat.exists_eq_add_one.mpr hbudget
  rw [itinerary_eq hopening, hleft, visits_succ_of_ok hlt h]
  exact List.mem_cons_of_mem _ (m.mem_visits ..)

/-- From each of its visits a run goes on as if its loop had begun there. -/
theorem Invariant.exists_itinerary_eq {I : σ → Prop} (hI : m.Invariant (o.checked x₀.length) I)
    (hstart : ∀ {s₀ j₁}, (m.opening o x₀).perform j = (.ok s₀, j₁) →
      I s₀ ∧ (m.iterate s₀).iteration = 0)
    {before after : List (σ × Journal α)} {v : σ × Journal α}
    (h : m.itinerary limits o x₀ j = before ++ v :: after) :
    ∃ rest, before.length + rest = limits.budget ∧ I v.1 ∧
      (m.iterate v.1).iteration = before.length ∧
      m.visits limits.tolerance (o.checked x₀.length) rest v.1 v.2 = v :: after ∧
      (m.loop limits o x₀).perform j =
        (m.descend limits.tolerance (o.checked x₀.length) rest v.1).perform v.2 := by
  obtain ⟨s₀, j₁, hopening⟩ := exists_opening_of_itinerary (h ▸ List.append_ne_nil_of_right_ne_nil
    before (List.cons_ne_nil v after))
  obtain ⟨hs, hzero⟩ := hstart hopening
  rw [itinerary_eq hopening] at h
  obtain ⟨rest, hrest, hv, hcount, hvisits, hdescend⟩ := hI.exists_visits_eq hs h
  rw [hzero, Nat.zero_add] at hcount
  refine ⟨rest, hrest, hv, hcount, hvisits, ?_⟩
  rw [loop, Run.perform_bind, hopening]
  exact hdescend

/-- A run that has an outcome came to the end of its loop, and the outcome says how. -/
theorem exists_loop_of_minimize (h : (m.minimize limits o x₀).perform j = (.ok out, j')) :
    ∃ s j₁, (m.loop limits o x₀).perform j = (.ok (out.termination, s), j₁) ∧
      (m.conclude (o.checked x₀.length) out.termination s).perform j₁ = (.ok out, j') ∧
      (m.iterate s).iteration = out.iterations := by
  rw [minimize_eq_loop_bind, Run.perform_bind_eq_ok_iff] at h
  obtain ⟨⟨t, s⟩, j₁, hloop, hconclude⟩ := h
  obtain ⟨_, _, -, -, -, -, rfl⟩ := perform_conclude_eq_ok_iff.mp hconclude
  exact ⟨s, j₁, hloop, hconclude, rfl⟩

/-- The outcome of a run that spent its budget. -/
theorem outcome_of_budgetSpent {j₁ : Journal α}
    (hloop : (m.loop limits o x₀).perform j = (.ok (.budgetSpent, s), j₁))
    (h : (m.minimize limits o x₀).perform j = (.ok out, j')) :
    out.converged = false ∧ out.iterations = (m.iterate s).iteration ∧
      out.point = (m.iterate s).point := by
  rw [perform_minimize_of_loop hloop] at h
  obtain ⟨_, _, -, -, -, -, rfl⟩ := perform_conclude_eq_ok_iff.mp h
  exact ⟨rfl, rfl, rfl⟩

end

end Method

end QuasiNewton
