import QuasiNewton.Proofs.Course
import QuasiNewton.Proofs.Double
import QuasiNewton.Proofs.Preservation

/-!
# Limits only cut runs short

Runs under different limits are one run that is stopped earlier or later
(`limits_only_cut_short`). A run that converged is not changed by a larger budget; a run that spent
its budget is an initial part of the one that may go on; and with a larger tolerance a run visits an
initial part of what it visits with a smaller one. All of this compares what is visited, with the
journals, so it covers the questions that are asked as well as the states.
-/

namespace QuasiNewton

variable {α : Type} [Scalar α]

theorem Method.Searches.invariant {σ : Type} {m : Method α σ} {A : Arithmetic α}
    {opts : LineSearch.Options α} {direction : σ → Option (List α)} {o : Oracle α}
    (hm : m.Searches A opts direction o) : m.Invariant o fun _ => True where
  advance _ h := by
    obtain ⟨_, hmoved⟩ := hm.advance h
    obtain ⟨-, -, -, -, -, -, hcount⟩ := hmoved
    exact ⟨trivial, hcount⟩

namespace Method

variable {σ : Type}

/-- Runs of a method that may depend on the limits: the limits decide where a run ends, and nothing
else. -/
structure OnlyCutShort (m : Stopping α → Method α σ) (o : Oracle α) (x₀ : List α)
    (j : Journal α) : Prop where
  /-- A run that converged is the same with a larger budget. -/
  converged : ∀ {t : α} {b b' : Nat} {out : Outcome α} {j' : Journal α}, b ≤ b' →
    ((m ⟨t, b⟩).minimize ⟨t, b⟩ o x₀).perform j = (.ok out, j') → out.converged = true →
    ((m ⟨t, b'⟩).minimize ⟨t, b'⟩ o x₀).perform j = (.ok out, j')
  /-- A run that has an outcome and did not converge has spent its budget. -/
  notConverged : ∀ {t : α} {b : Nat} {out : Outcome α} {j' : Journal α},
    ((m ⟨t, b⟩).minimize ⟨t, b⟩ o x₀).perform j = (.ok out, j') → out.converged = false →
    ∃ s j₁, ((m ⟨t, b⟩).loop ⟨t, b⟩ o x₀).perform j = (.ok (.budgetSpent, s), j₁)
  /-- A run that spent its budget, with or without an outcome, visits the first states of a run with
  a larger budget; up to its last question both ask the same. -/
  budgetSpent : ∀ {t : α} {b b' : Nat} {s : σ} {j₁ : Journal α}, b ≤ b' →
    ((m ⟨t, b⟩).loop ⟨t, b⟩ o x₀).perform j = (.ok (.budgetSpent, s), j₁) →
    ((m ⟨t, b⟩).itinerary ⟨t, b⟩ o x₀ j).length = b + 1 ∧
    ((m ⟨t, b⟩).itinerary ⟨t, b⟩ o x₀ j).getLast? = some (s, j₁) ∧
    (m ⟨t, b⟩).itinerary ⟨t, b⟩ o x₀ j <+: (m ⟨t, b'⟩).itinerary ⟨t, b'⟩ o x₀ j ∧
    (((m ⟨t, b⟩).minimize ⟨t, b⟩ o x₀).perform j).2.queries =
      j₁.queries ++ [.value ((m ⟨t, b⟩).iterate s).point] ∧
    j₁.queries <+: (((m ⟨t, b'⟩).minimize ⟨t, b'⟩ o x₀).perform j).2.queries
  /-- With a larger tolerance a run visits the first states of a run with a smaller one. -/
  tolerance : ∀ {t t' : α} {b : Nat} {out out' : Outcome α} {j₁ j₁' : Journal α}, t' ≤ t →
    ((m ⟨t, b⟩).minimize ⟨t, b⟩ o x₀).perform j = (.ok out, j₁) →
    ((m ⟨t', b⟩).minimize ⟨t', b⟩ o x₀).perform j = (.ok out', j₁') →
    out.iterations ≤ out'.iterations ∧
    ((m ⟨t, b⟩).itinerary ⟨t, b⟩ o x₀ j).length = out.iterations + 1 ∧
    ((m ⟨t', b⟩).itinerary ⟨t', b⟩ o x₀ j).length = out'.iterations + 1 ∧
    (m ⟨t, b⟩).itinerary ⟨t, b⟩ o x₀ j <+: (m ⟨t', b⟩).itinerary ⟨t', b⟩ o x₀ j

variable {m : Method α σ} {S : σ → Prop} {o : Oracle α} {f : Responder α} {x₀ : List α}
  {limits : Stopping α} {t : Termination} {s : σ} {out : Outcome α} {j j' : Journal α}

/-! ### The last question -/

/-- The last question of a run that got to the end of its loop. -/
theorem queries_conclude (ho : o.Counts) (t : Termination) (s : σ) (j : Journal α) :
    ((m.conclude o t s).perform j).2.queries = j.queries ++ [.value (m.iterate s).point] := by
  let C (j' : Journal α) : Prop := j'.queries = j.queries ++ [.value (m.iterate s).point]
  suffices h : (m.conclude o t s).Triple j (fun _ => C) (fun _ => C) from
    h.result (C := fun _ => C)
  refine triple_conclude (Run.triple_of_journal (C := C) (ho.value _ j).queries_eq) ?_
  intro value j₁ hj₁ tally r
  have hnoted : C (j₁.push (.noted r)) := (Journal.queries_push_noted j₁ r).trans hj₁
  exact ⟨fun _ _ => hnoted, fun _ _ => hnoted⟩

/-! ### One method under several limits -/

theorem perform_minimize_of_converged {t : α} {b b' : Nat} (hb : b ≤ b')
    (h : (m.minimize ⟨t, b⟩ o x₀).perform j = (.ok out, j')) (hout : out.converged = true) :
    (m.minimize ⟨t, b'⟩ o x₀).perform j = (.ok out, j') := by
  obtain ⟨s, j₁, hloop, hconclude, -⟩ := exists_loop_of_minimize h
  obtain ⟨s₀, j₀, hopening, hdescends⟩ := exists_descends_of_loop hloop
  have hconverged : out.termination = .converged := of_decide_eq_true hout
  rw [hconverged] at hconclude hdescends
  obtain ⟨extra, rfl⟩ := Nat.exists_eq_add_of_le hb
  have hdescend := hdescends.perform_add_of_converged extra
  rw [perform_minimize_of_loop (perform_loop_eq_ok_iff.mpr ⟨s₀, j₀, hopening, hdescend⟩), hconclude]

theorem exists_perform_loop_of_not_converged
    (h : (m.minimize limits o x₀).perform j = (.ok out, j')) (hout : out.converged = false) :
    ∃ s j₁, (m.loop limits o x₀).perform j = (.ok (.budgetSpent, s), j₁) := by
  obtain ⟨s, j₁, hloop, -, -⟩ := exists_loop_of_minimize h
  obtain ⟨s₀, j₀, -, hdescends⟩ := exists_descends_of_loop hloop
  obtain hconverged | hspent := hdescends.eq_converged_or_eq_budgetSpent
  · exact absurd hconverged (of_decide_eq_false hout)
  · exact ⟨s, j₁, hspent ▸ hloop⟩

/-- With a larger budget a run goes on from where its budget was spent. -/
theorem perform_minimize_of_budgetSpent {t : α} {b : Nat} {j₁ : Journal α}
    (h : (m.loop ⟨t, b⟩ o x₀).perform j = (.ok (.budgetSpent, s), j₁)) (extra : Nat) :
    (m.minimize ⟨t, b + extra⟩ o x₀).perform j =
      (m.descend t (o.checked x₀.length) extra s >>= fun p =>
        m.conclude (o.checked x₀.length) p.1 p.2).perform j₁ := by
  obtain ⟨s₀, j₀, hopening, hdescends⟩ := exists_descends_of_loop h
  have hloop : (m.loop ⟨t, b + extra⟩ o x₀).perform j =
      (m.descend t (o.checked x₀.length) extra s).perform j₁ := by
    rw [loop, Run.perform_bind, hopening]
    exact hdescends.perform_add extra
  rw [minimize_eq_loop_bind, Run.perform_bind, Run.perform_bind, hloop]

theorem itinerary_prefix_of_budgetSpent {t : α} {b : Nat} {j₁ : Journal α}
    (h : (m.loop ⟨t, b⟩ o x₀).perform j = (.ok (.budgetSpent, s), j₁)) (extra : Nat) :
    m.itinerary ⟨t, b⟩ o x₀ j <+: m.itinerary ⟨t, b + extra⟩ o x₀ j := by
  obtain ⟨s₀, j₀, hopening, hdescends⟩ := exists_descends_of_loop h
  rw [itinerary_eq hopening, itinerary_eq hopening]
  exact hdescends.visits_prefix_add extra

theorem Invariant.length_itinerary {I : σ → Prop} (hI : m.Invariant (o.checked x₀.length) I)
    (hstart : ∀ {g s}, m.start x₀ g = some s → I s ∧ (m.iterate s).iteration = 0)
    (h : (m.minimize limits o x₀).perform j = (.ok out, j')) :
    (m.itinerary limits o x₀ j).length = out.iterations + 1 := by
  obtain ⟨s, j₁, hloop, -, hcount⟩ := exists_loop_of_minimize h
  obtain ⟨s₀, j₀, hopening, hdescends⟩ := exists_descends_of_loop hloop
  obtain ⟨g₀, -, hs₀⟩ := perform_opening_eq_ok_iff.mp hopening
  obtain ⟨hinit, hzero⟩ := hstart hs₀
  have hlength := hdescends.length_visits hI hinit
  rw [hzero, Nat.zero_add, hcount] at hlength
  rw [itinerary_eq hopening, hlength]

theorem itinerary_prefix_of_tolerance {t t' : α} (ht : ∀ a : α, a < t' → a < t) (b : Nat)
    (o : Oracle α) (x₀ : List α) (j : Journal α) :
    m.itinerary ⟨t, b⟩ o x₀ j <+: m.itinerary ⟨t', b⟩ o x₀ j := by
  rw [itinerary, itinerary]
  rcases (m.opening o x₀).perform j with ⟨stop | s₀, j₁⟩
  · exact List.prefix_rfl
  · exact visits_prefix_of_tolerance ht _ _ _ _

/-! ### Questions are not taken back -/

theorem queries_prefix_of_budgetSpent (hm : 0 < x₀.length → m.Keeps x₀.length S) {t : α}
    {b : Nat} {j₁ : Journal α}
    (h : (m.loop ⟨t, b⟩ f.oracle x₀).perform j = (.ok (.budgetSpent, s), j₁)) (extra : Nat) :
    j₁.queries <+: ((m.minimize ⟨t, b + extra⟩ f.oracle x₀).perform j).2.queries := by
  obtain ⟨hn, hs, -⟩ := forall_itinerary hm (f.keeps_asked x₀.length []) List.nil_prefix _ _
    (List.mem_of_getLast? (getLast?_itinerary h))
  let C (j : Journal α) : Prop := j₁.queries <+: j.queries
  have ho : (f.oracle.checked x₀.length).Keeps x₀.length C fun _ => C := f.keeps_asked _ _
  rw [perform_minimize_of_budgetSpent h]
  refine Run.Triple.result (C := fun _ => C) ?_
  apply (triple_descend (hm hn) ho t extra hs List.prefix_rfl).bind
  rintro ⟨e, s'⟩ j₂ ⟨-, hj₂⟩
  apply Run.triple_of_journal (C := C)
  change j₁.queries <+: _
  rw [queries_conclude (f.counts_checked _)]
  exact hj₂.trans (List.prefix_append _ _)

theorem onlyCutShort {A : Arithmetic α} {opts : LineSearch.Options α}
    {direction : σ → Option (List α)} (hm : 0 < x₀.length → m.Keeps x₀.length S)
    (hsearches : m.Searches A opts direction (f.oracle.checked x₀.length))
    (hstart : ∀ {g s}, m.start x₀ g = some s → (m.iterate s).iteration = 0)
    (htrans : ∀ {a b c : α}, a < b → b ≤ c → a < c) (j : Journal α) :
    OnlyCutShort (fun _ => m) f.oracle x₀ j where
  converged hb h hout := perform_minimize_of_converged hb h hout
  notConverged h hout := exists_perform_loop_of_not_converged h hout
  budgetSpent := by
    intro t b b' s j₁ hb h
    obtain ⟨extra, rfl⟩ := Nat.exists_eq_add_of_le hb
    refine ⟨?_, getLast?_itinerary h, itinerary_prefix_of_budgetSpent h extra, ?_,
      queries_prefix_of_budgetSpent hm h extra⟩
    · obtain ⟨s₀, j₀, hopening, hdescends⟩ := exists_descends_of_loop h
      rw [itinerary_eq hopening]
      exact hdescends.length_visits_of_budgetSpent
    · rw [perform_minimize_of_loop h]
      exact queries_conclude (f.counts_checked _) _ _ _
  tolerance := by
    intro t t' b out out' j₁ j₁' ht h h'
    have hcounts := hsearches.invariant
    have hlength := hcounts.length_itinerary (fun hs => ⟨trivial, hstart hs⟩) h
    have hlength' := hcounts.length_itinerary (fun hs => ⟨trivial, hstart hs⟩) h'
    have hprefix := m.itinerary_prefix_of_tolerance (fun _ ha => htrans ha ht) b f.oracle x₀ j
    have hle := hprefix.length_le
    exact ⟨by omega, hlength, hlength', hprefix⟩

end Method

/-! ### Both solvers -/

/-- The solver with other limits. -/
def Lbfgs.within (solver : Lbfgs α) (limits : Stopping α) : Lbfgs α :=
  ⟨{ solver.options with toStopping := limits }⟩

/-- The solver with other limits. -/
def SteepestDescent.within (solver : SteepestDescent α) (limits : Stopping α) :
    SteepestDescent α :=
  { solver with toStopping := limits }

/-- Whatever the solver, the functions and the start point, limits only cut runs short. -/
theorem limits_only_cut_short {A : Arithmetic Float} (hA : A.Standard) (f : Responder Float)
    (x₀ : List Float) (j : Journal Float) :
    (∀ solver : Lbfgs Float,
      Method.OnlyCutShort (fun limits => (solver.within limits).method A) f.oracle x₀ j) ∧
    (∀ solver : SteepestDescent Float,
      Method.OnlyCutShort (fun limits => (solver.within limits).method A) f.oracle x₀ j) := by
  constructor
  · intro solver
    exact Method.onlyCutShort (fun hn => solver.keeps_method hA.lawful hn)
      (solver.searches_method A _) Lbfgs.State.iteration_of_create Double.lt_of_lt_of_le j
  · intro solver
    exact Method.onlyCutShort (fun hn => solver.keeps_method hA.lawful hn)
      (solver.searches_method A _) SteepestDescent.iteration_of_start Double.lt_of_lt_of_le j

/-- In the valley, L-BFGS with a budget of two and of five iterations, and steepest descent with two
tolerances that are met after two and after four iterations. -/
theorem limits_only_cut_short_valley :
    (∃ m : Stopping Float → Method Float (Lbfgs.State Float), ∃ s j₁,
      m = (fun limits => ((⟨.ofSettings []⟩ : Lbfgs Float).within limits).method .laned) ∧
      ((m ⟨1e-6, 2⟩).loop ⟨1e-6, 2⟩ (Responder.ofProblem .valley).oracle [3.0, -2.0]).perform {} =
        (.ok (.budgetSpent, s), j₁) ∧
      ((m ⟨1e-6, 2⟩).itinerary ⟨1e-6, 2⟩ (Responder.ofProblem .valley).oracle [3.0, -2.0]
        {}).length = 3 ∧
      (m ⟨1e-6, 2⟩).itinerary ⟨1e-6, 2⟩ (Responder.ofProblem .valley).oracle [3.0, -2.0] {} <+:
        (m ⟨1e-6, 5⟩).itinerary ⟨1e-6, 5⟩ (Responder.ofProblem .valley).oracle [3.0, -2.0] {}) ∧
    (∃ solver : SteepestDescent Float, ∃ out out' j₁ j₁',
      ((solver.within ⟨10.0, 20⟩).minimize .sequential (Responder.ofProblem .valley).oracle
        [3.0, -2.0]).perform {} = (.ok out, j₁) ∧
      ((solver.within ⟨5.0, 20⟩).minimize .sequential (Responder.ofProblem .valley).oracle
        [3.0, -2.0]).perform {} = (.ok out', j₁') ∧
      (5.0 : Float) ≤ 10.0 ∧ out.iterations ≤ out'.iterations) := by
  constructor
  · have hrun : (((((⟨.ofSettings []⟩ : Lbfgs Float).within ⟨1e-6, 2⟩).method .laned).loop
        ⟨1e-6, 2⟩ (Responder.ofProblem .valley).oracle [3.0, -2.0]).perform {}).1.toOption.map
          Prod.fst = some .budgetSpent := by
      decide +kernel
    obtain ⟨⟨_, s⟩, j₁, hloop, rfl⟩ := Run.exists_perform_of_map_eq_some hrun
    have hle : 2 ≤ 5 := by decide
    obtain ⟨hlength, -, hprefix, -, -⟩ :=
      ((limits_only_cut_short .laned (Responder.ofProblem .valley) [3.0, -2.0] {}).1
        ⟨.ofSettings []⟩).budgetSpent hle hloop
    exact ⟨_, s, j₁, rfl, hloop, hlength, hprefix⟩
  · have isOk (t : Float) (ht : t = 10.0 ∨ t = 5.0) :
        ((((⟨⟨1e-6, 20⟩, .standard⟩ : SteepestDescent Float).within ⟨t, 20⟩).minimize .sequential
          (Responder.ofProblem .valley).oracle [3.0, -2.0]).perform {}).1.isOk = true := by
      rcases ht with rfl | rfl <;> decide +kernel
    obtain ⟨out, j₁, h⟩ := Run.exists_perform_of_isOk (isOk 10.0 (Or.inl rfl))
    obtain ⟨out', j₁', h'⟩ := Run.exists_perform_of_isOk (isOk 5.0 (Or.inr rfl))
    have hle : (5.0 : Float) ≤ 10.0 := by decide +kernel
    have hiterations :=
      (((limits_only_cut_short .sequential (Responder.ofProblem .valley) [3.0, -2.0] {}).2
        ⟨⟨1e-6, 20⟩, .standard⟩).tolerance hle h h').1
    exact ⟨_, out, out', j₁, j₁', h, h', hle, hiterations⟩

end QuasiNewton
