import QuasiNewton.Proofs.Agreement
import QuasiNewton.Proofs.Course
import QuasiNewton.Proofs.Lbfgs.Room
import QuasiNewton.Proofs.Visits
import QuasiNewton.Proofs.Zero

/-!
# Stalls

An iteration of L-BFGS that does not leave the point where it began comes to nothing: it finds the
gradient that was known, so the pair that it offers is zero and the guard refuses it. The next
iteration begins as this one did. It asks the same questions, takes the same step and comes to
nothing, too, and so it goes on until the budget is spent (`Lbfgs.stall_absorbing`).
-/

namespace QuasiNewton

open Double (IsZero)

variable {α : Type}

/-! ### The same questions again -/

/-- From `j` to `j'` the same was asked as from `k` to `k'`. -/
def Journal.InStep (j k j' k' : Journal α) : Prop :=
  ∃ asked, j.Asks asked j' ∧ k.Asks asked k'

theorem Oracle.Steady.agrees_inStep {o : Oracle α} (ho : o.Steady) (hcounts : o.Counts)
    (j k : Journal α) : o.Agrees (j.InStep k) o where
  value x := by
    rintro j' k' ⟨asked, hj, hk⟩
    obtain hmisfit | ⟨hanswer, -⟩ := ho.value x j' k' trivial
    · exact Or.inl hmisfit
    · exact Or.inr ⟨hanswer, _, hj.append (hcounts.value x j'), hk.append (hcounts.value x k')⟩
  gradient x := by
    rintro j' k' ⟨asked, hj, hk⟩
    obtain hmisfit | ⟨hanswer, -⟩ := ho.gradient x j' k' trivial
    · exact Or.inl hmisfit
    · exact Or.inr ⟨hanswer, _, hj.append (hcounts.gradient x j'),
        hk.append (hcounts.gradient x k')⟩

namespace Lbfgs

section

variable [Scalar α] {A : Arithmetic α} {o : Oracle α} {step : α} {asked : List (Query α)}

/-- An iteration can be made again, under another number and whatever was asked before it. -/
theorem Iteration.again {opts : LineSearch.Options α} {s s' : State α} {j j' : Journal α}
    (i : Iteration A opts o s j s' step j') (ho : o.Steady) (hcounts : o.Counts)
    (hasks : j.Asks asked j') (count : Nat) (k : Journal α) :
    ∃ k', k.Asks asked k' ∧ ∃ i' : Iteration A opts o { s with iteration := count } k
      { s' with iteration := count + 1 } step k', i'.stored = i.stored := by
  have hagrees := ho.agrees_inStep hcounts j k
  -- the number of the state is in its records and nowhere else
  have hwarned : j.InStep k
      (if 0.0 ≤ i.slope then j.push (.noted (.nonDescent name s.iteration i.slope)) else j)
      (if 0.0 ≤ i.slope then k.push (.noted (.nonDescent name count i.slope)) else k) :=
    ⟨[], .ite_note j _, .ite_note k _⟩
  obtain ⟨searched, hsearch, hsearched⟩ :=
    (LineSearch.agrees_search (.refl A) hagrees opts s.point i.direction s.gradient).exists_ok
      i.search_eq hwarned
  obtain ⟨evaluated, hgradient, asked', hj, hk⟩ :=
    (hagrees.gradient s'.point).exists_ok i.gradient_eq hsearched
  obtain rfl : asked' = asked := by
    refine Journal.Asks.unique ?_ hasks
    rw [i.journal_eq]
    simpa using hj.append (.ite_note i.evaluated _)
  refine ⟨if !i.stored then evaluated.push (.noted (.skipped count i.curvature)) else evaluated,
    by simpa using hk.append (.ite_note evaluated _), ?_⟩
  exact ⟨{ i with
    searched
    evaluated
    search_eq := hsearch
    gradient_eq := hgradient
    iteration_eq := rfl
    journal_eq := rfl }, rfl⟩

/-! ### Iterations that come to nothing -/

/-- From one visit to the next there is an iteration with this step and these questions that comes
to nothing: its pair is refused, and only the number of the state changes. -/
structure Idles (A : Arithmetic α) (solver : Lbfgs α) (o : Oracle α) (step : α)
    (asked : List (Query α)) (v w : State α × Journal α) : Prop where
  state_eq : w.1 = { v.1 with iteration := v.1.iteration + 1 }
  asks : v.2.Asks asked w.2
  exists_refused : ∃ j', w.2 = j'.push (.noted ((solver.method A).iterationRecord w.1 step)) ∧
    ∃ i : Iteration A solver.options.lineSearch o v.1 v.2 w.1 step j', i.stored = false

namespace Idles

variable {solver : Lbfgs α} {v w : State α × Journal α}

/-- What came to nothing comes to nothing again. -/
theorem next (h : Idles A solver o step asked v w) (ho : o.Steady) (hcounts : o.Counts) :
    ∃ w', Idles A solver o step asked w w' := by
  obtain ⟨s, j⟩ := v
  obtain ⟨s', k⟩ := w
  obtain ⟨hstate, hasks, j', hjournal, i, hrefused⟩ := h
  dsimp only at hstate hjournal i hasks
  subst hstate hjournal
  -- the state that was reached is the old one under the next number
  obtain ⟨k', hk', i', hstored⟩ := i.again ho hcounts hasks.of_push_note (s.iteration + 1)
    (j'.push (.noted ((solver.method A).iterationRecord
      { s with iteration := s.iteration + 1 } step)))
  exact ⟨(_, k'.push (.noted ((solver.method A).iterationRecord
    { s with iteration := s.iteration + 1 + 1 } step))), rfl, hk'.push_note _, k', rfl, i',
    hstored.trans hrefused⟩

/-- From there the loop does not get away before its budget is spent. -/
theorem visits (h : Idles A solver o step asked v w) (ho : o.Steady) (hcounts : o.Counts)
    {tolerance : α} (hlt : ¬ (solver.method A).gradNorm v.1 < tolerance) (left : Nat) :
    ((solver.method A).visits tolerance o left v.1 v.2).IsChain (Idles A solver o step asked) ∧
      ((solver.method A).visits tolerance o left v.1 v.2).length = left + 1 ∧
      ∃ j', ((solver.method A).descend tolerance o left v.1).perform v.2 =
        (.ok (.budgetSpent, { v.1 with iteration := v.1.iteration + left }), j') := by
  induction left generalizing v w with
  | zero =>
    rw [Method.visits_zero, Method.descend, if_neg hlt]
    exact ⟨List.isChain_singleton _, rfl, v.2, rfl⟩
  | succ left ih =>
    obtain ⟨w', hnext⟩ := h.next ho hcounts
    obtain ⟨j', hjournal, i, -⟩ := h.exists_refused
    have hadvance : ((solver.method A).advance o v.1).perform v.2 = (.ok (w.1, step), j') :=
      State.perform_advance_eq_ok_iff.mpr ⟨i⟩
    have hlt' : ¬ (solver.method A).gradNorm w.1 < tolerance := by
      rw [h.state_eq]
      exact hlt
    obtain ⟨hchain, hlength, j'', hdescend⟩ := ih hnext hlt'
    rw [Method.visits_succ_of_ok hlt hadvance, Method.perform_descend_succ hlt hadvance, ← hjournal]
    refine ⟨?_, ?_, j'', ?_⟩
    · obtain ⟨later, hlater⟩ := (solver.method A).exists_visits_eq_cons tolerance o left w.1 w.2
      rw [hlater] at hchain ⊢
      exact List.isChain_cons_cons.mpr ⟨h, hchain⟩
    · rw [List.length_cons, hlength]
    · rw [hdescend, h.state_eq, Nat.add_right_comm, Nat.add_assoc]

end Idles

end

/-! ### Iterations that stay where they are -/

variable {A : Arithmetic Float} {p : Problem Float} {n : Nat}

theorem not_leastCurvature_lt {c : Float} (hc : IsZero c) : ¬ History.leastCurvature < c := by
  obtain rfl | rfl := hc <;> decide

/-- An iteration that does not leave a finite point where the gradient is known. -/
theorem Iteration.comes_to_nothing {opts : LineSearch.Options Float} {s s' : State Float}
    {step : Float} {j j' : Journal Float} (i : Iteration A opts (p.oracle.checked n) s j s' step j')
    (hA : A.Standard) (hn : 0 < n) (hs : s.Shaped A n)
    (hgradient : p.GradientAt n s.point s.gradient) (hfinite : ∀ a ∈ s.point, a.isFinite = true)
    (hpoint : s'.point = s.point) :
    i.stored = false ∧ s' = { s with iteration := s.iteration + 1 } := by
  have hs' := i.shaped hA.lawful hn (p.shapedAt_checked n) hs
  have hsame : s'.gradient = s.gradient := by
    have hgradient' := (p.perform_checked_gradient_eq_ok_iff.mp i.gradient_eq).1
    rw [hpoint] at hgradient'
    exact Except.ok.inj (hgradient'.eq_ok.symm.trans hgradient.eq_ok)
  have hmove : ∀ d ∈ i.move, IsZero d := by
    rw [i.move_eq_zipWith hA.lawful hn hs hs', hpoint]
    exact isZero_zipWith_sub_self hfinite
  have hchange : ∀ d ∈ i.change, IsZero d := by
    rw [i.change_eq_zipWith hA.lawful hn hs hs', hsame]
    exact isZero_zipWith_sub_self hgradient.finite
  have hcurvature := hA.isZero_inner hmove hchange i.curvature_eq
  obtain ⟨hlt, -, -⟩ | ⟨-, hrefused, hhistory⟩ := i.offer_cases
  · exact absurd hlt (not_leastCurvature_lt hcurvature)
  · refine ⟨hrefused, ?_⟩
    obtain ⟨⟨point, gradient, count⟩, history⟩ := s'
    obtain rfl := hpoint
    obtain rfl := hsame
    obtain rfl := hhistory
    rw [← i.iteration_eq]

variable {solver : Lbfgs Float} {later : List (State Float × Journal Float)}
  {v w : State Float × Journal Float}

theorem exists_idles (hA : A.Standard) (hn : 0 < n) {tolerance : Float} {left : Nat}
    (hvisits : (solver.method A).visits tolerance (p.oracle.checked n) left v.1 v.2 =
      v :: w :: later) (hs : v.1.Shaped A n) (hgradient : p.GradientAt n v.1.point v.1.gradient)
    (hfinite : ∀ a ∈ v.1.point, a.isFinite = true) (hpoint : w.1.point = v.1.point) :
    ¬ (solver.method A).gradNorm v.1 < tolerance ∧
      ∃ step asked, Idles A solver (p.oracle.checked n) step asked v w := by
  obtain ⟨left', s', step, j', rfl, hlt, hadvance, hlater⟩ :=
    Method.exists_of_visits_eq_cons hvisits (List.cons_ne_nil w later)
  obtain ⟨later', hlater'⟩ := (solver.method A).exists_visits_eq_cons tolerance
    (p.oracle.checked n) left' s' (j'.push (.noted ((solver.method A).iterationRecord s' step)))
  obtain ⟨rfl, -⟩ := List.cons.inj (hlater.symm.trans hlater')
  obtain ⟨i⟩ := State.perform_advance_eq_ok_iff.mp hadvance
  obtain ⟨hrefused, hstate⟩ := i.comes_to_nothing hA hn hs hgradient hfinite hpoint
  obtain ⟨search, hmoved⟩ := (solver.searches_method A _).advance hadvance
  have hasks := hmoved.asks ((Responder.ofProblem p).counts_checked n)
  exact ⟨hlt, step, _, hstate, hasks.push_note _, j', rfl, i, hrefused⟩

/-- A stall is absorbing: once an iteration does not leave a finite point, it and all later ones
come to nothing, with one step and the same questions, until the budget is spent. If the run has an
outcome, it did not converge, and it ends at that point. -/
theorem stall_absorbing (hA : A.Standard) (p : Problem Float) (solver : Lbfgs Float)
    (x₀ : List Float) (j : Journal Float) {before later : List (State Float × Journal Float)}
    {v w : State Float × Journal Float}
    (hvisits : (solver.method A).itinerary solver.options.toStopping p.oracle x₀ j =
      before ++ v :: w :: later)
    (hfinite : ∀ a ∈ v.1.point, a.isFinite = true) (hpoint : w.1.point = v.1.point) :
    (∃ step asked, (v :: w :: later).IsChain
      (Idles A solver (p.oracle.checked x₀.length) step asked)) ∧
    (before ++ v :: w :: later).length = solver.options.budget + 1 ∧
    ∀ out j', (solver.minimize A p.oracle x₀).perform j = (.ok out, j') →
      out.converged = false ∧ out.iterations = solver.options.budget ∧
        out.point = v.1.point := by
  have hne : (solver.method A).itinerary solver.options.toStopping p.oracle x₀ j ≠ [] := by
    rw [hvisits]
    exact List.append_ne_nil_of_right_ne_nil before (List.cons_ne_nil v _)
  have hn := Method.length_pos_of_itinerary hne
  have hstart {g₀ : List Float} (hg₀ : p.GradientAt x₀.length x₀ g₀) :
      (State.initial solver.options.memory x₀ g₀).Shaped A x₀.length ∧
        Iterate.Sound p x₀.length ⟨x₀, g₀, 0⟩ :=
    ⟨State.shaped_initial _ rfl hg₀.length_eq, rfl, hg₀⟩
  obtain ⟨rest, hrest, ⟨hs, -, hgradient⟩, hcount, hloop, hdescend⟩ :=
    (solver.invariant_method hA.lawful hn p).exists_itinerary_eq
      (fun hopening => by
        obtain ⟨-, g₀, hopened, rfl⟩ := perform_opening_eq_ok_iff.mp hopening
        exact ⟨hstart (Problem.gradientAt_of_opening hopened), rfl⟩) hvisits
  obtain ⟨hlt, step, asked, hidles⟩ := exists_idles hA hn hloop hs hgradient hfinite hpoint
  obtain ⟨hchain, hlength, j₁, hspent⟩ := hidles.visits (p.steady_oracle.checked _)
    ((Responder.ofProblem p).counts_checked _) hlt rest
  rw [hloop] at hchain hlength
  refine ⟨⟨step, asked, hchain⟩, ?_, ?_⟩
  · rw [List.length_append, hlength]
    omega
  · intro out j' h
    obtain ⟨hconverged, hiterations, hend⟩ :=
      Method.outcome_of_budgetSpent (hdescend.trans hspent) h
    refine ⟨hconverged, ?_, hend⟩
    rw [hiterations, ← hrest, ← hcount]
    rfl

/-- Two slopes that meet at 2³⁰. There the gradient is that of neither. -/
def crease : Problem Float :=
  .ofFunctions
    (fun x => if x.headD 0.0 ≤ 1073741824.0 then 1073741824.0 - x.headD 0.0
      else 2.0 * (x.headD 0.0 - 1073741824.0))
    (List.map fun a => if a < 1073741824.0 then -1.0 else if a ≤ 1073741824.0 then 1.0 else 2.0)

/-- The first iteration leads to the crease and stores a pair. There no step against the gradient
decreases the objective, and the one that the search is left with is lost in rounding. -/
theorem stall_absorbing_crease :
    ∃ before v w later,
      ((⟨.ofSettings [.budget 3]⟩ : Lbfgs Float).method .laned).itinerary ⟨1e-6, 3⟩ crease.oracle
        [1073741826.0] {} = before ++ v :: w :: later ∧
      v.1.point = [1073741824.0] ∧ (∀ a ∈ v.1.point, a.isFinite = true) ∧ v.1.history.size = 1 ∧
      w.1.point = v.1.point ∧
      (∃ step asked, (v :: w :: later).IsChain
        (Idles .laned ⟨.ofSettings [.budget 3]⟩ (crease.oracle.checked 1) step asked)) ∧
      (before ++ v :: w :: later).length = 4 ∧
      ∃ out j', ((⟨.ofSettings [.budget 3]⟩ : Lbfgs Float).minimize .laned crease.oracle
          [1073741826.0]).perform {} = (.ok out, j') ∧
        out.converged = false ∧ out.iterations = 3 ∧ out.point = [1073741824.0] := by
  have hvisits : ((((⟨.ofSettings [.budget 3]⟩ : Lbfgs Float).method .laned).itinerary ⟨1e-6, 3⟩
      crease.oracle [1073741826.0] {}).drop 1).map (fun v => (v.1.point, v.1.history.size)) =
        [([1073741824.0], 1), ([1073741824.0], 1), ([1073741824.0], 1)] := by
    decide +kernel
  obtain ⟨v, rest, hdrop, hv, hrest⟩ := List.map_eq_cons_iff.mp hvisits
  obtain ⟨w, later, rfl, hw, -⟩ := List.map_eq_cons_iff.mp hrest
  obtain ⟨hvpoint, hsize⟩ := Prod.mk.inj hv
  obtain ⟨hwpoint, -⟩ := Prod.mk.inj hw
  have hitinerary := (List.take_append_drop 1 _).symm.trans (congrArg _ hdrop)
  have hfinite : ∀ a ∈ v.1.point, a.isFinite = true := by
    rw [hvpoint]
    decide
  have hpoint : w.1.point = v.1.point := hwpoint.trans hvpoint.symm
  obtain ⟨hchain, hlength, houtcome⟩ := stall_absorbing .laned crease ⟨.ofSettings [.budget 3]⟩
    [1073741826.0] {} hitinerary hfinite hpoint
  obtain ⟨out, j', hrun⟩ := Run.exists_perform_of_isOk (j := {})
    (r := (⟨.ofSettings [.budget 3]⟩ : Lbfgs Float).minimize .laned crease.oracle [1073741826.0])
    (by decide +kernel)
  obtain ⟨hconverged, hiterations, hend⟩ := houtcome out j' hrun
  exact ⟨_, v, w, later, hitinerary, hvpoint, hfinite, hsize, hpoint, hchain, hlength, out, j', hrun,
    hconverged, hiterations, hend.trans hvpoint⟩

end Lbfgs

end QuasiNewton
