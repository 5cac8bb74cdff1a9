import QuasiNewton.Proofs.Double
import QuasiNewton.Proofs.LineSearch.Answers
import QuasiNewton.Proofs.Preservation

/-!
# Where a search fails

A search that asks the caller's functions directly stops at the first evaluation that is fatal, with
the fault of that evaluation, and at nothing else (`search_fails_iff`). Fatal is a failure of the
value at the point where the search begins, and at a trial a failure that does not say of a value or
of a gradient that it is not finite. A trial at which a finite value or slope is missing is taken to
be too long.

A value at the first point that is not finite is no failure of the functions, and the search does
not look at it. It goes on, though no trial can pass, and answers with a step
(`answers_from_undefined_value`).
-/

namespace QuasiNewton

namespace Responder

variable {α : Type}

/-- Where a search begins at `x` after the questions `asked`: once `before` was asked as well, the
functions fail at the question `q` with a fault that ends the search. -/
inductive Fatal (f : Responder α) (x : List α) (asked : List (Query α)) :
    List (Query α) → Query α → Fault α → Prop where
  | origin {fault : Fault α} (h : f.value asked x = .error fault) :
      Fatal f x asked asked (.value x) fault
  | value {before : List (Query α)} {y : List α} {fault : Fault α}
      (htrial : asked ++ [.value x] <+: before) (h : f.value before y = .error fault)
      (hfatal : ∀ v, fault ≠ .nonFiniteValue v) : Fatal f x asked before (.value y) fault
  | gradient {before : List (Query α)} {y : List α} {fault : Fault α}
      (htrial : asked ++ [.value x] <+: before) (h : f.gradient before y = .error fault)
      (hfatal : ∀ index a reason, fault ≠ .invalidGradient index a reason) :
      Fatal f x asked before (.gradient y) fault

/-- The search has begun, and nothing was fatal so far. -/
structure GoesOn (f : Responder α) (x : List α) (asked qs : List (Query α)) : Prop where
  begun : asked ++ [.value x] <+: qs
  not_fatal : ∀ {before : List (Query α)} {q : Query α} {fault : Fault α}, before ++ [q] <+: qs →
    ¬ f.Fatal x asked before q fault

/-- The last evaluation is the first one that is fatal, and it ends the search. -/
inductive EndsSearch (f : Responder α) (x : List α) (asked : List (Query α)) :
    Stop α → Journal α → Prop where
  | intro {before : List (Query α)} {q : Query α} {fault : Fault α} {j : Journal α}
      (hfatal : f.Fatal x asked before q fault) (hqueries : j.queries = before ++ [q])
      (hfirst : ∀ {earlier : List (Query α)} {q' : Query α} {fault' : Fault α},
        earlier ++ [q'] <+: before → ¬ f.Fatal x asked earlier q' fault') :
      EndsSearch f x asked (.fault fault) j

variable {f : Responder α} {x y : List α} {asked before qs : List (Query α)} {q : Query α}
  {fault fault' : Fault α} {j : Journal α}

/-! ### Fatal evaluations -/

/-- After the first question there are only those of trials. -/
theorem ne_of_begun (h : asked ++ [.value x] <+: before) : before ≠ asked := by
  rintro rfl
  have hle := h.length_le
  rw [List.length_append, List.length_singleton] at hle
  omega

theorem fatal_value_iff (hbegun : asked ++ [.value x] <+: before) :
    f.Fatal x asked before (.value y) fault ↔
      f.value before y = .error fault ∧ ∀ v, fault ≠ .nonFiniteValue v := by
  constructor
  · intro h
    cases h with
    | origin _ => exact absurd rfl (ne_of_begun hbegun)
    | value _ h hfatal => exact ⟨h, hfatal⟩
  · rintro ⟨h, hfatal⟩
    exact .value hbegun h hfatal

theorem fatal_gradient_iff (hbegun : asked ++ [.value x] <+: before) :
    f.Fatal x asked before (.gradient y) fault ↔
      f.gradient before y = .error fault ∧
        ∀ index a reason, fault ≠ .invalidGradient index a reason := by
  constructor
  · intro h
    cases h with
    | gradient _ h hfatal => exact ⟨h, hfatal⟩
  · rintro ⟨h, hfatal⟩
    exact .gradient hbegun h hfatal

/-- The fault of an evaluation is that of the functions. -/
theorem Fatal.fault_eq (h : f.Fatal x asked before q fault)
    (h' : f.Fatal x asked before q fault') : fault = fault' := by
  cases h with
  | origin h =>
    cases h' with
    | origin h' => cases h.symm.trans h'; rfl
    | value _ h' _ => cases h.symm.trans h'; rfl
  | value _ h _ =>
    cases h' with
    | origin h' => cases h.symm.trans h'; rfl
    | value _ h' _ => cases h.symm.trans h'; rfl
  | gradient _ h _ =>
    cases h' with
    | gradient _ h' _ => cases h.symm.trans h'; rfl

theorem Fatal.asked_prefix (h : f.Fatal x asked before q fault) : asked <+: before := by
  cases h with
  | origin _ => exact List.prefix_rfl
  | value htrial _ _ => exact (List.prefix_append _ _).trans htrial
  | gradient htrial _ _ => exact (List.prefix_append _ _).trans htrial

/-- What was asked before the search is not fatal to it. -/
theorem Fatal.not_prefix_asked (h : f.Fatal x asked before q fault) :
    ¬ before ++ [q] <+: asked := by
  intro hinitial
  have hle := h.asked_prefix.length_le
  have hle' := hinitial.length_le
  rw [List.length_append, List.length_singleton] at hle'
  omega

theorem goesOn_first {v : α} (h : f.value asked x = .ok v) :
    f.GoesOn x asked (asked ++ [.value x]) where
  begun := List.prefix_rfl
  not_fatal := by
    intro before q fault hinitial hfatal
    obtain heq | hearlier := List.prefix_concat_iff.mp hinitial
    · obtain ⟨rfl, rfl⟩ := List.append_singleton_inj.mp heq
      cases hfatal with
      | origin hfails => cases h.symm.trans hfails
      | value htrial _ _ => exact ne_of_begun htrial rfl
    · exact hfatal.not_prefix_asked hearlier

theorem GoesOn.snoc (h : f.GoesOn x asked qs) (hq : ∀ fault, ¬ f.Fatal x asked qs q fault) :
    f.GoesOn x asked (qs ++ [q]) where
  begun := h.begun.trans (List.prefix_append _ _)
  not_fatal := by
    intro before q' fault hinitial
    obtain heq | hearlier := List.prefix_concat_iff.mp hinitial
    · obtain ⟨rfl, rfl⟩ := List.append_singleton_inj.mp heq
      exact hq fault
    · exact h.not_fatal hearlier

end Responder

/-! ### Trials -/

namespace LineSearch

variable {α : Type} [Scalar α] {A : Arithmetic α} {opts : Options α} {f : Responder α}
  {l : Line α} {x : List α} {asked : List (Query α)} {j j' : Journal α}

theorem triple_trialValue_goesOn (hj : f.GoesOn x asked j.queries) (y : List α) :
    (trialValue f.oracle y).Triple j (fun _ j' => f.GoesOn x asked j'.queries)
      (f.EndsSearch x asked) := by
  have hqueries := j.queries_push_asked (.value y)
  rw [Run.Triple, perform_trialValue (f.perform_value y j)]
  cases h : readValue (f.value j.queries y) with
  | ok v =>
    change f.GoesOn x asked (j.push (.asked (.value y))).queries
    rw [hqueries]
    refine hj.snoc fun fault hfatal => ?_
    have herror := readValue_eq_error_iff.mpr ((Responder.fatal_value_iff hj.begun).mp hfatal)
    cases h.symm.trans herror
  | error fault =>
    have hfatal := (Responder.fatal_value_iff hj.begun).mpr (readValue_eq_error_iff.mp h)
    exact ⟨hfatal, hqueries, hj.not_fatal⟩

theorem triple_trialSlope_goesOn (hj : f.GoesOn x asked j.queries) {y : List α}
    (hinner : ∀ g, f.gradient j.queries y = .ok g → ∃ s, A.inner g l.direction = some s) :
    (trialSlope A f.oracle y l.direction).Triple j (fun _ j' => f.GoesOn x asked j'.queries)
      (f.EndsSearch x asked) := by
  have hqueries := j.queries_push_asked (.gradient y)
  rw [Run.Triple, perform_trialSlope (f.perform_gradient y j)]
  cases h : readSlope A l.direction (f.gradient j.queries y) with
  | ok s =>
    change f.GoesOn x asked (j.push (.asked (.gradient y))).queries
    rw [hqueries]
    refine hj.snoc fun fault hfatal => ?_
    obtain ⟨hfails, hne⟩ := (Responder.fatal_gradient_iff hj.begun).mp hfatal
    have herror := (readSlope_eq_error_iff hinner).mpr ⟨fault, rfl, hfails, hne⟩
    cases h.symm.trans herror
  | error stop =>
    obtain ⟨fault, rfl, hfails, hne⟩ := (readSlope_eq_error_iff hinner).mp h
    have hfatal := (Responder.fatal_gradient_iff hj.begun).mpr ⟨hfails, hne⟩
    exact ⟨hfatal, hqueries, hj.not_fatal⟩

variable (A opts f) in
/-- A step at which a finite value is missing, or a finite slope where the objective decreases
enough. -/
inductive Line.Misses (l : Line α) (step : α) (j : Journal α) : Journal α → Prop where
  | value {trial : List α} (hpoint : A.addScaled l.origin l.direction step = some trial)
      (hnone : NoValue (f.value j.queries trial)) :
      Misses l step j (j.push (.asked (.value trial)))
  | slope {trial : List α} {v : α}
      (hpoint : A.addScaled l.origin l.direction step = some trial)
      (hvalue : f.value j.queries trial = .ok v) (hfinite : Scalar.isFinite v = true)
      (hdecreases : l.Decreases opts step v)
      (hnone : NoSlope A l.direction (f.gradient (j.queries ++ [.value trial]) trial)) :
      Misses l step j ((j.push (.asked (.value trial))).push (.asked (.gradient trial)))

/-- Such a step is too long. -/
theorem Line.Misses.judge_eq {step : α} (h : l.Misses A opts f step j j') :
    (l.judge A opts f.oracle step).perform j = (.ok .tooLong, j') := by
  cases h with
  | @value trial hpoint hnone =>
    have hvalue := perform_trialValue (f.perform_value trial j)
    rw [readValue_of_noValue hnone] at hvalue
    rw [judge, hpoint]
    change (trialValue f.oracle trial >>= _).perform j = _
    rw [Run.perform_bind, hvalue]
    rfl
  | @slope trial v hpoint hvalue hfinite hdecreases hnone =>
    have hasked := f.perform_value trial j
    rw [hvalue] at hasked
    have hvalue' := perform_trialValue_of_ok hasked hfinite
    have hslope := perform_trialSlope (A := A) (d := l.direction)
      (f.perform_gradient trial (j.push (.asked (.value trial))))
    rw [Journal.queries_push_asked, readSlope_of_noSlope hnone] at hslope
    rw [judge, hpoint]
    change (trialValue f.oracle trial >>= _).perform j = _
    rw [Run.perform_bind, hvalue']
    change (if _ then _ else _ : Run α Verdict).perform _ = _
    rw [if_pos hdecreases, Run.perform_bind, hslope]
    rfl

/-- After it the search goes on with the bracket that it shortens, or settles there. -/
theorem Line.Misses.seek_eq {left : Nat} {b : Bracket α} (h : l.Misses A opts f b.step j j') :
    (l.seek A opts f.oracle (left + 1) b).perform j =
      (if b.shorten.step < leastStep then pure b.shorten.settle
        else l.seek A opts f.oracle left b.shorten).perform j' := by
  rw [seek_succ, Run.perform_bind, h.judge_eq]
  rfl

/-! ### The search -/

/-- Along a direction that descends, nothing but an evaluation that is fatal ends a search without
an answer. -/
theorem triple_search_goesOn {n : Nat} (hA : A.Lawful) (hn : 0 < n) {d g : List α} {slope : α}
    (hx : x.length = n) (hd : d.length = n)
    (hgradient : ∀ asked y h, y.length = n → f.gradient asked y = .ok h → h.length = n)
    (hslope : A.inner g d = some slope) (hdescends : ¬ 0.0 ≤ slope) (opts : Options α)
    (j : Journal α) :
    (search A opts f.oracle x d g).Triple j (fun _ j' => f.GoesOn x j.queries j'.queries)
      (f.EndsSearch x j.queries) := by
  refine triple_search_of_seek (C := fun _ j' => f.GoesOn x j.queries j'.queries) hslope
    (fun h => absurd h hdescends) (fun _ => ?_) fun _ hj₁ => ?_
  · have hqueries := j.queries_push_asked (.value x)
    rw [Run.Triple, f.perform_value]
    cases h : f.value j.queries x with
    | ok v =>
      change f.GoesOn x j.queries (j.push (.asked (.value x))).queries
      rw [hqueries]
      exact Responder.goesOn_first h
    | error fault =>
      exact ⟨.origin h, hqueries, fun hinitial hfatal => hfatal.not_prefix_asked hinitial⟩
  · refine triple_seek_of_judge (I := fun j' => f.GoesOn x j.queries j'.queries)
      (fun step j₂ hj₂ => ?_) rounds _ hj₁
    refine triple_judge_of_trials (n := n) (I := fun j' => f.GoesOn x j.queries j'.queries)
      hA hn hx hd (fun _ hj => triple_trialValue_goesOn hj _) (fun hlength hj => ?_) opts step hj₂
    exact triple_trialSlope_goesOn hj fun g hg =>
      hA.exists_inner ((hgradient _ _ g hlength hg).trans hd.symm)

/-- In doubles the empty sum is no slope along which anything descends. -/
theorem length_pos_of_descends {A : Arithmetic Float} (hA : A.Standard) {d g : List Float}
    {slope : Float} (hslope : A.inner g d = some slope) (hdescends : ¬ 0.0 ≤ slope) :
    0 < g.length ∧ 0 < d.length := by
  rw [List.length_pos_iff, List.length_pos_iff, ← not_or, ← List.zipWith_eq_nil_iff]
  intro hterms
  apply hdescends
  cases hA with
  | sequential =>
    obtain rfl : orderedSum (List.zipWith (· * ·) g d) = slope := Option.some.inj hslope
    rw [hterms]
    decide +kernel
  | laned =>
    obtain rfl : lanedSum (List.zipWith (· * ·) g d) = slope :=
      Option.some.inj (Option.ite_none_right_eq_some.mp hslope).2
    rw [hterms]
    decide +kernel

/-- A search along a direction that descends fails exactly if it makes an evaluation that is fatal.
Then it fails with the fault of this evaluation, which is the last one. A trial at which a finite
value or slope is missing does no more than to shorten the bracket. -/
theorem search_fails_iff {A : Arithmetic Float} (hA : A.Standard) (opts : Options Float)
    (f : Responder Float) {x d g : List Float} {slope : Float} (hd : d.length = x.length)
    (hgradient : ∀ asked y h, y.length = x.length → f.gradient asked y = .ok h →
      h.length = x.length)
    (hslope : A.inner g d = some slope) (hneg : slope < 0.0)
    {result : Except (Stop Float) Float} {j j' : Journal Float}
    (h : (search A opts f.oracle x d g).perform j = (result, j')) :
    ((∃ stop, result = .error stop) ↔ ∃ before q fault,
      before ++ [q] <+: j'.queries ∧ f.Fatal x j.queries before q fault) ∧
    (∀ before q fault, before ++ [q] <+: j'.queries → f.Fatal x j.queries before q fault →
      result = .error (.fault fault) ∧ j'.queries = before ++ [q]) ∧
    (∀ (l : Line Float) (left : Nat) (b : Bracket Float) (j₁ j₂ : Journal Float),
      l.Misses A opts f b.step j₁ j₂ →
      (l.judge A opts f.oracle b.step).perform j₁ = (.ok .tooLong, j₂) ∧
      (l.seek A opts f.oracle (left + 1) b).perform j₁ =
        (if b.shorten.step < leastStep then pure b.shorten.settle
          else l.seek A opts f.oracle left b.shorten).perform j₂) := by
  have hdescends : ¬ 0.0 ≤ slope := fun hle =>
    Double.lt_irrefl _ (Double.lt_of_lt_of_le hneg hle)
  have hn : 0 < x.length := hd ▸ (length_pos_of_descends hA hslope hdescends).2
  have hsearch := triple_search_goesOn hA.lawful hn rfl hd hgradient hslope hdescends opts j
  refine ⟨?_, ?_, fun l left b j₁ j₂ hmisses => ⟨hmisses.judge_eq, hmisses.seek_eq⟩⟩
  · cases result with
    | ok step =>
      refine iff_of_false (fun ⟨_, herror⟩ => nomatch herror) ?_
      rintro ⟨before, q, fault, hinitial, hfatal⟩
      exact (hsearch.of_ok h).not_fatal hinitial hfatal
    | error stop =>
      obtain ⟨hfatal, hqueries, -⟩ := hsearch.of_error h
      exact iff_of_true ⟨_, rfl⟩ ⟨_, _, _, hqueries ▸ List.prefix_rfl, hfatal⟩
  · intro before q fault hinitial hfatal
    cases result with
    | ok step => exact absurd hfatal ((hsearch.of_ok h).not_fatal hinitial)
    | error stop =>
      obtain ⟨hfatal', hqueries, hfirst⟩ := hsearch.of_error h
      rw [hqueries] at hinitial ⊢
      obtain heq | hearlier := List.prefix_concat_iff.mp hinitial
      · obtain ⟨rfl, rfl⟩ := List.append_singleton_inj.mp heq
        exact ⟨by rw [hfatal.fault_eq hfatal'], rfl⟩
      · exact absurd hfatal (hfirst hearlier)

/-- An objective that falls evenly, and that cannot be evaluated from three on. -/
def brink : Problem Float where
  value x := if x.headD 0.0 < 3.0 then .ok (-x.headD 0.0) else .error (.evaluationFailed "brink")
  gradient x := .ok (x.map fun _ => -1.0)

/-- On the way to the brink the step is doubled, and the third trial fails. -/
theorem search_fails_iff_brink :
    ∃ result j' before q, Arithmetic.laned.inner [(-1.0 : Float)] [1.0] = some (-1.0) ∧
      (search .laned .standard (Responder.ofProblem brink).oracle [0.0] [1.0] [-1.0]).perform {} =
        (result, j') ∧
      result = .error (.fault (.evaluationFailed "brink")) ∧
      (Responder.ofProblem brink).Fatal [0.0] [] before q (.evaluationFailed "brink") ∧
      j'.queries = before ++ [q] := by
  have hslope : Arithmetic.laned.inner [(-1.0 : Float)] [1.0] = some (-1.0) := by decide +kernel
  have hgradient : ∀ (asked : List (Query Float)) (y h : List Float), y.length = 1 →
      (Responder.ofProblem brink).gradient asked y = .ok h → h.length = 1 := by
    rintro asked y h hy hh
    cases hh
    rwa [List.length_map]
  obtain ⟨result, j', h⟩ : ∃ result j', (search .laned .standard
      (Responder.ofProblem brink).oracle [0.0] [1.0] [-1.0]).perform {} = (result, j') :=
    ⟨_, _, Prod.mk.eta.symm⟩
  have hresult : result = .error (.fault (.evaluationFailed "brink")) := by
    have hrun : ((search .laned .standard (Responder.ofProblem brink).oracle [0.0] [1.0]
        [-1.0]).perform {}).1 = .error (.fault (.evaluationFailed "brink")) := by
      decide +kernel
    rwa [h] at hrun
  obtain ⟨hiff, hunchanged, -⟩ := search_fails_iff .laned .standard (.ofProblem brink)
    (x := [0.0]) (d := [1.0]) rfl hgradient hslope (by decide +kernel) h
  obtain ⟨before, q, fault, hinitial, hfatal⟩ := hiff.mp ⟨_, hresult⟩
  obtain ⟨hfault, hlast⟩ := hunchanged before q fault hinitial hfatal
  cases hresult.symm.trans hfault
  exact ⟨result, j', before, q, hslope, h, hresult, hfatal, hlast⟩

/-- An objective that is not defined below one half. -/
def chasm : Problem Float :=
  .ofFunctions (fun x => (x.headD 0.0 - 0.5).sqrt) (List.map fun a => 0.5 / (a - 0.5).sqrt)

/-- At the point where this search begins the value is undefined, but the search does not fail. -/
theorem answers_from_undefined_value :
    ∃ v step j', chasm.value [0.0] = .ok v ∧ v.isFinite = false ∧
      Arithmetic.laned.inner [(-1.0 : Float)] [1.0] = some (-1.0) ∧ (-1.0 : Float) < 0.0 ∧
      (search .laned .standard chasm.oracle [0.0] [1.0] [-1.0]).perform {} = (.ok step, j') := by
  obtain ⟨step, j', h⟩ := Run.exists_perform_of_isOk (j := {})
    (r := search .laned .standard chasm.oracle [0.0] [1.0] [-1.0]) (by decide +kernel)
  exact ⟨_, step, j', rfl, by decide +kernel, by decide +kernel, by decide +kernel, h⟩

end LineSearch

end QuasiNewton
