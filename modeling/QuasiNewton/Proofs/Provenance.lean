import QuasiNewton.Proofs.Accounting
import QuasiNewton.Proofs.Fitting
import QuasiNewton.Proofs.WellBehaved

/-!
# Where the fault of a run comes from

A run stops at the first evaluation that fails, unless it is one of a trial: a line search swallows
the failures of its trials that say of a value or of a gradient that it is not finite. So every
failure that a run survives is one of those (`Method.Traced.swallowed`). A fault with which a run
ends is that of its last evaluation, or it says that the start point or the point where the loop
ended is refused (`faults_traced`). Without a fault it stops only for want of room, before its loop.
-/

namespace QuasiNewton

variable {α : Type} [Scalar α]

/-! ### Failures -/

/-- The fault with which the evaluation fails that a question asks for, once its answer is
checked. -/
def Responder.failure? (f : Responder α) (n : Nat) (asked : List (Query α)) :
    Query α → Option (Fault α)
  | .value x =>
    match f.admissibleValue asked x with
    | .ok _ => none
    | .error fault => some fault
  | .gradient x =>
    match f.admissibleGradient n asked x with
    | .ok _ => none
    | .error fault => some fault

/-- The failures that a trial survives. -/
inductive LineSearch.Swallows : Query α → Fault α → Prop where
  | value {x : List α} {v : α} : Swallows (.value x) (.nonFiniteValue v)
  | gradient {x : List α} {index : Nat} {a : α} {reason : String} :
      Swallows (.gradient x) (.invalidGradient index a reason)

/-- Between `asked` and `qs` all evaluations succeeded but those of trials, where `Trial` tells
which questions, asked after which others, are trials; and what failed there was swallowed. -/
structure Responder.Survives (f : Responder α) (n : Nat)
    (Trial : List (Query α) → Query α → Prop) (asked qs : List (Query α)) : Prop where
  started : asked <+: qs
  swallowed : ∀ {before : List (Query α)} {q : Query α} {fault : Fault α}, asked <+: before →
    before ++ [q] <+: qs → f.failure? n before q = some fault →
      Trial before q ∧ LineSearch.Swallows q fault

/-- The last question is `q`, and the run stops since the evaluation fails. -/
inductive Responder.Fails (f : Responder α) (n : Nat) (Trial : List (Query α) → Query α → Prop)
    (asked : List (Query α)) (q : Query α) : Stop α → Journal α → Prop where
  | intro {before : List (Query α)} {fault : Fault α} {j : Journal α}
      (hsurvives : f.Survives n Trial asked before) (hqueries : j.queries = before ++ [q])
      (hfailure : f.failure? n before q = some fault) : Fails f n Trial asked q (.fault fault) j

namespace Responder

variable {f : Responder α} {n : Nat} {Trial Trial' : List (Query α) → Query α → Prop}
  {asked qs rs : List (Query α)} {q : Query α} {stop : Stop α} {j : Journal α}

theorem Survives.refl (qs : List (Query α)) : f.Survives n Trial qs qs where
  started := List.prefix_rfl
  swallowed := by
    intro before q fault hbefore hinitial _
    have hle := hinitial.length_le
    have hle' := hbefore.length_le
    rw [List.length_append, List.length_singleton] at hle
    omega

theorem Survives.trans (h : f.Survives n Trial asked qs) (h' : f.Survives n Trial qs rs) :
    f.Survives n Trial asked rs where
  started := h.started.trans h'.started
  swallowed := by
    intro before q fault hbefore hinitial hfailure
    -- the question is among the earlier ones, or it comes after all of them
    obtain hearlier | hlater := List.prefix_or_prefix_of_prefix hinitial h'.started
    · exact h.swallowed hbefore hearlier hfailure
    · obtain rfl | hlater := List.prefix_concat_iff.mp hlater
      · exact h.swallowed hbefore List.prefix_rfl hfailure
      · exact h'.swallowed hlater hinitial hfailure

theorem Survives.mono (h : f.Survives n Trial asked qs)
    (htrial : ∀ before q, asked <+: before → before ++ [q] <+: qs → Trial before q →
      Trial' before q) : f.Survives n Trial' asked qs where
  started := h.started
  swallowed hbefore hinitial hfailure := by
    obtain ⟨htrial', hswallows⟩ := h.swallowed hbefore hinitial hfailure
    exact ⟨htrial _ _ hbefore hinitial htrial', hswallows⟩

/-- One more evaluation, which succeeds, or whose failure is swallowed. -/
theorem Survives.snoc (h : f.Survives n Trial asked qs)
    (hq : ∀ fault, f.failure? n qs q = some fault →
      Trial qs q ∧ LineSearch.Swallows q fault) : f.Survives n Trial asked (qs ++ [q]) where
  started := h.started.trans (List.prefix_append _ _)
  swallowed := by
    intro before q' fault hbefore hinitial hfailure
    obtain heq | hinitial := List.prefix_concat_iff.mp hinitial
    · obtain ⟨rfl, rfl⟩ := List.append_singleton_inj.mp heq
      exact hq fault hfailure
    · exact h.swallowed hbefore hinitial hfailure

theorem Survives.snoc_of_eq_none (h : f.Survives n Trial asked qs)
    (hq : f.failure? n qs q = none) : f.Survives n Trial asked (qs ++ [q]) :=
  h.snoc fun fault hfailure => by rw [hq] at hfailure; cases hfailure

theorem Fails.trans (h : f.Survives n Trial asked qs) (h' : f.Fails n Trial qs q stop j) :
    f.Fails n Trial asked q stop j := by
  obtain ⟨hsurvives, hqueries, hfailure⟩ := h'
  exact ⟨h.trans hsurvives, hqueries, hfailure⟩

theorem Fails.mono (h : f.Fails n Trial asked q stop j)
    (htrial : ∀ before q, asked <+: before → before ++ [q] <+: j.queries → Trial before q →
      Trial' before q) : f.Fails n Trial' asked q stop j := by
  obtain ⟨hsurvives, hqueries, hfailure⟩ := h
  refine ⟨hsurvives.mono fun before q hbefore hinitial => ?_, hqueries, hfailure⟩
  exact htrial before q hbefore (hqueries ▸ hinitial.trans (List.prefix_append _ _))

/-- What fails and is followed by another evaluation was survived, if at most the last evaluation
was not. -/
theorem Survives.of_followed (h : f.Survives n Trial asked qs)
    (hlast : rs = qs ∨ ∃ last, rs = qs ++ [last]) {before : List (Query α)} {q q' : Query α}
    {fault : Fault α} (hbefore : asked <+: before) (hinitial : before ++ [q, q'] <+: rs)
    (hfailure : f.failure? n before q = some fault) :
    Trial before q ∧ LineSearch.Swallows q fault := by
  have hinitial' : before ++ [q] ++ [q'] <+: rs := by
    rwa [List.append_assoc]
  refine h.swallowed hbefore ?_ hfailure
  obtain rfl | ⟨last, rfl⟩ := hlast
  · exact (List.prefix_append _ _).trans hinitial'
  · obtain heq | hinitial' := List.prefix_concat_iff.mp hinitial'
    · exact (List.append_inj' heq rfl).1 ▸ List.prefix_rfl
    · exact (List.prefix_append _ _).trans hinitial'

/-! ### Evaluations -/

theorem triple_value_survives (h : f.Survives n Trial asked j.queries) (x : List α) :
    ((f.oracle.checked n).value x).Triple j
      (fun v j' => f.admissibleValue j.queries x = .ok v ∧
        j'.queries = j.queries ++ [.value x] ∧ f.Survives n Trial asked j'.queries)
      (f.Fails n Trial asked (.value x)) := by
  have hqueries := j.countValue.queries_push_asked (.value x)
  refine triple_checked_value (fun v hv => ⟨hv, hqueries, ?_⟩) (fun fault hfault => ?_)
  · rw [hqueries]
    exact h.snoc_of_eq_none (by rw [failure?, hv])
  · exact ⟨h, hqueries, by rw [failure?, hfault]⟩

theorem triple_gradient_survives (h : f.Survives n Trial asked j.queries) (x : List α) :
    ((f.oracle.checked n).gradient x).Triple j
      (fun g j' => g.length = n ∧ f.failure? n j.queries (.gradient x) = none ∧
        j'.queries = j.queries ++ [.gradient x] ∧ f.Survives n Trial asked j'.queries)
      (f.Fails n Trial asked (.gradient x)) := by
  have hqueries := j.countGradient.queries_push_asked (.gradient x)
  refine triple_checked_gradient (fun g hg => ?_) (fun fault hfault => ?_)
  · have hsucceeds : f.failure? n j.queries (.gradient x) = none := by rw [failure?, hg]
    refine ⟨(admissibleGradient_eq_ok_iff.mp hg).2.1, hsucceeds, hqueries, ?_⟩
    rw [hqueries]
    exact h.snoc_of_eq_none hsucceeds
  · exact ⟨h, hqueries, by rw [failure?, hfault]⟩

/-- The trials after `asked` survive what they swallow. -/
theorem keepsTrials_survives (f : Responder α) (n : Nat) (asked : List (Query α)) :
    (f.oracle.checked n).KeepsTrials n
      (fun j => f.Survives n (fun _ _ => True) asked j.queries)
      (fun stop j => ∃ x, f.Fails n (fun _ _ => True) asked (.value x) stop j)
      (fun stop j => ∃ x, f.Fails n (fun _ _ => True) asked (.gradient x) stop j) where
  value {x _} _ h := (triple_value_survives h x).mono (fun _ _ h => h.2.2) (fun _ _ h => ⟨x, h⟩)
  gradient {x _} _ h := (triple_gradient_survives h x).mono (fun _ _ h => ⟨h.1, h.2.2.2⟩)
    (fun _ _ h => ⟨x, h⟩)
  nonFiniteValue := by
    rintro v j ⟨x, hsurvives, hqueries, hfailure⟩
    rw [hqueries]
    refine hsurvives.snoc fun fault hfault => ⟨trivial, ?_⟩
    cases hfailure.symm.trans hfault
    exact .value
  invalidGradient := by
    rintro index a reason j ⟨x, hsurvives, hqueries, hfailure⟩
    rw [hqueries]
    refine hsurvives.snoc fun fault hfault => ⟨trivial, ?_⟩
    cases hfailure.symm.trans hfault
    exact .gradient

end Responder

/-! ### Searches and iterations -/

section

variable {A : Arithmetic α} {opts : LineSearch.Options α} {f : Responder α} {n : Nat}

/-- The questions of a search after its first one are those of its trials. -/
theorem LineSearch.triple_search_survives (hA : A.Lawful) (hn : 0 < n) {x d g : List α}
    (hx : x.length = n) (hd : d.length = n) (hg : g.length = n) (opts : LineSearch.Options α)
    (j : Journal α) :
    (search A opts (f.oracle.checked n) x d g).Triple j
      (fun _ j' => f.Survives n (fun before _ => j.queries ++ [.value x] <+: before) j.queries
        j'.queries)
      (fun stop j' => ∃ q, f.Fails n (fun before _ => j.queries ++ [.value x] <+: before) j.queries
        q stop j') := by
  obtain ⟨slope, hslope⟩ := hA.exists_inner (hg.trans hd.symm)
  refine triple_search_of_seek (C := fun _ j' => j'.queries = j.queries ++ [.value x] ∧
    f.Survives n (fun before _ => j.queries ++ [.value x] <+: before) j.queries j'.queries)
    hslope (fun _ => .refl _) (fun _ => ?_) ?_
  · exact (Responder.triple_value_survives (.refl _) x).mono (fun _ _ h => h.2)
      (fun _ _ h => ⟨_, h⟩)
  · rintro value j₁ - ⟨hqueries, hfirst⟩
    refine (triple_seek (f.keepsTrials_survives n j₁.queries) hA hd hn hx opts _ _ (.refl _)).mono
      (fun _ _ h => ?_) (fun _ _ h => ?_)
    · exact hfirst.trans (h.mono fun _ _ hbefore _ _ => hqueries ▸ hbefore)
    · obtain ⟨_, h⟩ | ⟨_, h⟩ := h
      · exact ⟨_, .trans hfirst (h.mono fun _ _ hbefore _ _ => hqueries ▸ hbefore)⟩
      · exact ⟨_, .trans hfirst (h.mono fun _ _ hbefore _ _ => hqueries ▸ hbefore)⟩

namespace Method

variable {σ : Type}

/-- After the questions `before`, the iteration that begins at a visit tries a step and asks `q`:
the question belongs to its search, which has asked for the value where it begins. -/
def Tries (m : Method α σ) (A : Arithmetic α) (opts : LineSearch.Options α)
    (direction : σ → Option (List α)) (o : Oracle α) (v : σ × Journal α)
    (before : List (Query α)) (q : Query α) : Prop :=
  ∃ d j₁, direction v.1 = some d ∧ v.2.Warned j₁ ∧
    v.2.queries ++ [.value (m.iterate v.1).point] <+: before ∧
    before ++ [q] <+: ((LineSearch.search A opts o (m.iterate v.1).point d
      (m.iterate v.1).gradient).perform j₁).2.queries

variable {m : Method α σ} {direction : σ → Option (List α)} {S : σ → Prop}

theorem triple_advance_survives (hm : m.Follows A opts direction n S) (hA : A.Lawful) (hn : 0 < n)
    {s : σ} (hs : S s) (j : Journal α) :
    (m.advance (f.oracle.checked n) s).Triple j
      (fun p j' => S p.1 ∧ f.Survives n
        (m.Tries A opts direction (f.oracle.checked n) (s, j)) j.queries j'.queries)
      (fun stop j' => ∃ q, f.Fails n
        (m.Tries A opts direction (f.oracle.checked n) (s, j)) j.queries q stop j') := by
  obtain ⟨d, hd, hdlen⟩ := hm.exists_direction hs
  refine hm.advance hs hd (Q := fun _ j' => f.Survives n
    (m.Tries A opts direction (f.oracle.checked n) (s, j)) j.queries j'.queries)
    (R := fun _ _ j' => f.Survives n
      (m.Tries A opts direction (f.oracle.checked n) (s, j)) j.queries j'.queries)
    fun j₁ hwarned => ⟨?_, ?_, ?_⟩
  · have hqueries : j₁.queries = j.queries := by
      obtain rfl | ⟨r, -, rfl⟩ := hwarned
      · rfl
      · exact Journal.queries_push_noted j r
    have hsearch := (LineSearch.triple_search_survives (f := f) hA hn (hm.length_point hs) hdlen
      (hm.length_gradient hs) opts j₁).and_journal
    rw [hqueries] at hsearch
    refine hsearch.mono ?_ ?_
    · rintro step j' ⟨h, rfl⟩
      exact h.mono fun _ _ _ hinitial hbefore => ⟨d, j₁, hd, hwarned, hbefore, hinitial⟩
    · rintro stop j' ⟨⟨q, h⟩, rfl⟩
      exact ⟨q, h.mono fun _ _ _ hinitial hbefore => ⟨d, j₁, hd, hwarned, hbefore, hinitial⟩⟩
  · intro step point j' _ _ h
    exact (Responder.triple_gradient_survives h point).mono (fun _ _ h => ⟨h.1, h.2.2.2⟩)
      (fun _ _ h => ⟨_, h⟩)
  · intro step point j' r _ h
    exact (Journal.queries_push_noted j' r).symm ▸ h

/-! ### Runs -/

theorem triple_descend_survives (hm : m.Follows A opts direction n S) (hA : A.Lawful)
    (hn : 0 < n) {Trial : List (Query α) → Query α → Prop} (tolerance : α) (left : Nat) {s : σ}
    {j : Journal α} {asked : List (Query α)}
    (htrial : ∀ v ∈ m.visits tolerance (f.oracle.checked n) left s j, ∀ before q,
      m.Tries A opts direction (f.oracle.checked n) v before q → Trial before q)
    (hs : S s) (hj : f.Survives n Trial asked j.queries) :
    (m.descend tolerance (f.oracle.checked n) left s).Triple j
      (fun p j' => S p.2 ∧ f.Survives n Trial asked j'.queries)
      (fun stop j' => ∃ q, f.Fails n Trial asked q stop j') := by
  refine triple_descend_visits (I := fun j' => f.Survives n Trial asked j'.queries) ?_ hs hj
  intro v hv hs hj
  refine (triple_advance_survives hm hA hn hs v.2).mono ?_ ?_
  · rintro ⟨s', step⟩ j' ⟨hs', h⟩
    rw [Journal.queries_push_noted]
    exact ⟨hs', hj.trans (h.mono fun _ _ _ _ => htrial v hv _ _)⟩
  · rintro stop j' ⟨q, h⟩
    exact ⟨q, .trans hj (h.mono fun _ _ _ _ => htrial v hv _ _)⟩

/-- After the questions `before`, an iteration of the run tries a step and asks `q`. -/
def Trial (m : Method α σ) (A : Arithmetic α) (opts : LineSearch.Options α)
    (direction : σ → Option (List α)) (f : Responder α) (limits : Stopping α) (x₀ : List α)
    (j : Journal α) (before : List (Query α)) (q : Query α) : Prop :=
  ∃ v ∈ m.itinerary limits f.oracle x₀ j,
    m.Tries A opts direction (f.oracle.checked x₀.length) v before q

/-- There is no room for the first state. Nothing but the gradient at the start point was evaluated,
and that succeeded. -/
def NoRoomAtStart (m : Method α σ) (f : Responder α) (x₀ : List α) (j j' : Journal α) : Prop :=
  (∃ g, m.start x₀ g = none) ∧ j'.queries = j.queries ++ [.gradient x₀] ∧
    f.failure? x₀.length j.queries (.gradient x₀) = none

/-- Why a run stops before its loop is at the end. -/
inductive StopsEarly (m : Method α σ) (f : Responder α) (x₀ : List α)
    (Trial : List (Query α) → Query α → Prop) (j : Journal α) : Stop α → Journal α → Prop where
  | refused {fault : Fault α} (h : checkPoint x₀ = .error fault) :
      StopsEarly m f x₀ Trial j (.fault fault) j
  | fails {q : Query α} {stop : Stop α} {j' : Journal α}
      (h : f.Fails x₀.length Trial j.queries q stop j') : StopsEarly m f x₀ Trial j stop j'
  | noRoom {j' : Journal α} (h : m.NoRoomAtStart f x₀ j j') : StopsEarly m f x₀ Trial j .noRoom j'

theorem triple_opening_survives (m : Method α σ) (f : Responder α) (x₀ : List α)
    (Trial : List (Query α) → Query α → Prop) (j : Journal α) :
    (m.opening f.oracle x₀).Triple j
      (fun s j' => 0 < x₀.length ∧ ∃ g, m.start x₀ g = some s ∧ g.length = x₀.length ∧
        f.Survives x₀.length Trial j.queries j'.queries)
      (m.StopsEarly f x₀ Trial j) := by
  refine (m.triple_opening (fun _ => .refused)
    ((Responder.triple_gradient_survives (j := j.resetTally) (.refl j.queries) x₀).mono
      (fun _ _ h => h) (fun _ _ => .fails)) ?_).mono ?_ (fun _ _ h => h)
  · rintro g j' - ⟨-, hsucceeds, hqueries, -⟩ hnone
    exact .noRoom ⟨⟨g, hnone⟩, hqueries, hsucceeds⟩
  · rintro s j' ⟨hn, g, hs, hg, -, -, hj'⟩
    exact ⟨hn, g, hs, hg, hj'⟩

theorem triple_loop_survives {x₀ : List α}
    (hm : 0 < x₀.length → m.Follows A opts direction x₀.length S) (hA : A.Lawful)
    (limits : Stopping α) (j : Journal α) :
    (m.loop limits f.oracle x₀).Triple j
      (fun p j' => 0 < x₀.length ∧ (m.iterate p.2).point.length = x₀.length ∧
        f.Survives x₀.length (m.Trial A opts direction f limits x₀ j) j.queries j'.queries)
      (m.StopsEarly f x₀ (m.Trial A opts direction f limits x₀ j) j) := by
  have hopening := m.triple_opening_survives f x₀ (m.Trial A opts direction f limits x₀ j) j
  rcases hopened : (m.opening f.oracle x₀).perform j with ⟨stop | s₀, j₁⟩
  · rw [Run.Triple, loop, Run.perform_bind, hopened]
    exact hopening.of_error hopened
  · obtain ⟨hn, g₀, hs₀, hg₀, hj₁⟩ := hopening.of_ok hopened
    have hdescend := triple_descend_survives (hm hn) hA hn limits.tolerance limits.budget
      (fun v hv before q h => ⟨v, (itinerary_eq hopened).symm ▸ hv, h⟩)
      ((hm hn).start rfl hg₀ hs₀) hj₁
    rw [Run.Triple, loop, Run.perform_bind, hopened]
    exact hdescend.mono (fun _ _ h => ⟨hn, (hm hn).length_point h.1, h.2⟩)
      (fun _ _ h => h.elim fun _ h => .fails h)

theorem triple_conclude_survives (hn : 0 < n) {Trial : List (Query α) → Query α → Prop}
    {asked : List (Query α)} (t : Termination) {s : σ} (hs : (m.iterate s).point.length = n)
    {j : Journal α} (hj : f.Survives n Trial asked j.queries) :
    (m.conclude (f.oracle.checked n) t s).Triple j
      (fun _ j' => f.Survives n Trial asked j'.queries)
      (fun stop j' => (∃ q, f.Fails n Trial asked q stop j') ∨
        ∃ index a, stop = .fault (.invalidPoint index a "Point coordinates must be finite.") ∧
          firstNonFinite (m.iterate s).point = some (index, a) ∧
          j'.queries = j.queries ++ [.value (m.iterate s).point] ∧
          f.failure? n j.queries (.value (m.iterate s).point) = none ∧
          f.Survives n Trial asked j'.queries) := by
  have hpoint : (m.iterate s).point ≠ [] := List.length_pos_iff.mp (hs ▸ hn)
  refine triple_conclude ((Responder.triple_value_survives hj (m.iterate s).point).mono
    (fun _ _ h => h) (fun _ _ h => Or.inl ⟨_, h⟩)) ?_
  rintro value j₁ ⟨hvalue, hj₁⟩ tally r
  rw [← Journal.queries_push_noted j₁ r] at hj₁
  refine ⟨fun _ _ => hj₁.2, fun fault hfault => Or.inr ?_⟩
  have hreport := Outcome.create_eq_report hpoint
    (Responder.admissibleValue_eq_ok_iff.mp hvalue).2 t (m.iterate s).iteration tally (m.gradNorm s)
  rw [hfault, Outcome.report] at hreport
  rcases hfirst : firstNonFinite (m.iterate s).point with _ | ⟨index, a⟩
  · rw [hfirst] at hreport
    cases hreport
  · rw [hfirst] at hreport
    obtain rfl := Stop.fault.inj (Except.error.inj hreport)
    exact ⟨index, a, rfl, rfl, hj₁.1, by rw [Responder.failure?, hvalue], hj₁.2⟩

/-- The start point is refused, and nothing is evaluated. -/
def RefusedAtStart (x₀ : List α) (fault : Fault α) (j j' : Journal α) : Prop :=
  j'.queries = j.queries ∧
    (x₀ = [] ∧ fault = .emptyPoint ∨
      ∃ index a, firstNonFinite x₀ = some (index, a) ∧
        fault = .invalidPoint index a "Point coordinates must be finite.")

/-- The last evaluation fails with the fault. -/
def FailedAtLast (f : Responder α) (n : Nat) (fault : Fault α) (j j' : Journal α) : Prop :=
  ∃ before q, j.queries <+: before ∧ j'.queries = before ++ [q] ∧
    f.failure? n before q = some fault

/-- All evaluations succeed but those that are swallowed. The last one is that of the value at the
point where the loop ended, and this point is refused. -/
def RefusedAtEnd (m : Method α σ) (A : Arithmetic α) (opts : LineSearch.Options α)
    (direction : σ → Option (List α)) (f : Responder α) (limits : Stopping α) (x₀ : List α)
    (fault : Fault α) (j j' : Journal α) : Prop :=
  ∃ s j₁ index a, (m.itinerary limits f.oracle x₀ j).getLast? = some (s, j₁) ∧
    j.queries <+: j₁.queries ∧ j'.queries = j₁.queries ++ [.value (m.iterate s).point] ∧
    f.failure? x₀.length j₁.queries (.value (m.iterate s).point) = none ∧
    f.Survives x₀.length (m.Trial A opts direction f limits x₀ j) j.queries j'.queries ∧
    firstNonFinite (m.iterate s).point = some (index, a) ∧
    fault = .invalidPoint index a "Point coordinates must be finite."

/-- One of the three, and no other. -/
def ExactlyOne (a b c : Prop) : Prop :=
  a ∧ ¬ b ∧ ¬ c ∨ ¬ a ∧ b ∧ ¬ c ∨ ¬ a ∧ ¬ b ∧ c

/-- Each failure of a run is accounted for: what the run survived, and what it ended with. -/
structure Traced (m : Method α σ) (A : Arithmetic α) (opts : LineSearch.Options α)
    (direction : σ → Option (List α)) (f : Responder α) (limits : Stopping α) (x₀ : List α)
    (j : Journal α) : Prop where
  ne_misfit : ((m.minimize limits f.oracle x₀).perform j).1 ≠ .error .misfit
  noRoom : ((m.minimize limits f.oracle x₀).perform j).1 = .error .noRoom →
    m.NoRoomAtStart f x₀ j ((m.minimize limits f.oracle x₀).perform j).2
  /-- An evaluation that failed and is followed by another one was that of a trial, which swallowed
  the failure. -/
  swallowed : ∀ {before : List (Query α)} {q q' : Query α} {fault : Fault α},
    j.queries <+: before →
    before ++ [q, q'] <+: ((m.minimize limits f.oracle x₀).perform j).2.queries →
    f.failure? x₀.length before q = some fault →
    m.Trial A opts direction f limits x₀ j before q ∧ LineSearch.Swallows q fault
  fault : ∀ {fault : Fault α},
    ((m.minimize limits f.oracle x₀).perform j).1 = .error (.fault fault) →
    ExactlyOne
      (RefusedAtStart x₀ fault j ((m.minimize limits f.oracle x₀).perform j).2)
      (FailedAtLast f x₀.length fault j ((m.minimize limits f.oracle x₀).perform j).2)
      (m.RefusedAtEnd A opts direction f limits x₀ fault j
        ((m.minimize limits f.oracle x₀).perform j).2)

/-- The three ways to end with a fault exclude each other: they differ in how many evaluations there
are, and in whether the last one failed. -/
theorem exactlyOne_of_or {x₀ : List α} {limits : Stopping α} {fault : Fault α} {j j' : Journal α}
    (h : RefusedAtStart x₀ fault j j' ∨ FailedAtLast f x₀.length fault j j' ∨
      m.RefusedAtEnd A opts direction f limits x₀ fault j j') :
    ExactlyOne (RefusedAtStart x₀ fault j j') (FailedAtLast f x₀.length fault j j')
      (m.RefusedAtEnd A opts direction f limits x₀ fault j j') := by
  have longer {before : List (Query α)} {q : Query α} (hbefore : j.queries <+: before)
      (hqueries : j'.queries = before ++ [q]) : ¬ RefusedAtStart x₀ fault j j' := by
    rintro ⟨hsame, -⟩
    have hle := hbefore.length_le
    rw [← hsame, hqueries, List.length_append, List.length_singleton] at hle
    omega
  have hstart_last (hlast : FailedAtLast f x₀.length fault j j') :
      ¬ RefusedAtStart x₀ fault j j' := by
    obtain ⟨before, q, hbefore, hqueries, -⟩ := hlast
    exact longer hbefore hqueries
  have hstart_end (hend : m.RefusedAtEnd A opts direction f limits x₀ fault j j') :
      ¬ RefusedAtStart x₀ fault j j' := by
    obtain ⟨s, j₁, -, -, -, hbefore, hqueries, -⟩ := hend
    exact longer hbefore hqueries
  have hlast_end (hend : m.RefusedAtEnd A opts direction f limits x₀ fault j j') :
      ¬ FailedAtLast f x₀.length fault j j' := by
    rintro ⟨before, q, -, hqueries, hfailure⟩
    obtain ⟨s, j₁, -, -, -, -, hqueries', hsucceeds, -⟩ := hend
    obtain ⟨rfl, hlast⟩ := List.append_inj' (hqueries.symm.trans hqueries') rfl
    obtain rfl := List.singleton_inj.mp hlast
    cases hsucceeds.symm.trans hfailure
  obtain h | h | h := h
  · exact Or.inl ⟨h, fun hlast => hstart_last hlast h, fun hend => hstart_end hend h⟩
  · exact Or.inr (Or.inl ⟨hstart_last h, h, fun hend => hlast_end hend h⟩)
  · exact Or.inr (Or.inr ⟨hstart_end h, hlast_end h, h⟩)

/-- What is known of a run that stops: it survived all failures, that of its last evaluation perhaps
excepted, and it ended with a fault in one of three ways, or for want of room. -/
structure Ended (m : Method α σ) (A : Arithmetic α) (opts : LineSearch.Options α)
    (direction : σ → Option (List α)) (f : Responder α) (limits : Stopping α) (x₀ : List α)
    (j : Journal α) (stop : Stop α) (j' : Journal α) : Prop where
  survives : ∃ qs, f.Survives x₀.length (m.Trial A opts direction f limits x₀ j) j.queries qs ∧
    (j'.queries = qs ∨ ∃ last, j'.queries = qs ++ [last])
  ways : (∃ fault, stop = .fault fault ∧
      (RefusedAtStart x₀ fault j j' ∨ FailedAtLast f x₀.length fault j j' ∨
        m.RefusedAtEnd A opts direction f limits x₀ fault j j')) ∨
    stop = .noRoom ∧ m.NoRoomAtStart f x₀ j j'

theorem ended_of_fails {x₀ : List α} {limits : Stopping α} {j j' : Journal α} {q : Query α}
    {stop : Stop α}
    (h : f.Fails x₀.length (m.Trial A opts direction f limits x₀ j) j.queries q stop j') :
    m.Ended A opts direction f limits x₀ j stop j' := by
  obtain ⟨hsurvives, hqueries, hfailure⟩ := h
  exact ⟨⟨_, hsurvives, Or.inr ⟨q, hqueries⟩⟩,
    Or.inl ⟨_, rfl, Or.inr (Or.inl ⟨_, q, hsurvives.started, hqueries, hfailure⟩)⟩⟩

theorem StopsEarly.ended {x₀ : List α} {limits : Stopping α} {j j' : Journal α} {stop : Stop α}
    (h : m.StopsEarly f x₀ (m.Trial A opts direction f limits x₀ j) j stop j') :
    m.Ended A opts direction f limits x₀ j stop j' := by
  cases h with
  | refused hrefused =>
    exact ⟨⟨_, .refl _, Or.inl rfl⟩,
      Or.inl ⟨_, rfl, Or.inl ⟨rfl, checkPoint_eq_error_iff.mp hrefused⟩⟩⟩
  | fails hfails => exact ended_of_fails hfails
  | noRoom hroom => exact ⟨⟨_, .refl _, Or.inr ⟨_, hroom.2.1⟩⟩, Or.inr ⟨rfl, hroom⟩⟩

theorem triple_minimize_ended {x₀ : List α}
    (hm : 0 < x₀.length → m.Follows A opts direction x₀.length S) (hA : A.Lawful)
    (limits : Stopping α) (j : Journal α) :
    (m.minimize limits f.oracle x₀).Triple j
      (fun _ j' => f.Survives x₀.length (m.Trial A opts direction f limits x₀ j) j.queries
        j'.queries)
      (m.Ended A opts direction f limits x₀ j) := by
  have hloop := triple_loop_survives (f := f) hm hA limits j
  rw [Run.Triple, minimize_eq_loop_bind, Run.perform_bind]
  rcases h : (m.loop limits f.oracle x₀).perform j with ⟨stop | ⟨t, s⟩, j₁⟩
  · exact (hloop.of_error h).ended
  · obtain ⟨hn, hpoint, hj₁⟩ := hloop.of_ok h
    refine (triple_conclude_survives hn t hpoint hj₁).mono (fun _ _ h => h) ?_
    rintro stop j' (⟨q, h⟩ | ⟨index, a, rfl, hfirst, hqueries, hsucceeds, hsurvives⟩)
    · exact ended_of_fails h
    · exact ⟨⟨_, hsurvives, Or.inl rfl⟩, Or.inl ⟨_, rfl, Or.inr (Or.inr ⟨s, j₁, index, a,
        getLast?_itinerary h, hj₁.started, hqueries, hsucceeds, hsurvives, hfirst, rfl⟩)⟩⟩

theorem Follows.traced {x₀ : List α}
    (hm : 0 < x₀.length → m.Follows A opts direction x₀.length S) (hA : A.Lawful)
    (limits : Stopping α) (j : Journal α) : m.Traced A opts direction f limits x₀ j := by
  have hrun := triple_minimize_ended (f := f) hm hA limits j
  refine ⟨?_, ?_, ?_, ?_⟩
  · intro hmisfit
    obtain ⟨fault, hstop, -⟩ | ⟨hstop, -⟩ := (hrun.of_error (Prod.ext hmisfit rfl)).ways
    · cases hstop
    · cases hstop
  · intro h
    obtain ⟨fault, hstop, -⟩ | ⟨-, hroom⟩ := (hrun.of_error (Prod.ext h rfl)).ways
    · cases hstop
    · exact hroom
  · intro before q q' fault hbefore hinitial hfailure
    rcases h : (m.minimize limits f.oracle x₀).perform j with ⟨stop | out, j'⟩
    · obtain ⟨qs, hsurvives, hlast⟩ := (hrun.of_error h).survives
      rw [h] at hinitial
      exact hsurvives.of_followed hlast hbefore hinitial hfailure
    · rw [h] at hinitial
      exact (hrun.of_ok h).of_followed (Or.inl rfl) hbefore hinitial hfailure
  · intro fault h
    obtain ⟨fault', hstop, hways⟩ | ⟨hstop, -⟩ := (hrun.of_error (Prod.ext h rfl)).ways
    · cases hstop
      exact exactlyOne_of_or hways
    · cases hstop

end Method

end

/-- Whatever the functions answer, and whichever solver asks them: a run survives no failures but
those that its trials swallow, and the fault with which it ends is that of its last evaluation,
unless the start point or the last point is refused. -/
theorem faults_traced {A : Arithmetic α} (hA : A.Standard) (f : Responder α) (x₀ : List α)
    (j : Journal α) :
    (∀ solver : Lbfgs α, (solver.method A).Traced A solver.options.lineSearch
      (Lbfgs.State.direction A) f solver.options.toStopping x₀ j) ∧
    (∀ solver : SteepestDescent α, (solver.method A).Traced A solver.lineSearch
      (fun i => some (scale i.gradient (-1.0))) f solver.toStopping x₀ j) := by
  constructor
  · intro solver
    exact Method.Follows.traced (fun hn => solver.follows_method hA.lawful hn) hA.lawful _ j
  · intro solver
    exact Method.Follows.traced (fun hn => solver.follows_method hA.lawful hn) hA.lawful _ j

/-- In the valley with a fence around it, L-BFGS survives the failure of its first trial; and
steepest descent ends with the fault of the first gradient that is too short. -/
theorem faults_traced_fencedValley :
    (∃ solver : Lbfgs Float, ∃ before q q' fault, solver = ⟨.ofSettings [.budget 2]⟩ ∧
      before ++ [q, q'] <+: ((solver.minimize .laned (Responder.ofProblem .fencedValley).oracle
        [3.0, -2.0]).perform {}).2.queries ∧
      (Responder.ofProblem .fencedValley).failure? 2 before q = some fault ∧
      LineSearch.Swallows q fault) ∧
    (∃ solver : SteepestDescent Float, ∃ fault, solver = ⟨⟨1e-6, 2⟩, .standard⟩ ∧
      ((solver.minimize .sequential Responder.narrowing.oracle [3.0, -2.0]).perform {}).1 =
        .error (.fault fault) ∧
      Method.FailedAtLast Responder.narrowing 2 fault {}
        ((solver.minimize .sequential Responder.narrowing.oracle [3.0, -2.0]).perform {}).2) := by
  constructor
  · obtain ⟨solver, hsolver⟩ : ∃ solver : Lbfgs Float, solver = ⟨.ofSettings [.budget 2]⟩ :=
      ⟨_, rfl⟩
    have htraced := (faults_traced .laned (Responder.ofProblem .fencedValley) [3.0, -2.0] {}).1
      solver
    obtain ⟨qs, hqs⟩ : ∃ qs, qs = ((solver.minimize .laned
      (Responder.ofProblem .fencedValley).oracle [3.0, -2.0]).perform {}).2.queries := ⟨_, rfl⟩
    have hthird : (qs[2]?.bind ((Responder.ofProblem .fencedValley).failure? 2
        (qs.take 2))).isSome = true ∧ qs[3]?.isSome = true := by
      rw [hqs, hsolver]
      decide +kernel
    obtain ⟨fault, hfault⟩ := Option.isSome_iff_exists.mp hthird.1
    obtain ⟨q, hq, hfailure⟩ := Option.bind_eq_some_iff.mp hfault
    obtain ⟨q', hq'⟩ := Option.isSome_iff_exists.mp hthird.2
    have hinitial : qs.take 2 ++ [q, q'] <+: qs := by
      have hprefix := List.take_prefix 4 qs
      rwa [List.take_add_one, List.take_add_one, hq, hq', List.append_assoc] at hprefix
    rw [hqs] at hinitial
    exact ⟨solver, _, q, q', fault, hsolver, hinitial, hfailure,
      (htraced.swallowed List.nil_prefix hinitial (hqs ▸ hfailure)).2⟩
  · obtain ⟨solver, hsolver⟩ : ∃ solver : SteepestDescent Float,
        solver = ⟨⟨1e-6, 2⟩, .standard⟩ := ⟨_, rfl⟩
    have htraced := (faults_traced .sequential Responder.narrowing [3.0, -2.0] {}).2 solver
    have hrun : ((solver.minimize .sequential Responder.narrowing.oracle
        [3.0, -2.0]).perform {}).1 = .error (.fault (.gradientLength 2 1)) := by
      subst hsolver
      decide +kernel
    refine ⟨solver, _, hsolver, hrun, ?_⟩
    obtain ⟨⟨-, ⟨-, ⟨⟩⟩ | ⟨_, _, -, ⟨⟩⟩⟩, -, -⟩ | ⟨-, h, -⟩ | ⟨-, -, hend⟩ := htraced.fault hrun
    · exact h
    · obtain ⟨-, -, -, -, -, -, -, -, -, -, ⟨⟩⟩ := hend

end QuasiNewton
