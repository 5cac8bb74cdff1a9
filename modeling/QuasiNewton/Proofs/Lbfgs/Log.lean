import QuasiNewton.Proofs.Double
import QuasiNewton.Proofs.Lbfgs.Room
import QuasiNewton.Proofs.Lbfgs.Trajectory
import QuasiNewton.Proofs.Unfinished

/-!
# The log of a run

What the records of an L-BFGS run say of it. Each iteration contributes a chapter to the log: the
warning that its direction does not descend, the remark that its pair is not stored, and the record
of the iteration itself. A chapter tells what happened between two visits of the loop
(`Iteration.tells`), and the log of a run with an outcome is the chapters of its iterations and the
last record, in order (`log_faithful`). How many pairs are stored can be read off the remarks alone
(`Chronicle.stored_eq`). A run that stops at an evaluation does not make the last record.
-/

namespace QuasiNewton

variable {α : Type}

theorem Journal.records_ite_note {p : Prop} [Decidable p] (j : Journal α) (r : Record α) :
    (if p then j.push (.noted r) else j).records = j.records ++ if p then [r] else [] := by
  split
  · exact records_push_noted j r
  · exact (List.append_nil _).symm

namespace Lbfgs

/-! ### Chapters -/

/-- What the log says of one iteration. -/
structure Chapter (α : Type) where
  /-- The slope of the direction, if there is a warning that it does not descend. -/
  warning : Option α
  /-- The curvature of the pair, if there is a remark that it is not stored. -/
  skipped : Option α
  gradNorm : α
  step : α
  /-- The number of pairs that are stored after the iteration. -/
  stored : Nat

namespace Chapter

/-- The records of an iteration that comes after `k` others. -/
def records (k : Nat) (c : Chapter α) : List (Record α) :=
  (c.warning.map (.nonDescent name k)).toList ++ (c.skipped.map (.skipped k)).toList ++
    [.iteration name (k + 1) c.gradNorm c.step c.stored]

/-- The records of iterations that come after `k` others. -/
def log : Nat → List (Chapter α) → List (Record α)
  | _, [] => []
  | k, c :: later => c.records k ++ log (k + 1) later

variable [Scalar α]

/-- The chapter tells what happened from one visit to the next. -/
structure Tells (A : Arithmetic α) (v v' : State α × Journal α) (c : Chapter α) : Prop where
  /-- The step is the one that was made, and the warning is about its direction. -/
  moved : ∃ d, v.1.direction A = some d ∧ A.addScaled v.1.point d c.step = some v'.1.point ∧
    ∀ slope ∈ c.warning, A.inner v.1.gradient d = some slope ∧ 0.0 ≤ slope
  /-- There is a warning exactly when the objective was not evaluated. -/
  warned_iff : c.warning.isSome = true ↔ v'.2.tally.values = v.2.tally.values
  step_of_warned : c.warning.isSome = true → c.step = 1e-8
  /-- The pair of the move is stored and nothing is said of it, or it is not stored and there is a
  remark. -/
  pair : (∃ p, v.1.movePair? A v'.1 = some p ∧ v'.1.history = v.1.history.store p ∧
      c.skipped = none) ∨
    ∃ curvature, v.1.movePair? A v'.1 = none ∧ v'.1.history = v.1.history ∧
      c.skipped = some curvature ∧ ¬ History.leastCurvature < curvature ∧
      A.inner (List.zipWith (· - ·) v'.1.point v.1.point)
        (List.zipWith (· - ·) v'.1.gradient v.1.gradient) = some curvature
  gradNorm_eq : c.gradNorm = v'.1.gradNorm
  stored_eq : c.stored = v'.1.history.size

end Chapter

variable [Scalar α] {A : Arithmetic α} {f : Responder α} {n : Nat}

/-! ### One iteration -/

namespace Iteration

variable {opts : LineSearch.Options α} {s s' : State α} {step : α} {j j' : Journal α}

/-- The chapter of an iteration. -/
def chapter {o : Oracle α} (i : Iteration A opts o s j s' step j') : Chapter α where
  warning := if 0.0 ≤ i.slope then some i.slope else none
  skipped := if i.stored then none else some i.curvature
  gradNorm := s'.gradNorm
  step := step
  stored := s'.history.size

variable (i : Iteration A opts (f.oracle.checked n) s j s' step j')

/-- An iteration makes the records of its chapter: the questions of the search and the one for the
gradient make none. -/
theorem records_eq (hA : A.Lawful) (hn : 0 < n) (hs : s.Shaped A n) (solver : Lbfgs α) :
    (j'.push (.noted ((solver.method A).iterationRecord s' step))).records =
      j.records ++ i.chapter.records s.iteration := by
  have hd := hs.length_direction hA hn i.direction_eq
  have hsearched := (LineSearch.triple_search (f.keepsTrials_records n (· = _)) hA hn opts
    hs.length_point hd hs.length_gradient rfl).of_ok i.search_eq
  obtain ⟨-, -, hevaluated⟩ := (f.triple_gradient_entered n s'.point i.searched).of_ok i.gradient_eq
  have hrecord : (solver.method A).iterationRecord s' step =
      .iteration name (s.iteration + 1) s'.gradNorm step s'.history.size := by
    rw [← i.iteration_eq]
    rfl
  have hjournal := (congrArg Journal.records i.journal_eq).trans (Journal.records_ite_note _ _)
  rw [Journal.records_push_noted, hrecord, hjournal, hevaluated, hsearched,
    Journal.records_ite_note, Chapter.records, chapter]
  by_cases hslope : 0.0 ≤ i.slope <;> cases i.stored <;> simp [hslope]

/-- If the search is declined, the step is the fixed one and the objective is not evaluated; any
other search evaluates it. -/
theorem declined_or_evaluated :
    (0.0 ≤ i.slope ∧ step = 1e-8 ∧ j'.tally.values = j.tally.values) ∨
      (¬ 0.0 ≤ i.slope ∧ j.tally.values < j'.tally.values) := by
  have ho := f.counts_checked n
  obtain ⟨search, hsearch⟩ := LineSearch.exists_searched i.search_eq
  have hafter := i.journal_eq.symm ▸ Journal.Asks.ite_note i.evaluated _
  have hvalues := (((Journal.Asks.ite_note j _).append (hsearch.asks ho)).append
    ((ho.asks_gradient i.gradient_eq).append hafter)).values_eq
  rw [List.nil_append, List.append_nil, List.countP_append, LineSearch.countP_isValue_queries,
    List.countP_cons_of_neg Bool.false_ne_true, List.countP_nil, Nat.add_zero] at hvalues
  obtain ⟨hle, hstep, hzero⟩ | ⟨hnle, hpos⟩ := hsearch.declined_or_evaluated i.slope_eq
  · exact Or.inl ⟨hle, hstep, by omega⟩
  · exact Or.inr ⟨hnle, by omega⟩

theorem isSome_warning : i.chapter.warning.isSome = true ↔ 0.0 ≤ i.slope := by
  by_cases hslope : 0.0 ≤ i.slope <;> simp [chapter, hslope]

theorem tells (hA : A.Lawful) (hn : 0 < n) (hs : s.Shaped A n) (r : Record α) :
    i.chapter.Tells A (s, j) (s', j'.push (.noted r)) where
  moved := by
    refine ⟨i.direction, i.direction_eq, i.point_eq, fun slope hslope => ?_⟩
    obtain ⟨hle, hsome⟩ := Option.ite_none_right_eq_some.mp hslope
    obtain rfl := Option.some.inj hsome
    exact ⟨i.slope_eq, hle⟩
  warned_iff := by
    rw [i.isSome_warning]
    obtain ⟨hle, -, hvalues⟩ | ⟨hnle, hvalues⟩ := i.declined_or_evaluated
    · exact iff_of_true hle hvalues
    · exact iff_of_false hnle hvalues.ne'
  step_of_warned hwarned := by
    obtain ⟨-, hstep, -⟩ | ⟨hnle, -⟩ := i.declined_or_evaluated
    · exact hstep
    · exact absurd (i.isSome_warning.mp hwarned) hnle
  pair := by
    have hs' := i.shaped hA hn (f.shapedAt_checked n) hs
    have hpair := i.movePair?_eq hA hn hs hs'
    obtain ⟨hlt, hstored, hstore⟩ | ⟨hnlt, hstored, hsame⟩ := i.offer_cases
    · exact Or.inl ⟨_, hpair.trans (if_pos hlt), hstore, if_pos hstored⟩
    · refine Or.inr ⟨i.curvature, hpair.trans (if_neg hnlt), hsame, ?_, hnlt, ?_⟩
      · rw [chapter, hstored]
        rfl
      · rw [← i.move_eq_zipWith hA hn hs hs', ← i.change_eq_zipWith hA hn hs hs']
        exact i.curvature_eq
  gradNorm_eq := rfl
  stored_eq := rfl

end Iteration

/-! ### All iterations -/

/-- The chapters tell what happened from each of the visits to the next. -/
inductive Chronicle (A : Arithmetic α) : List (State α × Journal α) → List (Chapter α) → Prop where
  | last (v : State α × Journal α) : Chronicle A [v] []
  | cons {v v' : State α × Journal α} {visits : List (State α × Journal α)} {c : Chapter α}
      {chapters : List (Chapter α)} (htells : c.Tells A v v')
      (hlater : Chronicle A (v' :: visits) chapters) :
      Chronicle A (v :: v' :: visits) (c :: chapters)

/-- A loop that comes to its end has its log. -/
theorem exists_chronicle (hA : A.Lawful) (hn : 0 < n) {solver : Lbfgs α} {tolerance : α}
    {left : Nat} {s s' : State α} {j j' : Journal α} {t : Termination} (hs : s.Shaped A n)
    (h : (solver.method A).Descends tolerance (f.oracle.checked n) left s j t s' j') :
    ∃ chapters,
      Chronicle A ((solver.method A).visits tolerance (f.oracle.checked n) left s j) chapters ∧
      j'.records = j.records ++ Chapter.log s.iteration chapters ∧
      s'.iteration = s.iteration + chapters.length := by
  induction h with
  | @converged left s j hlt =>
    rw [Method.visits_of_lt hlt]
    exact ⟨[], .last _, (List.append_nil _).symm, rfl⟩
  | @budgetSpent s j _ =>
    rw [Method.visits_zero]
    exact ⟨[], .last _, (List.append_nil _).symm, rfl⟩
  | @iterate left s s₁ s' step t j j₁ j' hlt hadvance _ ih =>
    obtain ⟨i⟩ := State.perform_advance_eq_ok_iff.mp hadvance
    obtain ⟨later, hvisits, hrecords, hcount⟩ := ih (i.shaped hA hn (f.shapedAt_checked n) hs)
    obtain ⟨visits, htail⟩ := (solver.method A).exists_visits_eq_cons tolerance
      (f.oracle.checked n) left s₁
      (j₁.push (.noted ((solver.method A).iterationRecord s₁ step)))
    rw [htail] at hvisits
    rw [Method.visits_succ_of_ok hlt hadvance, htail]
    refine ⟨i.chapter :: later, .cons (i.tells hA hn hs _) hvisits, ?_, ?_⟩
    · rw [hrecords, i.records_eq hA hn hs solver, i.iteration_eq, List.append_assoc, Chapter.log]
    · rw [hcount, i.iteration_eq, List.length_cons]
      omega

namespace Chronicle

variable {v : State α × Journal α} {visits : List (State α × Journal α)}
  {chapters : List (Chapter α)}

theorem forall_tells (h : Chronicle A visits chapters) :
    ∀ c ∈ chapters, ∃ v v', c.Tells A v v' := by
  induction h with
  | last v => exact List.forall_mem_nil _
  | cons htells _ ih => exact List.forall_mem_cons.mpr ⟨⟨_, _, htells⟩, ih⟩

/-- The last chapter tells of the state visited last. -/
theorem gradNorm_eq (h : Chronicle A visits chapters) (hlast : visits.getLast? = some v) :
    ∀ c ∈ chapters.getLast?, c.gradNorm = v.1.gradNorm := by
  induction h with
  | last _ => exact nofun
  | @cons v₁ v' visits c chapters htells hlater ih =>
    rw [List.getLast?_cons_cons] at hlast
    cases hlater with
    | last _ =>
      rintro _ ⟨⟩
      cases hlast
      exact htells.gradNorm_eq
    | cons _ _ =>
      rw [List.getLast?_cons_cons]
      exact ih hlast

/-- The number of stored pairs is the number of chapters without a remark, as long as there is
room. -/
theorem stored_eq_countP {accepted : Nat} (h : Chronicle A (v :: visits) chapters)
    (hsize : v.1.history.size = min v.1.history.capacity accepted) {k : Nat} {c : Chapter α}
    (hc : chapters[k]? = some c) :
    c.stored = min v.1.history.capacity
      (accepted + (chapters.take (k + 1)).countP (·.skipped.isNone)) := by
  generalize hvisits : v :: visits = vs at h
  induction h generalizing v visits accepted k with
  | last _ => cases hc
  | @cons v₁ v' visits c₁ later htells _ ih =>
    obtain ⟨rfl, rfl⟩ := List.cons.inj hvisits
    have hv' : v'.1.history.capacity = v.1.history.capacity ∧
        v'.1.history.size = min v'.1.history.capacity
          (accepted + if c₁.skipped.isNone then 1 else 0) := by
      obtain ⟨p, -, hstore, hskipped⟩ | ⟨curvature, -, hsame, hskipped, -⟩ := htells.pair
      · rw [hstore, hskipped, History.size_store, History.capacity_store, hsize]
        exact ⟨rfl, by simp only [Option.isNone_none, if_true]; omega⟩
      · rw [hsame, hskipped]
        exact ⟨rfl, hsize⟩
    obtain ⟨hcapacity, hsize'⟩ := hv'
    cases k with
    | zero =>
      obtain rfl := Option.some.inj hc
      rw [htells.stored_eq, hsize', hcapacity, List.take_succ_cons, List.take_zero,
        List.countP_singleton]
    | succ k =>
      have hrest := ih hsize' hc rfl
      rw [hrest, hcapacity, List.take_succ_cons, List.countP_cons, Nat.add_assoc,
        Nat.add_comm (List.countP _ _)]

/-- How many pairs are stored can be read off the remarks on those that are not. -/
theorem stored_eq (h : Chronicle A (v :: visits) chapters) (hsize : v.1.history.size = 0)
    {k : Nat} {c : Chapter α} (hc : chapters[k]? = some c) :
    c.stored = min v.1.history.capacity
      (k + 1 - (chapters.take (k + 1)).countP (·.skipped.isSome)) := by
  obtain ⟨hk, -⟩ := List.getElem?_eq_some_iff.mp hc
  have hlength := (chapters.take (k + 1)).length_eq_countP_add_countP (·.skipped.isSome)
  simp only [List.length_take_of_le hk, Bool.not_eq_true, Option.isSome_eq_false_iff,
    Bool.decide_eq_true] at hlength
  rw [h.stored_eq_countP (hsize.trans (Nat.min_zero _).symm) hc]
  congr 1
  omega

end Chronicle

/-! ### Whole runs -/

/-- The log of a run from `x₀` that is over: its chapters, and the last record. -/
structure Logged (A : Arithmetic α) (solver : Lbfgs α) (o : Oracle α) (x₀ : List α) (j : Journal α)
    (out : Outcome α) (j' : Journal α) (chapters : List (Chapter α)) : Prop where
  iterations : chapters.length = out.iterations
  /-- The records that were made in this run, in order. -/
  records : j'.records = j.records ++ (Chapter.log 0 chapters ++
    [.terminated name out.status out.iterations out.value out.gradNorm])
  /-- The chapters tell of the iterations that the run made. -/
  chronicle : Chronicle A ((solver.method A).itinerary solver.options.toStopping o x₀ j) chapters
  stored : ∀ {k : Nat} {c : Chapter α}, chapters[k]? = some c →
    c.stored = min solver.options.memory
      (k + 1 - (chapters.take (k + 1)).countP (·.skipped.isSome))
  gradNorm : ∀ c ∈ chapters.getLast?, c.gradNorm = out.gradNorm

/-- Every run with an outcome has its log. -/
theorem exists_logged (hA : A.Lawful) (f : Responder α) {solver : Lbfgs α}
    (hmemory : 0 < solver.options.memory) {x₀ : List α} {j j' : Journal α} {out : Outcome α}
    (h : (solver.minimize A f.oracle x₀).perform j = (.ok out, j')) :
    ∃ chapters, solver.Logged A f.oracle x₀ j out j' chapters := by
  obtain ⟨s, j₂, hloop, hconclude, -⟩ := Method.exists_loop_of_minimize h
  obtain ⟨s₀, j₁, hopening, hdescends⟩ := Method.exists_descends_of_loop hloop
  obtain ⟨-, g₀, hopened, rfl⟩ := perform_opening_eq_ok_iff.mp hopening
  obtain ⟨hx₀, hgradient⟩ := Oracle.perform_opening_eq_ok_iff.mp hopened
  obtain ⟨value, j₃, hvalue, rfl, -, -, hout⟩ := Method.perform_conclude_eq_ok_iff.mp hconclude
  have hn : 0 < x₀.length := length_pos_of_checkPoint hx₀
  obtain ⟨hg₀, -, hunchanged⟩ := (f.triple_gradient_entered _ _ _).of_ok hgradient
  obtain ⟨-, hconcluded⟩ := (f.triple_value_entered _ _ _).of_ok hvalue
  have hs : (State.initial solver.options.memory x₀ g₀).Shaped A x₀.length :=
    State.shaped_initial _ rfl hg₀
  obtain ⟨chapters, hchronicle, hrecords, hcount⟩ := exists_chronicle hA hn hs hdescends
  have hiterations : chapters.length = out.iterations := by
    rw [hout]
    exact ((Nat.zero_add _).symm.trans hcount.symm)
  have hcapacity : max solver.options.memory 1 = solver.options.memory := Nat.max_eq_left hmemory
  refine ⟨chapters, hiterations, ?_, ?_, ?_, ?_⟩
  · rw [Journal.records_push_noted, hconcluded, hrecords, hunchanged, List.append_assoc, hout]
    rfl
  · rwa [Method.itinerary_eq hopening]
  · intro k c hc
    obtain ⟨visits, hvisits⟩ := (solver.method A).exists_visits_eq_cons solver.options.tolerance
      (f.oracle.checked x₀.length) solver.options.budget
      (State.initial solver.options.memory x₀ g₀) j₁
    rw [hvisits] at hchronicle
    rw [← hcapacity]
    exact hchronicle.stored_eq rfl hc
  · rw [hout]
    exact hchronicle.gradNorm_eq hdescends.getLast?_visits

/-- The log is a faithful account of the run. A run with an outcome makes the records of its
chapters, one chapter for each iteration, and the record that it is over; a curvature of which the
log says that its pair is not stored is undefined or at most the least one. A run that stops because
its last evaluation fails does not make the last record. -/
theorem log_faithful {A : Arithmetic Float} (hA : A.Standard) (f : Responder Float)
    (solver : Lbfgs Float) (hmemory : 0 < solver.options.memory) (x₀ : List Float)
    {j j' : Journal Float} :
    (∀ {out}, (solver.minimize A f.oracle x₀).perform j = (.ok out, j') →
      ∃ chapters, solver.Logged A f.oracle x₀ j out j' chapters ∧
        ∀ c ∈ chapters, ∀ curvature ∈ c.skipped, curvature.isNaN = true ∨ curvature ≤ 1e-10) ∧
    (∀ {fault}, (solver.minimize A f.oracle x₀).perform j = (.error (.fault fault), j') →
      Method.FailedAtLast f x₀.length fault j j' → Unfinished j.records j'.records) := by
  constructor
  · intro out h
    obtain ⟨chapters, hlogged⟩ := exists_logged hA.lawful f hmemory h
    refine ⟨chapters, hlogged, fun c hc curvature hcurvature => ?_⟩
    obtain ⟨v, v', htells⟩ := hlogged.chronicle.forall_tells c hc
    obtain ⟨-, -, -, hskipped⟩ | ⟨_, -, -, hskipped, hnlt, -⟩ := htells.pair
    · rw [hskipped] at hcurvature
      cases hcurvature
    · obtain rfl := Option.some.inj (hcurvature.symm.trans hskipped)
      obtain hlt | hle | hnan | hnan := Double.lt_or_le_or_isNaN History.leastCurvature curvature
      · exact absurd hlt hnlt
      · exact Or.inr hle
      · exact absurd hnan (by decide)
      · exact Or.inl hnan
  · intro fault h hfailed
    exact Method.Follows.unfinished (fun hn => solver.follows_method hA.lawful hn) hA.lawful h
      hfailed

/-- The objective `x + x² / 2 + 10¹⁶⁰ x² y`. Where the first step from the origin ends, the square
of its gradient overflows. -/
def precipice : Problem Float where
  value
    | [x, y] => .ok (x + 0.5 * (x * x) + 1e160 * (x * x) * y)
    | _ => .ok 0.0
  gradient
    | [x, y] => .ok [1.0 + x + 2e160 * x * y, 1e160 * (x * x)]
    | _ => .ok []

/-- At the precipice the second iteration comes with a warning and with a remark. A run that gets a
gradient that is too short is unfinished. -/
theorem log_faithful_precipice :
    ∃ solver : Lbfgs Float, solver = ⟨.ofSettings [.budget 2]⟩ ∧ 0 < solver.options.memory ∧
      (∃ out j' chapters, (solver.minimize .laned (Responder.ofProblem precipice).oracle
          [0.0, 0.0]).perform {} = (.ok out, j') ∧
        solver.Logged .laned (Responder.ofProblem precipice).oracle [0.0, 0.0] {} out j' chapters ∧
        j'.records.map Record.headline = ["iteration", "non-descent direction",
          "curvature update skipped", "iteration", "terminated"]) ∧
      ∃ fault j', (solver.minimize .laned Responder.narrowing.oracle [3.0, -2.0]).perform {} =
          (.error (.fault fault), j') ∧
        Method.FailedAtLast Responder.narrowing 2 fault {} j' ∧ Unfinished [] j'.records := by
  obtain ⟨solver, hsolver⟩ : ∃ solver : Lbfgs Float, solver = ⟨.ofSettings [.budget 2]⟩ :=
    ⟨_, rfl⟩
  have hmemory : 0 < solver.options.memory := by
    subst hsolver
    decide
  refine ⟨solver, hsolver, hmemory, ?_, ?_⟩
  · obtain ⟨out, j', h⟩ := Run.exists_perform_of_isOk (j := {}) (r := solver.minimize .laned
      (Responder.ofProblem precipice).oracle [0.0, 0.0]) (by subst hsolver; decide +kernel)
    obtain ⟨chapters, hlogged, -⟩ := (log_faithful .laned _ solver hmemory _).1 h
    have hheadlines : ((solver.minimize .laned (Responder.ofProblem precipice).oracle
        [0.0, 0.0]).perform {}).2.records.map Record.headline = ["iteration",
          "non-descent direction", "curvature update skipped", "iteration", "terminated"] := by
      subst hsolver
      decide +kernel
    rw [h] at hheadlines
    exact ⟨out, j', chapters, h, hlogged, hheadlines⟩
  · have hrun : ((solver.minimize .laned Responder.narrowing.oracle [3.0, -2.0]).perform {}).1 =
        .error (.fault (.gradientLength 2 1)) := by
      subst hsolver
      decide +kernel
    have htraced : (solver.method .laned).Traced .laned solver.options.lineSearch
        (State.direction .laned) Responder.narrowing solver.options.toStopping [3.0, -2.0] {} :=
      Method.Follows.traced (fun hn => solver.follows_method Arithmetic.lawful_laned hn)
        Arithmetic.lawful_laned _ _
    obtain ⟨⟨-, ⟨-, ⟨⟩⟩ | ⟨_, _, -, ⟨⟩⟩⟩, -, -⟩ | ⟨-, hfailed, -⟩ | ⟨-, -, hend⟩ :=
      htraced.fault hrun
    · have hunfinished := (log_faithful .laned Responder.narrowing solver hmemory _).2
        (Prod.ext hrun rfl) hfailed
      exact ⟨_, _, Prod.ext hrun rfl, hfailed, hunfinished⟩
    · obtain ⟨-, -, -, -, -, -, -, -, -, -, ⟨⟩⟩ := hend

end Lbfgs

end QuasiNewton
