import QuasiNewton.Framework
import QuasiNewton.Proofs.Provenance

/-!
# Problems of a framework are solved like any other

The functions of a framework fail in the framework's way, and each failure is read as a fault
(`FrameworkFailure.readsAs_iff`). A solver cannot tell such functions from functions that report the
faults themselves: the runs are the same down to the journal. What a run survives is known of the
framework's own failures, too. It is a fault that was handed to the framework and says that a value
or a gradient is not finite, at a trial (`wrapped_runs_same`).
-/

namespace QuasiNewton

variable {α : Type}

/-! ### How failures are read -/

namespace FrameworkFailure

/-- The fault as which a failure of the framework is to be read: a complaint keeps its name and its
text, a fault comes back as it was handed over, and of anything else the text is kept. -/
inductive ReadsAs : FrameworkFailure α → Fault α → Prop where
  | complaint (c : Complaint) (text : String) : ReadsAs (.complaint c text) (.framework c text)
  | carried (f : Fault α) : ReadsAs f.toFramework f
  | other (text : String) : ReadsAs (.other text) (.foreign text)

variable {e : FrameworkFailure α} {fault : Fault α}

theorem readsAs_iff : e.ReadsAs fault ↔ e.toFault = fault := by
  constructor
  · rintro (_ | _ | _) <;> rfl
  · rintro rfl
    cases e with
    | complaint c text => exact .complaint c text
    | carried f => exact .carried f
    | other text => exact .other text

/-- The failures that a trial is to survive: faults that were handed to the framework and that say
of a value or of a gradient that it is not finite. -/
inductive Recoverable : Query α → FrameworkFailure α → Prop where
  | value (x : List α) (v : α) : Recoverable (.value x) (Fault.nonFiniteValue v).toFramework
  | gradient (x : List α) (index : Nat) (a : α) (reason : String) :
      Recoverable (.gradient x) (Fault.invalidGradient index a reason).toFramework

/-- No complaint, and no failure of which only the text is known, is taken for a fault that trials
swallow. -/
theorem recoverable_iff {q : Query α} : e.Recoverable q ↔ LineSearch.Swallows q e.toFault := by
  constructor
  · rintro (⟨x, v⟩ | ⟨x, index, a, reason⟩)
    · exact .value
    · exact .gradient
  · cases e with
    | complaint c text => rintro ⟨⟩
    | other text => rintro ⟨⟩
    | carried f =>
      rintro (_ | _)
      · exact .value _ _
      · exact .gradient _ _ _ _

end FrameworkFailure

/-- An answer is passed on, and a failure is read as a fault. -/
inductive ReadsAs {β : Type} : Except (FrameworkFailure α) β → Except (Fault α) β → Prop where
  | ok (b : β) : ReadsAs (.ok b) (.ok b)
  | error {e : FrameworkFailure α} {f : Fault α} (h : e.ReadsAs f) : ReadsAs (.error e) (.error f)

theorem readsAs_iff {β : Type} {a : Except (FrameworkFailure α) β} {b : Except (Fault α) β} :
    ReadsAs a b ↔ a.mapError FrameworkFailure.toFault = b := by
  constructor
  · rintro (_ | h)
    · rfl
    · exact congrArg Except.error (FrameworkFailure.readsAs_iff.mp h)
  · rintro rfl
    cases a with
    | ok b => exact .ok b
    | error e => exact .error (FrameworkFailure.readsAs_iff.mpr rfl)

/-- What is handed to the framework reads as it was. -/
theorem readsAs_mapError_toFramework {β : Type} (a : Except (Fault α) β) :
    ReadsAs (a.mapError Fault.toFramework) a := by
  cases a with
  | ok b => exact .ok b
  | error f => exact .error (.carried f)

/-! ### Functions that fail in the framework's way -/

/-- An objective and its gradient as the framework states them, whose answers and failures may
depend on the questions asked before. -/
structure FrameworkResponder (α : Type) where
  cost : List (Query α) → List α → Except (FrameworkFailure α) α
  gradient : List (Query α) → List α → Except (FrameworkFailure α) (List α)

namespace FrameworkResponder

/-- The same functions, with their failures read as faults. -/
def toResponder (g : FrameworkResponder α) : Responder α where
  value asked x := (g.cost asked x).mapError FrameworkFailure.toFault
  gradient asked x := (g.gradient asked x).mapError FrameworkFailure.toFault

/-- Functions that take no notice of what was asked before. -/
def ofProblem (p : FrameworkProblem α) : FrameworkResponder α where
  cost _ := p.cost
  gradient _ := p.gradient

/-- Functions that hand their faults to the framework. -/
def ofResponder (f : Responder α) : FrameworkResponder α where
  cost asked x := (f.value asked x).mapError Fault.toFramework
  gradient asked x := (f.gradient asked x).mapError Fault.toFramework

@[simp] theorem value_toResponder (g : FrameworkResponder α) (asked : List (Query α))
    (x : List α) :
    g.toResponder.value asked x = (g.cost asked x).mapError FrameworkFailure.toFault := rfl

@[simp] theorem gradient_toResponder (g : FrameworkResponder α) (asked : List (Query α))
    (x : List α) :
    g.toResponder.gradient asked x = (g.gradient asked x).mapError FrameworkFailure.toFault := rfl

theorem oracle_toResponder_ofProblem (p : FrameworkProblem α) :
    (ofProblem p).toResponder.oracle = p.toProblem.oracle := rfl

/-- The functions `f` report as faults what the functions of the framework fail with. -/
structure Restates (g : FrameworkResponder α) (f : Responder α) : Prop where
  value : ∀ asked x, ReadsAs (g.cost asked x) (f.value asked x)
  gradient : ∀ asked x, ReadsAs (g.gradient asked x) (f.gradient asked x)

variable {g : FrameworkResponder α} {f : Responder α}

/-- Functions that hand their faults to the framework are restated by themselves. -/
theorem restates_ofResponder (f : Responder α) : (ofResponder f).Restates f where
  value asked x := readsAs_mapError_toFramework (f.value asked x)
  gradient asked x := readsAs_mapError_toFramework (f.gradient asked x)

theorem Restates.eq_toResponder (h : g.Restates f) : f = g.toResponder := by
  obtain ⟨hvalue, hgradient⟩ := h
  cases f with
  | mk value gradient =>
    rw [toResponder, Responder.mk.injEq]
    exact ⟨funext₂ fun asked x => (readsAs_iff.mp (hvalue asked x)).symm,
      funext₂ fun asked x => (readsAs_iff.mp (hgradient asked x)).symm⟩

variable [Scalar α] {n : Nat} {asked : List (Query α)} {x : List α} {e : FrameworkFailure α}

theorem admissibleValue_of_error (h : g.cost asked x = .error e) :
    g.toResponder.admissibleValue asked x = .error e.toFault := by
  rw [Responder.admissibleValue, value_toResponder, h]
  rfl

theorem admissibleGradient_of_error (h : g.gradient asked x = .error e) :
    g.toResponder.admissibleGradient n asked x = .error e.toFault := by
  rw [Responder.admissibleGradient, gradient_toResponder, h]
  rfl

/-- The failure of the evaluation that a question asks for. -/
def failure? (g : FrameworkResponder α) (asked : List (Query α)) :
    Query α → Option (FrameworkFailure α)
  | .value x =>
    match g.cost asked x with
    | .ok _ => none
    | .error e => some e
  | .gradient x =>
    match g.gradient asked x with
    | .ok _ => none
    | .error e => some e

/-- A failure of the framework is a failure once it is read as a fault. -/
theorem failure?_toResponder {q : Query α} (h : g.failure? asked q = some e) (n : Nat) :
    g.toResponder.failure? n asked q = some e.toFault := by
  cases q with
  | value x =>
    rw [failure?] at h
    split at h <;> cases h
    rename_i hcost
    rw [Responder.failure?, admissibleValue_of_error hcost]
  | gradient x =>
    rw [failure?] at h
    split at h <;> cases h
    rename_i hgradient
    rw [Responder.failure?, admissibleGradient_of_error hgradient]

end FrameworkResponder

/-! ### Trials -/

namespace LineSearch

variable [Scalar α] {A : Arithmetic α} {opts : Options α} {f : Responder α} {n : Nat} {l : Line α}
  {step : α} {point : List α} {j : Journal α} {fault : Fault α}

/-- A trial comes to an evaluation that fails. It takes the step for too long where the failure is
`recoverable`, and anywhere else it stops. -/
structure Heeds (trial : Run α Verdict) (recoverable : Prop) (fault : Fault α)
    (j j' : Journal α) : Prop where
  recovered : recoverable → trial.perform j = (.ok .tooLong, j')
  stopped : ¬ recoverable → trial.perform j = (.error (.fault fault), j')

theorem Line.heeds_value (hpoint : A.addScaled l.origin l.direction step = some point)
    (hfault : f.admissibleValue j.queries point = .error fault) :
    Heeds (l.judge A opts (f.oracle.checked n) step) (Swallows (.value point) fault) fault j
      (j.countValue.push (.asked (.value point))) := by
  have hvalue : (((f.oracle.checked n).value point).attempt).perform j =
      (.ok (.error fault), j.countValue.push (.asked (.value point))) := by
    rw [Run.perform_attempt, f.perform_checked_value, hfault]
    rfl
  constructor
  · rintro ⟨⟩
    simp [judge, trialValue, Run.perform_bind, hpoint, hvalue]
  · intro hs
    simp only [judge, trialValue, Run.perform_bind, hpoint, hvalue, Run.perform_ofOption_some]
    cases fault with
    | nonFiniteValue v => exact absurd .value hs
    | _ => rfl

theorem Line.heeds_gradient {v : α} {j₁ : Journal α}
    (hpoint : A.addScaled l.origin l.direction step = some point)
    (hvalue : f.admissibleValue j.queries point = .ok v) (hdecreases : l.Decreases opts step v)
    (hj₁ : j.countValue.push (.asked (.value point)) = j₁)
    (hfault : f.admissibleGradient n j₁.queries point = .error fault) :
    Heeds (l.judge A opts (f.oracle.checked n) step) (Swallows (.gradient point) fault) fault j
      (j₁.countGradient.push (.asked (.gradient point))) := by
  have hfinite := (Responder.admissibleValue_eq_ok_iff.mp hvalue).2
  have hvalue : (((f.oracle.checked n).value point).attempt).perform j = (.ok (.ok v), j₁) := by
    rw [Run.perform_attempt, f.perform_checked_value, hvalue, hj₁]
    rfl
  have hgradient : (((f.oracle.checked n).gradient point).attempt).perform j₁ =
      (.ok (.error fault), j₁.countGradient.push (.asked (.gradient point))) := by
    rw [Run.perform_attempt, f.perform_checked_gradient, hfault]
    rfl
  constructor
  · rintro ⟨⟩
    simp [judge, trialValue, trialSlope, Run.perform_bind, hpoint, hvalue, hfinite, hdecreases,
      hgradient, judgeSlope]
  · intro hs
    simp only [judge, trialValue, trialSlope, Run.perform_bind, hpoint, hvalue, hfinite, if_true,
      Run.perform_pure, Run.perform_ofOption_some, if_pos hdecreases, hgradient]
    cases fault with
    | invalidGradient index a reason => exact absurd .gradient hs
    | _ => rfl

end LineSearch

/-! ### Runs -/

variable [Scalar α]

/-- The last evaluation of a run with an outcome succeeded. -/
theorem Method.failure?_eq_none_of_ok {σ : Type} {m : Method α σ} {limits : Stopping α}
    {f : Responder α} {x₀ : List α} {j j' : Journal α} {out : Outcome α}
    {before : List (Query α)} {q : Query α}
    (h : (m.minimize limits f.oracle x₀).perform j = (.ok out, j'))
    (hlast : j'.queries = before ++ [q]) : f.failure? x₀.length before q = none := by
  obtain ⟨s, j₁, -, hconclude, -⟩ := exists_loop_of_minimize h
  obtain ⟨value, j₂, hvalue, rfl, -⟩ := perform_conclude_eq_ok_iff.mp hconclude
  rw [f.perform_checked_value, Prod.mk.injEq] at hvalue
  obtain ⟨hvalue, rfl⟩ := hvalue
  rw [Journal.queries_push_noted, Journal.queries_push_asked] at hlast
  obtain ⟨rfl, rfl⟩ := List.append_singleton_inj.mp hlast
  rw [Responder.failure?, Journal.queries_countValue, mapError_eq_ok_iff.mp hvalue]

namespace FrameworkResponder

/-- A trial survives the failures of the framework that are recoverable, and stops at any other one
with the fault as which it is read. -/
structure HeededAtTrials (g : FrameworkResponder α) (A : Arithmetic α)
    (opts : LineSearch.Options α) (n : Nat) : Prop where
  value : ∀ {l : LineSearch.Line α} {step : α} {point : List α} {j : Journal α}
    {e : FrameworkFailure α} {fault : Fault α},
    A.addScaled l.origin l.direction step = some point →
    g.cost j.queries point = .error e → e.ReadsAs fault →
    LineSearch.Heeds (l.judge A opts (g.toResponder.oracle.checked n) step)
      (e.Recoverable (.value point)) fault j (j.countValue.push (.asked (.value point)))
  gradient : ∀ {l : LineSearch.Line α} {step v : α} {point : List α} {j j₁ : Journal α}
    {e : FrameworkFailure α} {fault : Fault α},
    A.addScaled l.origin l.direction step = some point →
    g.cost j.queries point = .ok v → Scalar.isFinite v = true → l.Decreases opts step v →
    j.countValue.push (.asked (.value point)) = j₁ →
    g.gradient j₁.queries point = .error e → e.ReadsAs fault →
    LineSearch.Heeds (l.judge A opts (g.toResponder.oracle.checked n) step)
      (e.Recoverable (.gradient point)) fault j (j₁.countGradient.push (.asked (.gradient point)))

theorem heededAtTrials (g : FrameworkResponder α) (A : Arithmetic α)
    (opts : LineSearch.Options α) (n : Nat) : g.HeededAtTrials A opts n where
  value := by
    intro l step point j e fault hpoint hcost hreads
    obtain rfl := FrameworkFailure.readsAs_iff.mp hreads
    rw [FrameworkFailure.recoverable_iff]
    exact LineSearch.Line.heeds_value hpoint (admissibleValue_of_error hcost)
  gradient := by
    intro l step v point j j₁ e fault hpoint hcost hfinite hdecreases hj₁ hgradient hreads
    obtain rfl := FrameworkFailure.readsAs_iff.mp hreads
    have hvalue : g.toResponder.admissibleValue j.queries point = .ok v := by
      rw [Responder.admissibleValue_eq_ok_iff, value_toResponder, hcost]
      exact ⟨rfl, hfinite⟩
    rw [FrameworkFailure.recoverable_iff]
    exact LineSearch.Line.heeds_gradient hpoint hvalue hdecreases hj₁
      (admissibleGradient_of_error hgradient)

end FrameworkResponder

namespace Method

variable {σ : Type}

/-- A run on the functions of the framework is the one on functions that report the faults, and what
becomes of each failure is known of the framework's failure itself. -/
structure Transparent (m : Method α σ) (A : Arithmetic α) (opts : LineSearch.Options α)
    (direction : σ → Option (List α)) (g : FrameworkResponder α) (f : Responder α)
    (limits : Stopping α) (x₀ : List α) (j : Journal α) : Prop where
  /-- The result, the questions and the records are the same. -/
  same : (m.minimize limits g.toResponder.oracle x₀).perform j =
    (m.minimize limits f.oracle x₀).perform j
  /-- A failure after which the run goes on is recoverable, and happens at a trial. -/
  survived : ∀ {before : List (Query α)} {q q' : Query α} {e : FrameworkFailure α},
    j.queries <+: before →
    before ++ [q, q'] <+: ((m.minimize limits g.toResponder.oracle x₀).perform j).2.queries →
    g.failure? before q = some e →
    m.Trial A opts direction g.toResponder limits x₀ j before q ∧ e.Recoverable q
  /-- A failure after which the run asks nothing is the one with which it ends. -/
  ended : ∀ {before : List (Query α)} {q : Query α} {e : FrameworkFailure α},
    j.queries <+: before →
    ((m.minimize limits g.toResponder.oracle x₀).perform j).2.queries = before ++ [q] →
    g.failure? before q = some e →
    ∃ fault, e.ReadsAs fault ∧
      ((m.minimize limits g.toResponder.oracle x₀).perform j).1 = .error (.fault fault)

theorem transparent_of_traced {m : Method α σ} {A : Arithmetic α} {opts : LineSearch.Options α}
    {direction : σ → Option (List α)} {g : FrameworkResponder α} {f : Responder α}
    {limits : Stopping α} {x₀ : List α} {j : Journal α} (hf : g.Restates f)
    (htraced : m.Traced A opts direction g.toResponder limits x₀ j) :
    m.Transparent A opts direction g f limits x₀ j where
  same := by rw [hf.eq_toResponder]
  survived := by
    intro before q q' e hbefore hinitial hfailure
    obtain ⟨htrial, hswallows⟩ :=
      htraced.swallowed hbefore hinitial (g.failure?_toResponder hfailure _)
    exact ⟨htrial, FrameworkFailure.recoverable_iff.mpr hswallows⟩
  ended := by
    intro before q e hbefore hlast hfailure
    refine ⟨e.toFault, FrameworkFailure.readsAs_iff.mpr rfl, ?_⟩
    have hfails := g.failure?_toResponder hfailure x₀.length
    rcases hrun : (m.minimize limits g.toResponder.oracle x₀).perform j with
      ⟨(fault | _ | _) | out, j'⟩
    · have hways := htraced.fault (congrArg Prod.fst hrun)
      rw [hrun] at hlast hways
      obtain ⟨⟨hnone, -⟩, -⟩ | ⟨-, ⟨before', q', -, hlast', hfails'⟩, -⟩ | ⟨-, -, hend⟩ := hways
      · -- nothing was asked, but `q` was
        have hle := hbefore.length_le
        rw [← hnone, hlast, List.length_append, List.length_singleton] at hle
        omega
      · obtain ⟨rfl, rfl⟩ := List.append_singleton_inj.mp (hlast.symm.trans hlast')
        cases hfails.symm.trans hfails'
        rfl
      · obtain ⟨s, j₁, -, -, -, -, hlast', hsucceeds, -⟩ := hend
        obtain ⟨rfl, rfl⟩ := List.append_singleton_inj.mp (hlast.symm.trans hlast')
        cases hfails.symm.trans hsucceeds
    · exact absurd (congrArg Prod.fst hrun) htraced.ne_misfit
    · -- the last question was that for the gradient at the start point, which succeeded
      obtain ⟨-, hasked, hsucceeds⟩ := htraced.noRoom (congrArg Prod.fst hrun)
      obtain ⟨rfl, rfl⟩ := List.append_singleton_inj.mp (hlast.symm.trans hasked)
      cases hfails.symm.trans hsucceeds
    · rw [hrun] at hlast
      cases hfails.symm.trans (failure?_eq_none_of_ok hrun hlast)

end Method

/-- Whatever functions the framework states, and wherever they fail: both solvers make the same run
on them as on functions `f` that report the faults themselves, and a run survives no failure but
those of trials that are recoverable. A problem of the framework is one that takes no notice of what
was asked before. -/
theorem wrapped_runs_same {A : Arithmetic α} (hA : A.Standard) {g : FrameworkResponder α}
    {f : Responder α} (hf : g.Restates f) (x₀ : List α) (j : Journal α) :
    (∀ fault : Fault α, fault.toFramework.toFault = fault) ∧
    (∀ (e : FrameworkFailure α) (fault : Fault α), e.toFault = fault ↔ e.ReadsAs fault) ∧
    (∀ p : FrameworkProblem α,
      (FrameworkResponder.ofProblem p).toResponder.oracle = p.toProblem.oracle) ∧
    (∀ solver : Lbfgs α, (solver.method A).Transparent A solver.options.lineSearch
      (Lbfgs.State.direction A) g f solver.options.toStopping x₀ j) ∧
    (∀ options : Lbfgs.Options α, (Lbfgs.minimizeWith A options g.toResponder.oracle x₀).perform j =
      (Lbfgs.minimizeWith A options f.oracle x₀).perform j) ∧
    (∀ solver : SteepestDescent α, (solver.method A).Transparent A solver.lineSearch
      (fun i => some (scale i.gradient (-1.0))) g f solver.toStopping x₀ j) ∧
    ∀ (opts : LineSearch.Options α) (n : Nat), g.HeededAtTrials A opts n := by
  refine ⟨Fault.toFault_toFramework, fun _ _ => FrameworkFailure.readsAs_iff.symm,
    FrameworkResponder.oracle_toResponder_ofProblem, ?_, ?_, ?_, g.heededAtTrials A⟩
  · intro solver
    exact Method.transparent_of_traced hf
      (Method.Follows.traced (fun hn => solver.follows_method hA.lawful hn) hA.lawful _ j)
  · intro options
    rw [hf.eq_toResponder]
  · intro solver
    exact Method.transparent_of_traced hf
      (Method.Follows.traced (fun hn => solver.follows_method hA.lawful hn) hA.lawful _ j)

/-- The valley with a fence, stated for a framework. Beyond the fence a fault is handed to the
framework, and from the fifth question on the framework complains that there is no gradient. -/
def FrameworkResponder.fencedValley : FrameworkResponder Float where
  cost asked := (ofResponder (.ofProblem .fencedValley)).cost asked
  gradient asked x :=
    if asked.length < 4 then (ofResponder (.ofProblem .valley)).gradient asked x
    else .error (.complaint .notImplemented "gradient")

/-- The same functions, which report the faults themselves. -/
def Responder.fencedValley : Responder Float where
  value _ := Problem.fencedValley.value
  gradient asked x :=
    if asked.length < 4 then Problem.valley.gradient x
    else .error (.framework .notImplemented "gradient")

theorem FrameworkResponder.restates_fencedValley : fencedValley.Restates .fencedValley where
  value := (restates_ofResponder (.ofProblem .fencedValley)).value
  gradient asked x := by
    rw [fencedValley, Responder.fencedValley]
    dsimp only
    split
    · exact (restates_ofResponder (.ofProblem .valley)).gradient asked x
    · exact .error (.complaint _ _)

/-- The first trial lies beyond the fence, which the run survives. It ends with the complaint. -/
theorem wrapped_runs_same_fencedValley :
    ∃ solver : Lbfgs Float, ∃ result j', solver = ⟨.ofSettings [.budget 2]⟩ ∧
      (solver.minimize .laned FrameworkResponder.fencedValley.toResponder.oracle
        [3.0, -2.0]).perform {} = (result, j') ∧
      (solver.minimize .laned Responder.fencedValley.oracle [3.0, -2.0]).perform {} =
        (result, j') ∧
      result = .error (.fault (.framework .notImplemented "gradient")) ∧
      ∃ before q q' e, before ++ [q, q'] <+: j'.queries ∧
        FrameworkResponder.fencedValley.failure? before q = some e ∧ e.Recoverable q := by
  obtain ⟨solver, hsolver⟩ : ∃ solver : Lbfgs Float, solver = ⟨.ofSettings [.budget 2]⟩ := ⟨_, rfl⟩
  obtain ⟨-, -, -, hlbfgs, -⟩ := wrapped_runs_same .laned FrameworkResponder.restates_fencedValley
    [3.0, -2.0] {}
  obtain ⟨hsame, hsurvived, hended⟩ := hlbfgs solver
  rcases hrun : (solver.minimize .laned FrameworkResponder.fencedValley.toResponder.oracle
    [3.0, -2.0]).perform {} with ⟨result, j'⟩
  have hj' : ((solver.minimize .laned FrameworkResponder.fencedValley.toResponder.oracle
      [3.0, -2.0]).perform {}).2 = j' := congrArg Prod.snd hrun
  have hfailures :
      (j'.queries[2]?.bind (FrameworkResponder.fencedValley.failure? (j'.queries.take 2))).isSome =
        true ∧ j'.queries[3]?.isSome = true ∧
      (j'.queries.getLast?.bind
        (FrameworkResponder.fencedValley.failure? j'.queries.dropLast)).map
          FrameworkFailure.toFault = some (.framework .notImplemented "gradient") := by
    rw [← hj', hsolver]
    decide +kernel
  obtain ⟨hthird, hfourth, hlast⟩ := hfailures
  refine ⟨solver, result, j', hsolver, hrun, hsame.symm.trans hrun, ?_, ?_⟩
  · obtain ⟨e, he, hreads⟩ := Option.map_eq_some_iff.mp hlast
    obtain ⟨q, hq, hfailure⟩ := Option.bind_eq_some_iff.mp he
    have hqueries := (List.dropLast_append_getLast? q hq).symm
    rw [← hj'] at hqueries hfailure
    obtain ⟨fault, hfault, hresult⟩ := hended List.nil_prefix hqueries hfailure
    obtain rfl := FrameworkFailure.readsAs_iff.mp hfault
    rw [← hreads, ← hresult]
    exact (congrArg Prod.fst hrun).symm
  · obtain ⟨e, he⟩ := Option.isSome_iff_exists.mp hthird
    obtain ⟨q, hq, hfailure⟩ := Option.bind_eq_some_iff.mp he
    obtain ⟨q', hq'⟩ := Option.isSome_iff_exists.mp hfourth
    have hinitial : j'.queries.take 2 ++ [q, q'] <+: j'.queries := by
      have hprefix := List.take_prefix 4 j'.queries
      rwa [List.take_add_one, List.take_add_one, hq, hq', List.append_assoc] at hprefix
    rw [← hj'] at hinitial hfailure
    obtain ⟨-, hrecoverable⟩ := hsurvived List.nil_prefix hinitial hfailure
    rw [hj'] at hinitial hfailure
    exact ⟨_, q, q', e, hinitial, hfailure, hrecoverable⟩

end QuasiNewton
