import Mathlib.Algebra.Order.BigOperators.Group.List
import Mathlib.Algebra.Order.Ring.Nat
import QuasiNewton.Proofs.Course

/-!
# Accounting for evaluations

How often a run asked for the value and for the gradient, stage by stage. The tally in the outcome
is the number of questions that the functions were really asked, also of those whose answers were
swallowed; and each stage contributes what its search looked at (`evaluations_accounted`).
-/

namespace QuasiNewton

open LineSearch

variable {α : Type} [Scalar α]

/-- What one search contributes: nothing if the direction does not descend, and otherwise one value
at its origin, one for each trial, and the gradients of the trials that pass. -/
def LineSearch.Search.Contributes (opts : Options α) (s : Search α) : Prop :=
  (∃ slope, s = .declined slope ∧ 0.0 ≤ slope ∧ s.values = 0 ∧ s.passing opts = 0) ∨
  (∃ l trials, s = .sought l trials ∧ ¬ 0.0 ≤ l.slope ∧
    s.values = 1 + trials.length ∧ 1 ≤ trials.length ∧ trials.length ≤ 50 ∧
    s.passing opts = trials.countP (·.Passes opts l) ∧ s.passing opts ≤ trials.length)

theorem LineSearch.Search.WithinRounds.contributes {s : Search α} (hs : s.WithinRounds)
    (opts : Options α) : s.Contributes opts := by
  cases s with
  | declined slope => exact Or.inl ⟨slope, rfl, hs, rfl, rfl⟩
  | sought l trials =>
    obtain ⟨hdescends, hpos, hle⟩ := hs
    exact Or.inr ⟨l, trials, rfl, hdescends, rfl, hpos, hle, rfl, List.countP_le_length⟩

namespace Stage

/-- The questions of a run from `x₀` to `x`, in order. -/
def transcript (opts : Options α) (x₀ : List α) (stages : List (Stage α)) (x : List α) :
    List (Query α) :=
  .gradient x₀ :: (stages.flatMap (·.queries opts) ++ [.value x])

theorem countP_isValue_transcript (opts : Options α) (x₀ : List α) (stages : List (Stage α))
    (x : List α) :
    (transcript opts x₀ stages x).countP Query.isValue =
      1 + (stages.map (·.search.values)).sum := by
  have stage (t : Stage α) : (t.queries opts).countP Query.isValue = t.search.values := by
    rw [queries, List.countP_append, LineSearch.countP_isValue_queries]
    rfl
  rw [transcript, List.countP_cons_of_neg Bool.false_ne_true, List.countP_append,
    List.countP_flatMap, Nat.add_comm]
  congr 2
  exact List.map_congr_left fun t _ => stage t

theorem countP_isGradient_transcript (opts : Options α) (x₀ : List α) (stages : List (Stage α))
    (x : List α) :
    (transcript opts x₀ stages x).countP Query.isGradient =
      1 + (stages.map (·.search.passing opts + 1)).sum := by
  have stage (t : Stage α) :
      (t.queries opts).countP Query.isGradient = t.search.passing opts + 1 := by
    rw [queries, List.countP_append, LineSearch.countP_isGradient_queries]
    rfl
  have hlast : [Query.value x].countP Query.isGradient = 0 := rfl
  rw [transcript, List.countP_cons_of_pos rfl, List.countP_append, List.countP_flatMap, hlast,
    Nat.add_zero, Nat.add_comm]
  congr 2
  exact List.map_congr_left fun t _ => stage t

variable {stages : List (Stage α)} (h : ∀ t ∈ stages, t.search.WithinRounds)
include h

theorem sum_values_le : (stages.map (·.search.values)).sum ≤ 51 * stages.length := by
  have hle : ∀ v ∈ stages.map (·.search.values), v ≤ 51 := by
    rw [List.forall_mem_map]
    exact fun t ht => (h t ht).values_le
  simpa [Nat.mul_comm] using List.sum_le_card_nsmul _ _ hle

theorem sum_passing_le (opts : Options α) :
    (stages.map (·.search.passing opts + 1)).sum ≤ 51 * stages.length := by
  have hle : ∀ v ∈ stages.map (·.search.passing opts + 1), v ≤ 51 := by
    rw [List.forall_mem_map]
    exact fun t ht => Nat.add_le_add_right ((h t ht).passing_le opts) 1
  simpa [Nat.mul_comm] using List.sum_le_card_nsmul _ _ hle

omit h in
theorem length_le_sum_passing (opts : Options α) (stages : List (Stage α)) :
    stages.length ≤ (stages.map (·.search.passing opts + 1)).sum := by
  simp

end Stage

namespace Method

variable {σ : Type}

/-- The account of a run from `x₀` that is over: what was asked, and what each stage contributes to
it. -/
structure Accounted (m : Method α σ) (A : Arithmetic α) (opts : Options α)
    (direction : σ → Option (List α)) (o : Oracle α) (x₀ : List α) (j : Journal α)
    (out : Outcome α) (j' : Journal α) (asked : List (Query α)) (stages : List (Stage α)) :
    Prop where
  /-- The stages are the iterations that the run made, from the start point to the last one. -/
  course : ∃ g₀ s₀ s j₁ j₂, (o.gradient x₀).perform j.resetTally = (.ok g₀, j₁) ∧
    m.start x₀ g₀ = some s₀ ∧ m.Course A opts direction o s₀ j₁ stages s j₂ ∧
    (m.iterate s).point = out.point
  iterations : out.iterations = stages.length
  /-- The questions that the functions were asked in this run, in order. -/
  queries : j'.queries = j.queries ++ asked
  asked_eq : asked = Stage.transcript opts x₀ stages out.point
  evaluations : out.evaluations =
    [("cost_count", asked.countP Query.isValue), ("gradient_count", asked.countP Query.isGradient)]
  values : asked.countP Query.isValue = 1 + (stages.map (·.search.values)).sum
  gradients : asked.countP Query.isGradient = 1 + (stages.map (·.search.passing opts + 1)).sum
  contributes : ∀ t ∈ stages, t.search.Contributes opts
  values_bounds : 1 ≤ asked.countP Query.isValue ∧
    asked.countP Query.isValue ≤ 51 * out.iterations + 1
  gradients_bounds : out.iterations + 1 ≤ asked.countP Query.isGradient ∧
    asked.countP Query.isGradient ≤ 51 * out.iterations + 1

theorem Searches.accounted {m : Method α σ} {A : Arithmetic α} {opts : Options α}
    {direction : σ → Option (List α)} {o : Oracle α} {limits : Stopping α} {x₀ : List α}
    {j j' : Journal α} {out : Outcome α}
    (hm : m.Searches A opts direction (o.checked x₀.length)) (ho : (o.checked x₀.length).Counts)
    (hstart : ∀ {g s}, m.start x₀ g = some s → (m.iterate s).iteration = 0)
    (h : (m.minimize limits o x₀).perform j = (.ok out, j')) :
    ∃ asked stages,
      m.Accounted A opts direction (o.checked x₀.length) x₀ j out j' asked stages := by
  obtain ⟨-, g₀, j₁, s₀, t, s, j₂, hg₀, hs₀, hdescend, hconclude⟩ :=
    perform_minimize_eq_ok_iff.mp h
  obtain ⟨stages, hcourse⟩ := hm.exists_course hdescend
  obtain ⟨value, j₃, hvalue, rfl, -, -, rfl⟩ := perform_conclude_eq_ok_iff.mp hconclude
  have hrounds := hcourse.withinRounds
  have hlength : (m.iterate s).iteration = stages.length := by
    rw [hcourse.iteration_eq, hstart hs₀, Nat.zero_add]
  have hasks : j.resetTally.Asks (Stage.transcript opts x₀ stages (m.iterate s).point) j₃ :=
    (ho.asks_gradient hg₀).append ((hcourse.asks ho).append (ho.asks_value hvalue))
  -- the tally was set to zero before the first question
  have hvalues := hasks.values_eq
  have hgradients := hasks.gradients_eq
  simp only [Journal.resetTally, Nat.zero_add] at hvalues hgradients
  have hcountV := Stage.countP_isValue_transcript opts x₀ stages (m.iterate s).point
  have hcountG := Stage.countP_isGradient_transcript opts x₀ stages (m.iterate s).point
  have hsumV := Stage.sum_values_le hrounds
  have hsumG := Stage.sum_passing_le hrounds opts
  have hleast := Stage.length_le_sum_passing opts stages
  refine ⟨_, stages, ⟨g₀, s₀, s, j₁, j₂, hg₀, hs₀, hcourse, rfl⟩, hlength, ?_, rfl, ?_, hcountV,
    hcountG, fun t ht => (hrounds t ht).contributes opts, ?_, ?_⟩
  · exact (Journal.queries_push_noted _ _).trans hasks.queries_eq
  · rw [Tally.named, hvalues, hgradients]
  · dsimp only
    omega
  · dsimp only
    omega

end Method

/-- In a run with an outcome the tally is the number of questions that the functions were asked in
this run, whatever they answered. Besides the gradient at the start point and the value at the last
point, each iteration asks for the gradient at its end and for what its search looks at. -/
theorem evaluations_accounted (A : Arithmetic α) (f : Responder α) (x₀ : List α)
    {j j' : Journal α} {out : Outcome α} :
    (∀ solver : Lbfgs α, (solver.minimize A f.oracle x₀).perform j = (.ok out, j') →
      ∃ asked stages, (solver.method A).Accounted A solver.options.lineSearch
        (Lbfgs.State.direction A) (f.oracle.checked x₀.length) x₀ j out j' asked stages) ∧
    (∀ solver : SteepestDescent α, (solver.minimize A f.oracle x₀).perform j = (.ok out, j') →
      ∃ asked stages, (solver.method A).Accounted A solver.lineSearch
        (fun i => some (scale i.gradient (-1.0))) (f.oracle.checked x₀.length) x₀ j out j' asked
        stages) := by
  have hcounts := f.counts_checked x₀.length
  constructor
  · intro solver h
    exact (solver.searches_method A _).accounted hcounts Lbfgs.State.iteration_of_create h
  · intro solver h
    exact (solver.searches_method A _).accounted hcounts SteepestDescent.iteration_of_start h

/-- The valley with a fence around it, beyond which the objective has no finite value. -/
def Problem.fencedValley : Problem Float where
  value x := if norm x < 10.0 then valley.value x else .error (.nonFiniteValue (norm x))
  gradient := valley.gradient

/-- In both runs the first trials lie beyond the fence. They are counted. -/
theorem evaluations_accounted_fencedValley :
    (∃ solver : Lbfgs Float, ∃ out j' asked stages, solver = ⟨.ofSettings [.budget 2]⟩ ∧
      (solver.minimize .laned (Responder.ofProblem .fencedValley).oracle [3.0, -2.0]).perform {} =
        (.ok out, j') ∧
      (solver.method .laned).Accounted .laned solver.options.lineSearch
        (Lbfgs.State.direction .laned) ((Responder.ofProblem .fencedValley).oracle.checked 2)
        [3.0, -2.0] {} out j' asked stages ∧
      out.evaluations = [("cost_count", 9), ("gradient_count", 5)]) ∧
    (∃ solver : SteepestDescent Float, ∃ out j' asked stages,
      solver = ⟨⟨1e-6, 2⟩, .standard⟩ ∧
      (solver.minimize .sequential (Responder.ofProblem .fencedValley).oracle
        [3.0, -2.0]).perform {} = (.ok out, j') ∧
      (solver.method .sequential).Accounted .sequential solver.lineSearch
        (fun i => some (scale i.gradient (-1.0)))
        ((Responder.ofProblem .fencedValley).oracle.checked 2) [3.0, -2.0] {} out j' asked stages ∧
      out.evaluations = [("cost_count", 13), ("gradient_count", 5)]) := by
  constructor
  · have hrun : ((((⟨.ofSettings [.budget 2]⟩ : Lbfgs Float).minimize .laned
        (Responder.ofProblem .fencedValley).oracle [3.0, -2.0]).perform {}).1.toOption.map
          Outcome.evaluations) = some [("cost_count", 9), ("gradient_count", 5)] := by
      decide +kernel
    obtain ⟨out, j', h, hcounts⟩ := Run.exists_perform_of_map_eq_some hrun
    obtain ⟨asked, stages, haccount⟩ := (evaluations_accounted .laned _ _).1 _ h
    exact ⟨_, out, j', asked, stages, rfl, h, haccount, hcounts⟩
  · have hrun : ((((⟨⟨1e-6, 2⟩, .standard⟩ : SteepestDescent Float).minimize .sequential
        (Responder.ofProblem .fencedValley).oracle [3.0, -2.0]).perform {}).1.toOption.map
          Outcome.evaluations) = some [("cost_count", 13), ("gradient_count", 5)] := by
      decide +kernel
    obtain ⟨out, j', h, hcounts⟩ := Run.exists_perform_of_map_eq_some hrun
    obtain ⟨asked, stages, haccount⟩ := (evaluations_accounted .sequential _ _).2 _ h
    exact ⟨_, out, j', asked, stages, rfl, h, haccount, hcounts⟩

end QuasiNewton
