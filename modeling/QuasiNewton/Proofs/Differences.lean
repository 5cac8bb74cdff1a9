import Mathlib.Data.List.Forall2
import QuasiNewton.Differences
import QuasiNewton.Proofs.Responder

/-!
# Gradients by differences

Which of the two gradients by differences is the answer, and what is asked on the way
(`Differences.gradient_falls_back`). Central quotients that are all there and finite are the answer,
and the objective is asked on both sides of every coordinate and nowhere else. In any other case
forward differences are asked for as well, and the objective at their points alone decides: the
first failure there, or else the first quotient that is not finite, is the fault.
-/

namespace QuasiNewton

variable {α β ι : Type}

/-! ### Questions in a row -/

namespace Journal

/-- Enter questions, one after the other. -/
def askAll (j : Journal α) (qs : List (Query α)) : Journal α :=
  { j with entries := j.entries ++ (qs.map .asked).toArray }

@[simp] theorem askAll_nil (j : Journal α) : j.askAll [] = j := by
  simp [askAll]

@[simp] theorem askAll_askAll (j : Journal α) (qs rs : List (Query α)) :
    (j.askAll qs).askAll rs = j.askAll (qs ++ rs) := by
  simp [askAll]

theorem push_asked (j : Journal α) (q : Query α) : j.push (.asked q) = j.askAll [q] := by
  simp [askAll, push]

end Journal

/-- Whether the objective fails is found out without a stop. -/
theorem Problem.perform_attempt_value (p : Problem α) (z : List α) (j : Journal α) :
    (Run.attempt (p.oracle.value z)).perform j = (.ok (p.value z), j.askAll [.value z]) := by
  rw [Run.perform_attempt, p.perform_value, Journal.push_asked]
  cases p.value z <;> rfl

/-- Runs in a row none of which stops. -/
theorem Run.perform_mapM {f : ι → Run α β} {b : ι → β} {qs : ι → List (Query α)}
    (hf : ∀ i j, (f i).perform j = (.ok (b i), j.askAll (qs i))) (l : List ι) (j : Journal α) :
    (l.mapM f).perform j = (.ok (l.map b), j.askAll (l.flatMap qs)) := by
  induction l generalizing j with
  | nil => simp
  | cons i l ih =>
    rw [List.mapM_cons, perform_bind, hf]
    dsimp only
    rw [perform_bind, ih]
    simp

/-! ### Answers in a row -/

/-- The fault at the first of the points at which the objective fails. -/
inductive Problem.FirstFailure (p : Problem α) : List (List α) → Fault α → Prop where
  | here {z : List α} {later : List (List α)} {fault : Fault α} (h : p.value z = .error fault) :
      FirstFailure p (z :: later) fault
  | later {z : List α} {later : List (List α)} {v : α} {fault : Fault α} (h : p.value z = .ok v)
      (hlater : FirstFailure p later fault) : FirstFailure p (z :: later) fault

theorem mapM_eq_ok_iff {ε : Type} {f : ι → Except ε β} {l : List ι} {bs : List β} :
    l.mapM f = .ok bs ↔ List.Forall₂ (fun i b => f i = .ok b) l bs := by
  induction l generalizing bs with
  | nil => cases bs <;> simp [pure, Except.pure]
  | cons i l ih =>
    rw [List.mapM_cons]
    cases hi : f i with
    | error e => cases bs <;> simp [bind, Except.bind, hi]
    | ok b =>
      cases hl : l.mapM f <;> cases bs <;> simp [bind, Except.bind, pure, Except.pure, hi, ← ih, hl]

/-- What is made of values, each for itself, fails where the first of the values fails. -/
theorem Problem.firstFailure_of_mapM {p : Problem α} {z : ι → List α} {make : α → β} {l : List ι}
    {fault : Fault α}
    (h : (l.mapM fun i => do return make (← p.value (z i)) : Except (Fault α) (List β)) =
      .error fault) :
    p.FirstFailure (l.map z) fault := by
  induction l with
  | nil => cases h
  | cons i l ih =>
    rw [List.mapM_cons] at h
    cases hi : p.value (z i) with
    | error f =>
      rw [hi] at h
      cases h
      exact .here hi
    | ok v =>
      refine .later hi (ih ?_)
      rw [hi] at h
      change (do let bs ← List.mapM _ l; return make v :: bs : Except (Fault α) (List β)) = _ at h
      cases hl : l.mapM fun i => (do return make (← p.value (z i)) : Except (Fault α) β) with
      | error f =>
        rw [hl] at h
        cases h
        rfl
      | ok bs =>
        rw [hl] at h
        cases h

variable [Scalar α]

namespace Differences

/-! ### Quotients -/

/-- The points on either side of `x`, coordinate by coordinate. -/
def centralPoints (x : List α) : List (List α) :=
  (List.range x.length).flatMap fun i => [displace x i width, displace x i (-width)]

/-- The point itself, and then the points on one side of it. -/
def forwardPoints (x : List α) : List (List α) :=
  x :: (List.range x.length).map fun i => displace x i width

@[simp] theorem length_centralPoints (x : List α) : (centralPoints x).length = 2 * x.length := by
  simp [centralPoints, List.length_flatMap, Nat.mul_comm]

@[simp] theorem length_forwardPoints (x : List α) : (forwardPoints x).length = x.length + 1 := by
  simp [forwardPoints]

/-- All values on either side are there, and these are their quotients. -/
def CentralQuotients (p : Problem α) (x g : List α) : Prop :=
  List.Forall₂ (fun i a => ∃ above below, p.value (displace x i width) = .ok above ∧
    p.value (displace x i (-width)) = .ok below ∧ a = (above - below) / (2.0 * width))
    (List.range x.length) g

/-- The values at the point and on one side of it are there, and these are their quotients. -/
def ForwardQuotients (p : Problem α) (x g : List α) : Prop :=
  ∃ here, p.value x = .ok here ∧
    List.Forall₂ (fun i a => ∃ above, p.value (displace x i width) = .ok above ∧
      a = (above - here) / width) (List.range x.length) g

/-- Central differences have a gradient to show. -/
def CentralSuffice (p : Problem α) (x : List α) : Prop :=
  ∃ g, CentralQuotients p x g ∧ ∀ a ∈ g, Scalar.isFinite a = true

/-- What the quotients come to, or the first failure among the values. -/
def centralResult (p : Problem α) (x : List α) : Except (Fault α) (List α) :=
  (List.range x.length).mapM fun i => do
    return ((← p.value (displace x i width)) - (← p.value (displace x i (-width)))) / (2.0 * width)

def forwardResult (p : Problem α) (x : List α) : Except (Fault α) (List α) := do
  let v ← p.value x
  ((List.range x.length).map fun i => p.value (displace x i width)).mapM fun a => do
    return ((← a) - v) / width

variable {p : Problem α} {x g : List α} {j : Journal α}

theorem centralResult_eq_ok_iff : centralResult p x = .ok g ↔ CentralQuotients p x g := by
  rw [centralResult, mapM_eq_ok_iff, CentralQuotients]
  congr! 3 with i a
  cases p.value (displace x i width) with
  | error f => simp [bind, Except.bind]
  | ok above =>
    cases p.value (displace x i (-width)) with
    | error f => simp [bind, Except.bind]
    | ok below => simp [bind, Except.bind, pure, Except.pure, eq_comm]

theorem forwardResult_eq_ok_iff : forwardResult p x = .ok g ↔ ForwardQuotients p x g := by
  rw [forwardResult, ForwardQuotients]
  cases p.value x with
  | error f => simp [bind, Except.bind]
  | ok here =>
    change List.mapM _ _ = Except.ok g ↔ _
    rw [mapM_eq_ok_iff, List.forall₂_map_left_iff]
    simp only [Except.ok.injEq, exists_eq_left']
    congr! 3 with i a
    cases p.value (displace x i width) with
    | error f => simp [bind, Except.bind]
    | ok above => simp [bind, Except.bind, pure, Except.pure, eq_comm]

theorem firstFailure_of_forwardResult {fault : Fault α}
    (h : forwardResult p x = .error fault) : p.FirstFailure (forwardPoints x) fault := by
  rw [forwardResult] at h
  cases hx : p.value x with
  | error f =>
    rw [hx] at h
    cases h
    exact .here hx
  | ok here =>
    rw [hx] at h
    change List.mapM _ _ = Except.error fault at h
    rw [List.mapM_map] at h
    exact .later hx (Problem.firstFailure_of_mapM h)

/-- Two objectives with the same answers at the points of forward differences. -/
theorem forwardResult_congr {q : Problem α} (h : ∀ z ∈ forwardPoints x, q.value z = p.value z) :
    forwardResult q x = forwardResult p x := by
  have hhere : q.value x = p.value x := h x List.mem_cons_self
  have habove : (List.range x.length).map (fun i => q.value (displace x i width)) =
      (List.range x.length).map fun i => p.value (displace x i width) :=
    List.map_congr_left fun i hi => h _ (List.mem_cons_of_mem _ (List.mem_map_of_mem hi))
  rw [forwardResult, forwardResult, hhere, habove]

/-! ### What is asked -/

theorem perform_central (p : Problem α) (x : List α) (j : Journal α) :
    (central p.oracle.value x).perform j =
      (.ok (centralResult p x), j.askAll ((centralPoints x).map .value)) := by
  have hentry (i : Nat) (j : Journal α) :
      (do
        let above ← Run.attempt (p.oracle.value (displace x i width))
        let below ← Run.attempt (p.oracle.value (displace x i (-width)))
        pure do return ((← above) - (← below)) / (2.0 * width) :
        Run α (Except (Fault α) α)).perform j =
      (.ok (do return ((← p.value (displace x i width)) - (← p.value (displace x i (-width)))) /
          (2.0 * width)),
        j.askAll [.value (displace x i width), .value (displace x i (-width))]) := by
    rw [Run.perform_bind, p.perform_attempt_value]
    dsimp only
    rw [Run.perform_bind, p.perform_attempt_value, Journal.askAll_askAll]
    rfl
  rw [central, Run.perform_bind, Run.perform_mapM hentry]
  simp [centralResult, centralPoints, List.mapM_map, List.map_flatMap]

theorem perform_forward (p : Problem α) (x : List α) (j : Journal α) :
    (forward p.oracle.value x).perform j =
      (.ok (forwardResult p x), j.askAll ((forwardPoints x).map .value)) := by
  have habove := Run.perform_mapM (f := fun i => Run.attempt (p.oracle.value (displace x i width)))
    (fun i j => p.perform_attempt_value (displace x i width) j) (List.range x.length)
  rw [forward, Run.perform_bind, p.perform_attempt_value]
  dsimp only
  rw [Run.perform_bind, habove]
  simp [forwardResult, forwardPoints, List.map_eq_flatMap, List.flatMap_assoc]

/-! ### Which gradient is the answer -/

/-- The result if it is admissible as a gradient at `x`. -/
def admissible (x : List α) (result : Except (Fault α) (List α)) : Except (Fault α) (List α) := do
  let g ← result
  checkGradient x.length g
  return g

theorem CentralQuotients.length_eq (h : CentralQuotients p x g) : g.length = x.length := by
  rw [← List.Forall₂.length_eq h, List.length_range]

theorem ForwardQuotients.length_eq (h : ForwardQuotients p x g) : g.length = x.length := by
  obtain ⟨_, _, hquotients⟩ := h
  rw [← hquotients.length_eq, List.length_range]

theorem admissible_centralResult_eq_ok_iff :
    admissible x (centralResult p x) = .ok g ↔
      CentralQuotients p x g ∧ ∀ a ∈ g, Scalar.isFinite a = true := by
  rw [admissible, check_bind_eq_ok_iff, centralResult_eq_ok_iff, checkGradient_eq_ok_iff]
  constructor
  · rintro ⟨hcentral, -, hfinite⟩
    exact ⟨hcentral, hfinite⟩
  · rintro ⟨hcentral, hfinite⟩
    exact ⟨hcentral, hcentral.length_eq, hfinite⟩

theorem perform_gradient_of_central (hcentral : CentralQuotients p x g)
    (hfinite : ∀ a ∈ g, Scalar.isFinite a = true) :
    (gradient p.oracle.value x).perform j =
      (.ok g, j.askAll ((centralPoints x).map .value)) := by
  have hok := admissible_centralResult_eq_ok_iff.mpr ⟨hcentral, hfinite⟩
  rw [admissible] at hok
  rw [gradient, Run.perform_bind, perform_central]
  dsimp only
  rw [hok, Run.perform_pure]

theorem perform_gradient_of_not (hcentral : ¬ CentralSuffice p x) :
    (gradient p.oracle.value x).perform j =
      ((admissible x (forwardResult p x)).mapError .fault,
        j.askAll ((centralPoints x ++ forwardPoints x).map .value)) := by
  rw [gradient, Run.perform_bind, perform_central]
  cases h : admissible x (centralResult p x) with
  | ok g => exact absurd ⟨g, admissible_centralResult_eq_ok_iff.mp h⟩ hcentral
  | error _ =>
    rw [admissible] at h
    dsimp only
    rw [h]
    dsimp only
    rw [Run.perform_bind, perform_forward, Journal.askAll_askAll, ← List.map_append]
    change (Run.ofExcept (admissible x (forwardResult p x))).perform _ = _
    cases admissible x (forwardResult p x) <;> rfl

/-- What forward differences come to: their quotients, or else a fault. The objective may fail at
one of the points, and then the first failure counts; or a quotient is not finite. -/
inductive ForwardDecides (p : Problem α) (x : List α) : Except (Fault α) (List α) → Prop where
  | answered {g : List α} (hforward : ForwardQuotients p x g)
      (hfinite : ∀ a ∈ g, Scalar.isFinite a = true) : ForwardDecides p x (.ok g)
  | failed {fault : Fault α} (hfirst : p.FirstFailure (forwardPoints x) fault) :
      ForwardDecides p x (.error fault)
  | refused {g : List α} {index : Nat} {a : α} (hforward : ForwardQuotients p x g)
      (hfirst : firstNonFinite g = some (index, a)) :
      ForwardDecides p x (.error (.invalidGradient index a "Gradient elements must be finite."))

/-- A gradient by differences: what is answered, and at which points the objective is asked. -/
inductive Differenced (p : Problem α) (x : List α) :
    Except (Fault α) (List α) → List (List α) → Prop where
  | central {g : List α} (hcentral : CentralQuotients p x g)
      (hfinite : ∀ a ∈ g, Scalar.isFinite a = true) : Differenced p x (.ok g) (centralPoints x)
  | fallback {result : Except (Fault α) (List α)} (hcentral : ¬ CentralSuffice p x)
      (hforward : ForwardDecides p x result) :
      Differenced p x result (centralPoints x ++ forwardPoints x)

theorem forwardDecides_admissible (p : Problem α) (x : List α) :
    ForwardDecides p x (admissible x (forwardResult p x)) := by
  cases hforward : forwardResult p x with
  | error fault => exact .failed (firstFailure_of_forwardResult hforward)
  | ok g =>
    have hquotients := forwardResult_eq_ok_iff.mp hforward
    cases hfirst : firstNonFinite g with
    | none =>
      have hok : admissible x (.ok g) = .ok g := by
        simp [admissible, checkGradient, hquotients.length_eq, hfirst, bind, Except.bind, pure,
          Except.pure]
      rw [hok]
      exact .answered hquotients (firstNonFinite_eq_none_iff.mp hfirst)
    | some entry =>
      have herror : admissible x (.ok g) =
          .error (.invalidGradient entry.1 entry.2 "Gradient elements must be finite.") := by
        simp [admissible, checkGradient, hquotients.length_eq, hfirst, bind, Except.bind]
      rw [herror]
      exact .refused hquotients hfirst

theorem exists_differenced (p : Problem α) (x : List α) (j : Journal α) :
    ∃ result points, (gradient p.oracle.value x).perform j =
        (result.mapError .fault, j.askAll (points.map .value)) ∧
      Differenced p x result points := by
  by_cases hcentral : CentralSuffice p x
  · obtain ⟨g, hquotients, hfinite⟩ := hcentral
    exact ⟨.ok g, _, perform_gradient_of_central hquotients hfinite, .central hquotients hfinite⟩
  · exact ⟨_, _, perform_gradient_of_not hcentral,
      .fallback hcentral (forwardDecides_admissible p x)⟩

namespace Differenced

variable {result : Except (Fault α) (List α)} {points : List (List α)}

theorem length_eq_of_centralSuffice (h : Differenced p x result points)
    (hcentral : CentralSuffice p x) : points.length = 2 * x.length := by
  cases h with
  | central _ _ => exact length_centralPoints x
  | fallback hnot _ => exact absurd hcentral hnot

theorem length_eq_of_not (h : Differenced p x result points) (hcentral : ¬ CentralSuffice p x) :
    points.length = 3 * x.length + 1 := by
  cases h with
  | central hquotients hfinite => exact absurd ⟨_, hquotients, hfinite⟩ hcentral
  | fallback _ _ =>
    rw [List.length_append, length_centralPoints, length_forwardPoints]
    omega

theorem shaped (h : Differenced p x (.ok g) points) :
    g.length = x.length ∧ ∀ a ∈ g, Scalar.isFinite a = true := by
  cases h with
  | central hcentral hfinite => exact ⟨hcentral.length_eq, hfinite⟩
  | fallback _ hforward =>
    cases hforward with
    | answered hforward hfinite => exact ⟨hforward.length_eq, hfinite⟩

end Differenced

/-- The gradient by differences at `x` is that of the central differences where they suffice, after
two questions for each coordinate. Otherwise it takes another question for each coordinate and one
at `x`, and what forward differences come to is the answer: another objective for which central
differences do not suffice, and which is the same at the points of the forward ones, gets the same
answer, whatever fails elsewhere. A gradient that is answered is always admissible. -/
theorem gradient_falls_back (p : Problem α) (x : List α) (j : Journal α) :
    ∃ result points,
      (gradient p.oracle.value x).perform j =
        (result.mapError .fault, j.askAll (points.map .value)) ∧
      Differenced p x result points ∧
      (CentralSuffice p x → points.length = 2 * x.length) ∧
      (¬ CentralSuffice p x → points.length = 3 * x.length + 1 ∧
        ∀ q : Problem α, ¬ CentralSuffice q x → (∀ z ∈ forwardPoints x, q.value z = p.value z) →
          (gradient q.oracle.value x).perform j = (gradient p.oracle.value x).perform j) ∧
      (∀ g, result = .ok g → g.length = x.length ∧ ∀ a ∈ g, Scalar.isFinite a = true) := by
  obtain ⟨result, points, hperform, h⟩ := exists_differenced p x j
  refine ⟨result, points, hperform, h, h.length_eq_of_centralSuffice, ?_, ?_⟩
  · intro hcentral
    refine ⟨h.length_eq_of_not hcentral, fun q hq hsame => ?_⟩
    rw [perform_gradient_of_not hq, perform_gradient_of_not hcentral, forwardResult_congr hsame]
  · rintro g rfl
    exact h.shaped

/-- The sum of the coordinates, where none of them is negative. -/
def quadrant : Problem Float where
  value x :=
    if x.all (0.0 ≤ ·) then .ok (x.foldl (· + ·) 0.0) else .error (.evaluationFailed "outside")
  gradient _ := .error .unknown

/-- On the edge of the quadrant the answer is that of forward differences, seven questions in all,
and the failure outside goes unreported. -/
theorem gradient_falls_back_quadrant :
    ¬ CentralSuffice quadrant [0.0, 1.0] ∧
    ∃ (g : List Float) (points : List (List Float)),
      (gradient quadrant.oracle.value [0.0, 1.0]).perform {} =
        (.ok g, Journal.askAll {} (points.map .value)) ∧
      points.length = 7 ∧ g.length = 2 := by
  have hcentral : ¬ CentralSuffice quadrant [0.0, 1.0] := by
    rintro ⟨g, hquotients, -⟩
    rcases hquotients with - | ⟨⟨above, below, -, hbelow, -⟩, -⟩
    have hnone : (quadrant.value (displace [0.0, 1.0] 0 (-width))).isOk = false := by
      decide +kernel
    rw [hbelow] at hnone
    cases hnone
  obtain ⟨result, points, hperform, -, -, hfallback, hok⟩ :=
    gradient_falls_back quadrant [0.0, 1.0] {}
  have hanswered :
      ((gradient quadrant.oracle.value [0.0, 1.0]).perform {}).1.isOk = true := by decide +kernel
  refine ⟨hcentral, ?_⟩
  cases result with
  | error fault =>
    rw [hperform] at hanswered
    cases hanswered
  | ok g => exact ⟨g, points, hperform, (hfallback hcentral).1, (hok g rfl).1⟩

end Differences

end QuasiNewton
