import QuasiNewton.Proofs.Honest
import QuasiNewton.Proofs.Preservation
import QuasiNewton.Proofs.Responder

/-!
# Runs on well-behaved functions

Functions that answer every question at a point of the right length, with a finite value and a
finite gradient of that length, never stop a run. A direction that does not descend, a pair that is
not stored, a search without an accepted step and a spent budget are no faults either. So a run
gets as far as making its outcome (`concludes_of_wellBehaved`), if there is room for its pairs.
There the point is checked, and the check can fail: iterates may overflow although the functions are
finite (`Problem.overflowing`).
-/

namespace QuasiNewton

variable {α : Type} [Scalar α]

/-- At points of length `n` the functions succeed, with admissible answers. -/
structure Responder.WellBehaved (f : Responder α) (n : Nat) : Prop where
  value : ∀ (asked : List (Query α)) {x : List α}, x.length = n →
    ∃ v, f.value asked x = .ok v ∧ Scalar.isFinite v = true
  gradient : ∀ (asked : List (Query α)) {x : List α}, x.length = n →
    ∃ g, f.gradient asked x = .ok g ∧ g.length = n ∧ ∀ a ∈ g, Scalar.isFinite a = true

/-- The outcome if its point is finite, and otherwise the fault of its first coordinate that is
not. -/
def Outcome.report (out : Outcome α) : Except (Stop α) (Outcome α) :=
  match firstNonFinite out.point with
  | some (index, a) =>
    .error (.fault (.invalidPoint index a "Point coordinates must be finite."))
  | none => .ok out

theorem Outcome.create_eq_report {point : List α} {value : α} (hpoint : point ≠ [])
    (hvalue : Scalar.isFinite value = true) (t : Termination) (iterations : Nat)
    (evaluations : List (String × Nat)) (gradNorm : α) :
    (Outcome.create point value t iterations evaluations gradNorm).mapError .fault =
      Outcome.report ⟨point, value, t, iterations, evaluations, gradNorm⟩ := by
  have hcheck : checkPoint point = match firstNonFinite point with
      | some (index, a) => .error (.invalidPoint index a "Point coordinates must be finite.")
      | none => .ok () := by
    cases point with
    | nil => exact absurd rfl hpoint
    | cons a rest => rfl
  rw [create, report, hcheck, checkValue_eq_ok_iff.mpr hvalue]
  cases firstNonFinite point with
  | some p => rfl
  | none => rfl

/-- A run gets as far as its report: it ends with a question for the value at the point reported. -/
def Outcome.Concludes (n : Nat) (result : Except (Stop α) (Outcome α)) (j : Journal α) : Prop :=
  ∃ out : Outcome α, result = out.report ∧ out.point.length = n ∧
    j.queries.getLast? = some (.value out.point)

namespace Responder.WellBehaved

variable {f : Responder α} {n : Nat}

theorem triple_value (hf : f.WellBehaved n) {x : List α} (hx : x.length = n) (j : Journal α) :
    ((f.oracle.checked n).value x).Triple j
      (fun v j' => Scalar.isFinite v = true ∧ j'.queries.getLast? = some (.value x))
      (fun _ _ => False) := by
  obtain ⟨v, hv, hfinite⟩ := hf.value j.queries hx
  have hadmissible := admissibleValue_eq_ok_iff.mpr ⟨hv, hfinite⟩
  refine triple_checked_value ?_ ?_
  · intro w hw
    exact ⟨(admissibleValue_eq_ok_iff.mp hw).2, by simp⟩
  · intro fault hfault
    cases hadmissible.symm.trans hfault

theorem keeps (hf : f.WellBehaved n) :
    (f.oracle.checked n).Keeps n (fun _ => True) (fun _ _ => False) where
  note _ _ := trivial
  value hx _ := (hf.triple_value hx _).mono (fun _ _ _ => trivial) (fun _ _ h => h)
  gradient := by
    intro x j hx _
    obtain ⟨g, hg, hlength, hfinite⟩ := hf.gradient j.queries hx
    have hadmissible := admissibleGradient_eq_ok_iff.mpr ⟨hg, hlength, hfinite⟩
    refine triple_checked_gradient ?_ ?_
    · intro g' hg'
      exact ⟨(admissibleGradient_eq_ok_iff.mp hg').2.1, trivial⟩
    · intro fault hfault
      cases hadmissible.symm.trans hfault
  nonFiniteValue h := h.elim
  invalidGradient h := h.elim

theorem triple_conclude {σ : Type} {m : Method α σ} (hf : f.WellBehaved n) (hn : 0 < n)
    {s : σ} (hs : (m.iterate s).point.length = n) (t : Termination) (j : Journal α) :
    (m.conclude (f.oracle.checked n) t s).Triple j (fun out => Outcome.Concludes n (.ok out))
      (fun stop => Outcome.Concludes n (.error stop)) := by
  have hpoint : (m.iterate s).point ≠ [] := List.length_pos_iff.mp (hs ▸ hn)
  refine Method.triple_conclude ((hf.triple_value hs j).mono (fun _ _ h => h)
    (fun _ _ h => h.elim)) ?_
  rintro value j₁ ⟨hfinite, hlast⟩ tally r
  rw [← Journal.queries_push_noted j₁ r] at hlast
  have hreport := Outcome.create_eq_report hpoint hfinite t (m.iterate s).iteration tally
    (m.gradNorm s)
  constructor
  · intro out hout
    rw [hout] at hreport
    exact ⟨_, hreport, hs, hlast⟩
  · intro fault hfault
    rw [hfault] at hreport
    exact ⟨_, hreport, hs, hlast⟩

theorem concludes {σ : Type} {m : Method α σ} {S : σ → Prop} {x₀ : List α}
    (hf : f.WellBehaved x₀.length) (hx₀ : checkPoint x₀ = .ok ())
    (hm : 0 < x₀.length → m.Keeps x₀.length S) (hroom : ∀ g, m.start x₀ g ≠ none)
    (limits : Stopping α) (j : Journal α) :
    Outcome.Concludes x₀.length ((m.minimize limits f.oracle x₀).perform j).1
      ((m.minimize limits f.oracle x₀).perform j).2 := by
  have hn : 0 < x₀.length := length_pos_of_checkPoint hx₀
  refine (Method.triple_minimize ?_ hm hf.keeps trivial (fun _ _ h => h.elim)
    (fun hnone _ => absurd hnone (hroom _)) ?_ limits).result
  · intro fault hfault
    rw [hx₀] at hfault
    cases hfault
  · intro t s j₁ hs _
    exact hf.triple_conclude hn hs t j₁

end Responder.WellBehaved

/-- On well-behaved functions a run from an admissible point ends with its outcome, if the point
reached is finite, and otherwise with the fault that this point is not; nothing else can go wrong.
For L-BFGS this takes a memory for which there is room. -/
theorem concludes_of_wellBehaved {A : Arithmetic α} (hA : A.Standard) {f : Responder α}
    {x₀ : List α} (hx₀ : checkPoint x₀ = .ok ()) (hf : f.WellBehaved x₀.length) (j : Journal α) :
    (∀ solver : Lbfgs α, solver.options.memory ≤ History.mostPairs →
      Outcome.Concludes x₀.length
        ((solver.minimize A f.oracle x₀).perform j).1
        ((solver.minimize A f.oracle x₀).perform j).2) ∧
    (∀ solver : SteepestDescent α, Outcome.Concludes x₀.length
      ((solver.minimize A f.oracle x₀).perform j).1
      ((solver.minimize A f.oracle x₀).perform j).2) := by
  constructor
  · intro solver hmemory
    exact hf.concludes hx₀ (fun hn => solver.keeps_method hA.lawful hn)
      (fun g => mt Lbfgs.State.create_eq_none_iff.mp (Nat.not_lt.mpr hmemory)) _ j
  · intro solver
    exact hf.concludes hx₀ (fun hn => solver.keeps_method hA.lawful hn) (fun g => nofun) _ j

/-- A constant objective whose gradient is constant, too, and close to the largest double. -/
def Problem.overflowing : Problem Float :=
  .ofFunctions (fun _ => 0.0) (List.map fun _ => -1e308)

theorem Problem.wellBehaved_overflowing (n : Nat) :
    (Responder.ofProblem overflowing).WellBehaved n where
  value _ _ _ := ⟨0.0, rfl, by decide +kernel⟩
  gradient _ x hx := by
    refine ⟨_, rfl, (List.length_map _).trans hx, ?_⟩
    rw [List.forall_mem_map]
    intro _ _
    decide +kernel

/-- From zero the first iteration reaches a point that is finite, and from the largest double it
does not. -/
theorem concludes_of_wellBehaved_overflowing :
    (∃ solver : Lbfgs Float, ∃ result j', solver = ⟨.ofSettings [.budget 1]⟩ ∧
      solver.options.memory ≤ History.mostPairs ∧
      (solver.minimize .laned (Responder.ofProblem .overflowing).oracle [0.0]).perform {} =
        (result, j') ∧
      Outcome.Concludes 1 result j' ∧ result.isOk = true) ∧
    (∃ result j', ((⟨⟨1e-6, 1⟩, .standard⟩ : SteepestDescent Float).minimize .sequential
        (Responder.ofProblem .overflowing).oracle [1.7976931348623157e308]).perform {} =
          (result, j') ∧
      Outcome.Concludes 1 result j' ∧ result.isOk = false) := by
  have hzero : checkPoint [(0.0 : Float)] = .ok () := by decide +kernel
  have hlargest : checkPoint [(1.7976931348623157e308 : Float)] = .ok () := by decide +kernel
  have hf := Problem.wellBehaved_overflowing 1
  have hmemory : (Lbfgs.Options.ofSettings [.budget 1] : Lbfgs.Options Float).memory ≤
      History.mostPairs := by decide
  have hlbfgs := (concludes_of_wellBehaved .laned hzero hf {}).1 ⟨.ofSettings [.budget 1]⟩ hmemory
  have hdescent := (concludes_of_wellBehaved .sequential hlargest hf {}).2 ⟨⟨1e-6, 1⟩, .standard⟩
  constructor
  · exact ⟨_, _, _, rfl, hmemory, (Prod.eta _).symm, hlbfgs, by decide +kernel⟩
  · exact ⟨_, _, (Prod.eta _).symm, hdescent, by decide +kernel⟩

/-- Starting at the largest double, both solvers leave the finite range although the functions are
well-behaved there and everywhere else. The outcome is refused. -/
theorem overflowing_refused :
    (Lbfgs.Options.ofSettings [.budget 1] : Lbfgs.Options Float).check = .ok () ∧
    (⟨1e-6, 1⟩ : Stopping Float).check = .ok () ∧
    checkPoint [(1.7976931348623157e308 : Float)] = .ok () ∧
    (Responder.ofProblem .overflowing).WellBehaved 1 ∧
    (((⟨.ofSettings [.budget 1]⟩ : Lbfgs Float).minimize .laned
      (Responder.ofProblem .overflowing).oracle [1.7976931348623157e308]).perform {}).1 =
        .error (.fault (.invalidPoint 0 (1.0 / 0.0) "Point coordinates must be finite.")) ∧
    (((⟨⟨1e-6, 1⟩, .standard⟩ : SteepestDescent Float).minimize .sequential
      (Responder.ofProblem .overflowing).oracle [1.7976931348623157e308]).perform {}).1 =
        .error (.fault (.invalidPoint 0 (1.0 / 0.0) "Point coordinates must be finite.")) :=
  ⟨by decide +kernel, by decide +kernel, by decide +kernel, Problem.wellBehaved_overflowing 1,
    by decide +kernel, by decide +kernel⟩

end QuasiNewton
