import QuasiNewton.Proofs.Lbfgs.Agreement
import QuasiNewton.Proofs.Preservation
import QuasiNewton.Proofs.Responder

/-!
# All vectors fit

The two arithmetics differ on operands whose lengths differ: they stop the run, spread a single
coordinate, or cut a factor short. A solver never gets there. Its runs are those of the strict
arithmetic, which refuses all such operands, and no operand is refused in them
(`vectors_fit`). The only thing that comes of a gradient of a wrong length is the fault that says so.
-/

namespace QuasiNewton

variable {α : Type}

/-! ### The strict arithmetic -/

/-- The arithmetic on operands of one length, which for sums and differences is not zero. -/
def Arithmetic.strict (A : Arithmetic α) : Arithmetic α where
  add x y := if 0 < x.length ∧ x.length = y.length then A.add x y else none
  sub x y := if 0 < x.length ∧ x.length = y.length then A.sub x y else none
  inner x y := if x.length = y.length then A.inner x y else none

theorem Arithmetic.strict_within (A : Arithmetic α) : A.strict.Within A where
  add h := (Option.ite_none_right_eq_some.mp h).2
  sub h := (Option.ite_none_right_eq_some.mp h).2
  inner h := (Option.ite_none_right_eq_some.mp h).2

theorem Arithmetic.Lawful.strict [Scalar α] {A : Arithmetic α} (hA : A.Lawful) : A.strict.Lawful where
  add_eq hx h := (if_pos ⟨hx, h⟩).trans (hA.add_eq hx h)
  sub_eq hx h := (if_pos ⟨hx, h⟩).trans (hA.sub_eq hx h)
  exists_inner h := by
    obtain ⟨c, hc⟩ := hA.exists_inner h
    exact ⟨c, (if_pos h).trans hc⟩

/-! ### Gradients of a wrong length -/

namespace Responder

/-- All gradients that were given in answer to questions after `asked` have length `n`. -/
structure Fits (f : Responder α) (n : Nat) (asked : List (Query α)) (j : Journal α) : Prop where
  started : asked <+: j.queries
  length_eq : ∀ {before : List (Query α)} {x g : List α}, asked <+: before →
    before ++ [.gradient x] <+: j.queries → f.gradient before x = .ok g → g.length = n

/-- Why a run stops: at a fault or for want of room while all gradients fit, or since the last one
does not. -/
inductive Stopped (f : Responder α) (n : Nat) (asked : List (Query α)) :
    Stop α → Journal α → Prop where
  | fault {fault : Fault α} {j : Journal α} (hj : f.Fits n asked j) :
      Stopped f n asked (.fault fault) j
  | noRoom {j : Journal α} (hj : f.Fits n asked j) : Stopped f n asked .noRoom j
  | mismatch {x g : List α} {j j' : Journal α} (hj : f.Fits n asked j)
      (hqueries : j'.queries = j.queries ++ [.gradient x])
      (hg : f.gradient j.queries x = .ok g) (hlength : g.length ≠ n) :
      Stopped f n asked (.fault (.gradientLength n g.length)) j'

variable {f : Responder α} {n : Nat} {asked : List (Query α)} {j j' : Journal α}

theorem Fits.init (f : Responder α) (n : Nat) (hq : j.queries = asked) :
    f.Fits n asked j where
  started := hq ▸ List.prefix_rfl
  length_eq := by
    intro before x g hbefore hinitial _
    have hle := hinitial.length_le
    have hle' := hbefore.length_le
    rw [List.length_append, List.length_singleton, hq] at hle
    omega

theorem Fits.congr (hj : f.Fits n asked j) (hq : j'.queries = j.queries) :
    f.Fits n asked j' where
  started := hq ▸ hj.started
  length_eq hbefore hinitial := hj.length_eq hbefore (hq ▸ hinitial)

theorem Fits.ask {q : Query α} (hj : f.Fits n asked j) (hq : j'.queries = j.queries ++ [q])
    (h : ∀ x g, q = .gradient x → f.gradient j.queries x = .ok g → g.length = n) :
    f.Fits n asked j' where
  started := hq ▸ hj.started.trans (List.prefix_append _ _)
  length_eq := by
    intro before x g hbefore hinitial hg
    rw [hq, List.prefix_concat_iff] at hinitial
    rcases hinitial with heq | hinitial
    · obtain ⟨rfl, hlast⟩ := List.append_inj' heq rfl
      exact h x g (List.singleton_inj.mp hlast).symm hg
    · exact hj.length_eq hbefore hinitial hg

/-- A run in which all vectors fit together, although the gradients may not. -/
structure FitsThroughout {β : Type} (f : Responder α) (n : Nat) (A : Arithmetic α)
    (run : Arithmetic α → Run α β) (j : Journal α) : Prop where
  /-- No operands are met that the strict arithmetic refuses. -/
  strict : (run A).perform j = (run A.strict).perform j
  noMisfit : ((run A.strict).perform j).1 ≠ .error .misfit
  /-- A gradient of another length ends the run, with the fault that names both lengths. -/
  mismatch : ∀ {before : List (Query α)} {x g : List α}, j.queries <+: before →
    before ++ [.gradient x] <+: ((run A).perform j).2.queries →
    f.gradient before x = .ok g → g.length ≠ n →
    ((run A).perform j).1 = .error (.fault (.gradientLength n g.length)) ∧
      ((run A).perform j).2.queries = before ++ [.gradient x]

theorem Stopped.ne_misfit {stop : Stop α} (h : f.Stopped n asked stop j) : stop ≠ .misfit := by
  rintro rfl
  cases h

/-- A gradient of another length was the last answer. -/
theorem Stopped.of_length_ne {stop : Stop α} (h : f.Stopped n asked stop j)
    {before : List (Query α)} {x g : List α} (hbefore : asked <+: before)
    (hinitial : before ++ [.gradient x] <+: j.queries) (hg : f.gradient before x = .ok g)
    (hlength : g.length ≠ n) :
    stop = .fault (.gradientLength n g.length) ∧ j.queries = before ++ [.gradient x] := by
  cases h with
  | fault hj => exact absurd (hj.length_eq hbefore hinitial hg) hlength
  | noRoom hj => exact absurd (hj.length_eq hbefore hinitial hg) hlength
  | mismatch hj hqueries hg' _ =>
    rw [hqueries, List.prefix_concat_iff] at hinitial
    rcases hinitial with heq | hinitial
    · obtain ⟨rfl, hlast⟩ := List.append_inj' heq rfl
      cases hlast
      cases hg.symm.trans hg'
      exact ⟨rfl, hqueries⟩
    · exact absurd (hj.length_eq hbefore hinitial hg) hlength

theorem fitsThroughout {β : Type} {A : Arithmetic α} {run : Arithmetic α → Run α β}
    (hagrees : (run A.strict).Agrees Eq (run A))
    (hrun : (run A.strict).Triple j (fun _ => f.Fits n j.queries) (f.Stopped n j.queries)) :
    f.FitsThroughout n A run j := by
  have hno : ((run A.strict).perform j).1 ≠ .error .misfit := fun hmisfit =>
    (hrun.of_error (Prod.ext hmisfit rfl)).ne_misfit rfl
  have hstrict := (hagrees.perform_eq hno).symm
  refine ⟨hstrict, hno, ?_⟩
  intro before x g hbefore hinitial hg hlength
  rw [hstrict] at hinitial ⊢
  rcases h : (run A.strict).perform j with ⟨stop | b, j'⟩
  · rw [h] at hinitial
    obtain ⟨rfl, hqueries⟩ := (hrun.of_error h).of_length_ne hbefore hinitial hg hlength
    exact ⟨rfl, hqueries⟩
  · rw [h] at hinitial
    exact absurd ((hrun.of_ok h).length_eq hbefore hinitial hg) hlength

variable [Scalar α]

theorem keeps_fits (f : Responder α) (n : Nat) (asked : List (Query α)) :
    (f.oracle.checked n).Keeps n (f.Fits n asked) (f.Stopped n asked) where
  note r hj := hj.congr (Journal.queries_push_noted _ r)
  value := by
    intro x j _ hj
    have hj' : f.Fits n asked (j.countValue.push (.asked (.value x))) :=
      hj.ask (Journal.queries_push_asked _ _) nofun
    exact triple_checked_value (fun _ _ => hj') (fun _ _ => .fault hj')
  gradient := by
    intro x j _ hj
    have hqueries := j.countGradient.queries_push_asked (.gradient x)
    have hfits (h : ∀ g, f.gradient j.queries x = .ok g → g.length = n) :
        f.Fits n asked (j.countGradient.push (.asked (.gradient x))) := by
      refine hj.ask hqueries ?_
      rintro _ g ⟨⟩ hg
      exact h g hg
    refine triple_checked_gradient ?_ ?_
    · intro g hg
      obtain ⟨hg, hlength, -⟩ := admissibleGradient_eq_ok_iff.mp hg
      refine ⟨hlength, hfits ?_⟩
      intro g' hg'
      cases hg.symm.trans hg'
      exact hlength
    · intro fault hfault
      by_cases h : ∀ g, f.gradient j.queries x = .ok g → g.length = n
      · exact .fault (hfits h)
      · push Not at h
        obtain ⟨g, hg, hlength⟩ := h
        cases (admissibleGradient_of_length_ne hg hlength).symm.trans hfault
        exact .mismatch hj hqueries hg hlength
  nonFiniteValue := by
    rintro v j ⟨⟩
    assumption
  invalidGradient := by
    rintro index a reason j ⟨⟩
    assumption

end Responder

/-! ### Whole runs -/

variable [Scalar α]

theorem Method.triple_minimize_fits {σ : Type} {m : Method α σ} {S : σ → Prop}
    (f : Responder α) {x₀ : List α} (hm : 0 < x₀.length → m.Keeps x₀.length S)
    (limits : Stopping α) (j : Journal α) :
    (m.minimize limits f.oracle x₀).Triple j (fun _ => f.Fits x₀.length j.queries)
      (f.Stopped x₀.length j.queries) := by
  have ho := f.keeps_fits x₀.length j.queries
  refine triple_minimize (fun _ _ => .fault (.init f _ rfl)) hm ho (.init f _ rfl)
    (fun _ _ h => h) (fun _ hj' => .noRoom hj') ?_ limits
  intro t s j₁ hs hj₁
  apply (ho.value hs hj₁).bind
  intro value j₂ hj₂
  apply (Run.triple_note (ho.note _ hj₂) (Q := fun _ => f.Fits x₀.length j.queries)).bind
  intro _ j₃ hj₃
  apply (Run.triple_tally hj₃ (Q := fun _ => f.Fits x₀.length j.queries)).bind
  intro tally j₄ hj₄
  exact Run.triple_ofExcept (fun _ _ => hj₄) (fun _ _ => .fault hj₄)

theorem Method.minimize_ne_misfit {σ : Type} {m : Method α σ} {S : σ → Prop} (f : Responder α)
    {x₀ : List α} (hm : 0 < x₀.length → m.Keeps x₀.length S) (limits : Stopping α)
    (j : Journal α) : ((m.minimize limits f.oracle x₀).perform j).1 ≠ .error .misfit :=
  fun hmisfit => ((triple_minimize_fits f hm limits j).of_error (Prod.ext hmisfit rfl)).ne_misfit rfl

/-- Whatever the functions answer, no solver meets two vectors that do not fit together. A gradient
of a wrong length ends the run with the fault that says so. -/
theorem vectors_fit {A : Arithmetic α} (hA : A.Standard) (f : Responder α) (x₀ : List α)
    (j : Journal α) :
    (∀ solver : Lbfgs α,
      f.FitsThroughout x₀.length A (fun B => solver.minimize B f.oracle x₀) j) ∧
    (∀ solver : SteepestDescent α,
      f.FitsThroughout x₀.length A (fun B => solver.minimize B f.oracle x₀) j) := by
  have hstrict := hA.lawful.strict
  constructor
  · intro solver
    refine Responder.fitsThroughout (solver.agrees_minimize A.strict_within f.oracle x₀) ?_
    exact Method.triple_minimize_fits f (fun hn => solver.keeps_method hstrict hn) _ j
  · intro solver
    refine Responder.fitsThroughout (solver.agrees_minimize A.strict_within f.oracle x₀) ?_
    exact Method.triple_minimize_fits f (fun hn => solver.keeps_method hstrict hn) _ j

/-- The valley, whose gradient has a single entry once two questions were asked. -/
def Responder.narrowing : Responder Float where
  value _ := Problem.valley.value
  gradient asked x := if asked.length < 2 then Problem.valley.gradient x else .ok [1.0]

/-- In both runs the first trial that passes gets the gradient that is too short. -/
theorem vectors_fit_narrowing :
    (((⟨.ofSettings [.budget 2]⟩ : Lbfgs Float).minimize .laned Responder.narrowing.oracle
      [3.0, -2.0]).perform {}).1 = .error (.fault (.gradientLength 2 1)) ∧
    (((⟨⟨1e-6, 2⟩, .standard⟩ : SteepestDescent Float).minimize .sequential
      Responder.narrowing.oracle [3.0, -2.0]).perform {}).1 =
        .error (.fault (.gradientLength 2 1)) := by
  -- the last question of a run was one for the gradient, and at least two others came before it
  have narrow {A : Arithmetic Float} {run : Arithmetic Float → Run Float (Outcome Float)}
      (h : Responder.narrowing.FitsThroughout 2 A run {})
      (hlast : ((run A).perform {}).2.queries.getLast?.map Query.isGradient = some true ∧
        3 ≤ ((run A).perform {}).2.queries.length) :
      ((run A).perform {}).1 = .error (.fault (.gradientLength 2 1)) := by
    obtain ⟨hgradient, hthree⟩ := hlast
    obtain ⟨_ | x, hquery, ⟨⟩⟩ := Option.map_eq_some_iff.mp hgradient
    have hqueries := List.dropLast_append_getLast? _ hquery
    have hanswer : Responder.narrowing.gradient
        ((run A).perform {}).2.queries.dropLast x = .ok [1.0] := by
      refine if_neg ?_
      rw [List.length_dropLast]
      omega
    exact (h.mismatch List.nil_prefix ⟨[], (List.append_nil _).trans hqueries⟩ hanswer
      (by decide)).1
  have hlbfgs := (vectors_fit .laned Responder.narrowing [3.0, -2.0] {}).1
    ⟨.ofSettings [.budget 2]⟩
  have hdescent := (vectors_fit .sequential Responder.narrowing [3.0, -2.0] {}).2
    ⟨⟨1e-6, 2⟩, .standard⟩
  have hlbfgs' := narrow hlbfgs (by decide +kernel)
  have hdescent' := narrow hdescent (by decide +kernel)
  exact ⟨hlbfgs', hdescent'⟩

end QuasiNewton
