import Mathlib.Data.Real.Basic
import Mathlib.LinearAlgebra.Matrix.Notation
import QuasiNewton.Proofs.Exact.Motion
import QuasiNewton.Proofs.LineSearch.Transport
import QuasiNewton.Proofs.Preservation

/-!
# Moved problems

A solver does not look at coordinates: the numbers that steer it are values of the objective, inner
products and norms, and what it asks next is made of points and of differences of points. So with a
moved problem it does at the moved points what it does with the problem itself
(`runs_equivariant`). A motion acts on whatever a solver handles, and each operation of a solver
commutes with it.
-/

namespace QuasiNewton

namespace Motion

variable {K : Type} [Field K] {n : Nat} (T : Motion K n)

/-! ### What is moved -/

/-- The problem whose value at a moved point is the value at the point, and whose gradient is the
turned gradient. -/
def problem (p : Problem K) : Problem K where
  value z := p.value (T.back z)
  gradient z := (p.gradient (T.back z)).map T.vector

def query : Query K → Query K
  | .value x => .value (T.point x)
  | .gradient x => .gradient (T.point x)

/-- A record shows nothing of a point. -/
def entry : Entry K → Entry K
  | .asked q => .asked (T.query q)
  | .noted r => .noted r

def journal (j : Journal K) : Journal K :=
  { j with entries := j.entries.map T.entry }

def line (l : LineSearch.Line K) : LineSearch.Line K :=
  { l with origin := T.point l.origin, direction := T.vector l.direction }

def pair (p : Pair K) : Pair K :=
  { p with s := T.vector p.s, y := T.vector p.y }

def history (h : History K) : History K :=
  { h with pairs := h.pairs.map T.pair }

def iterate (i : Iterate K) : Iterate K :=
  { i with point := T.point i.point, gradient := T.vector i.gradient }

def state (s : Lbfgs.State K) : Lbfgs.State K where
  toIterate := T.iterate s.toIterate
  history := T.history s.history

def outcome (out : Outcome K) : Outcome K :=
  { out with point := T.point out.point }

@[simp] theorem journal_push_asked (j : Journal K) (q : Query K) :
    T.journal (j.push (.asked q)) = (T.journal j).push (.asked (T.query q)) := by
  simp [journal, Journal.push, entry]

@[simp] theorem journal_push_noted (j : Journal K) (r : Record K) :
    T.journal (j.push (.noted r)) = (T.journal j).push (.noted r) := by
  simp [journal, Journal.push, entry]

@[simp] theorem newest?_history (h : History K) :
    (T.history h).newest? = h.newest?.map T.pair := by
  simp [history, History.newest?]

theorem store_history (h : History K) (p : Pair K) :
    (T.history h).store (T.pair p) = T.history (h.store p) := by
  simp [history, History.store]

/-- There is room for the moved state where there is for the state. -/
theorem create_state (memory : Nat) (x g : List K) :
    Lbfgs.State.create memory (T.point x) (T.vector g) =
      (Lbfgs.State.create memory x g).map T.state := by
  rw [Lbfgs.State.create, Lbfgs.State.create, History.create]
  split <;> rfl

/-! ### Questions -/

/-- To moved questions the second oracle gives the moved answers. -/
structure Carries (T : Motion K n) (o o' : Oracle K) : Prop where
  value : ∀ {x : List K} (j : Journal K), x.length = n →
    (o'.value (T.point x)).perform (T.journal j) =
      Run.transport T.journal id ((o.value x).perform j)
  gradient : ∀ {x : List K} (j : Journal K), x.length = n →
    (o'.gradient (T.point x)).perform (T.journal j) =
      Run.transport T.journal T.vector ((o.gradient x).perform j)

theorem problem_value (p : Problem K) {x : List K} (hx : x.length = n) :
    (T.problem p).value (T.point x) = p.value x :=
  congrArg p.value (T.back_point hx)

theorem problem_gradient (p : Problem K) {x : List K} (hx : x.length = n) :
    (T.problem p).gradient (T.point x) = (p.gradient x).map T.vector :=
  congrArg (fun x => (p.gradient x).map T.vector) (T.back_point hx)

theorem carries_problem (p : Problem K) : T.Carries p.oracle (T.problem p).oracle where
  value {x} j hx := by
    rw [Problem.perform_value, Problem.perform_value, T.problem_value p hx]
    cases p.value x <;> simp [Except.mapError, query]
  gradient {x} j hx := by
    rw [Problem.perform_gradient, Problem.perform_gradient, T.problem_gradient p hx]
    cases p.gradient x <;> simp [Except.mapError, Except.map, query]

variable [LinearOrder K]

theorem checkGradient_vector (g : List K) : checkGradient n (T.vector g) = checkGradient n g := by
  simp [checkGradient, firstNonFinite_exact]

theorem checkPoint_point {x : List K} (hx : x.length = n) :
    checkPoint (T.point x) = checkPoint x := by
  have hempty : (T.point x).isEmpty = x.isEmpty := by
    rw [Bool.eq_iff_iff, List.isEmpty_iff_length_eq_zero, List.isEmpty_iff_length_eq_zero,
      T.length_point, hx]
  simp [checkPoint, firstNonFinite_exact, hempty]

theorem Carries.checked {o o' : Oracle K} (ho : T.Carries o o') :
    T.Carries (o.checked n) (o'.checked n) where
  value {x} j hx := by
    refine Run.transport_bind (F := id) rfl fun _ j₁ _ => ?_
    refine Run.transport_bind (ho.value j₁ hx) fun v j₂ _ => ?_
    exact Run.transport_ofExcept_congr_bind rfl fun _ _ => rfl
  gradient {x} j hx := by
    refine Run.transport_bind (F := id) rfl fun _ j₁ _ => ?_
    refine Run.transport_bind (ho.gradient j₁ hx) fun g j₂ _ => ?_
    exact Run.transport_ofExcept_congr_bind (T.checkGradient_vector g) fun _ _ => rfl

/-! ### Histories -/

section

variable {A : Arithmetic K} (hA : A.Exact)
include hA

theorem scaling_history {h : History K} (hps : ∀ p ∈ h.pairs, p.Accepted A n) :
    (T.history h).scaling A = h.scaling A := by
  rw [History.scaling, History.scaling, T.newest?_history]
  cases hp : h.newest? with
  | none => rfl
  | some p =>
    have hacc := hps p (History.mem_pairs_of_newest? hp)
    simp [pair, T.inner_vector hA, hacc.length_s, hacc.length_y]

theorem offer_history (h : History K) {s y : List K} (hs : s.length = n) (hy : y.length = n) :
    (T.history h).offer A (T.vector s) (T.vector y) =
      (h.offer A s y).map (Prod.map id T.history) := by
  rw [History.offer, History.offer, T.inner_vector hA hs hy]
  cases A.inner s y with
  | none => rfl
  | some c =>
    by_cases hlt : History.leastCurvature < c
    · simp [hlt, ← store_history, pair]
    · simp [hlt]

variable (hn : 0 < n)
include hn

theorem sweep_pairs (γ : K) {ps : List (Pair K)} (hps : ∀ p ∈ ps, p.Accepted A n) {q : List K}
    (hq : q.length = n) :
    History.sweep A γ (ps.map T.pair) (T.vector q) = (History.sweep A γ ps q).map T.vector := by
  induction ps generalizing q with
  | nil => simp [History.sweep]
  | cons p older ih =>
    have hp := hps p List.mem_cons_self
    have holder : ∀ p ∈ older, p.Accepted A n := fun p hp => hps p (List.mem_cons_of_mem _ hp)
    have hs := hp.length_s
    have hy := hp.length_y
    obtain ⟨c, hc⟩ := hA.exists_inner (hs.trans hq.symm)
    obtain ⟨q', hq', hlen'⟩ := hA.exists_sub hn hq ((length_scale p.y (p.rho * c)).trans hy)
    obtain ⟨r, hr, hlenr⟩ := History.exists_sweep hA.toLawful hn γ holder hlen'
    obtain ⟨d, hd⟩ := hA.exists_inner (hy.trans hlenr.symm)
    have hup : (scale p.s (p.rho * c - p.rho * d)).length = n := (length_scale _ _).trans hs
    have hsub := T.sub_vector hA hn hq ((length_scale p.y (p.rho * c)).trans hy)
    simp [History.sweep, pair, T.inner_vector hA hs hq, hc, hsub, hq', ih holder hlen', hr,
      T.inner_vector hA hy hlenr, hd, T.add_vector hA hn hlenr hup]

theorem twoLoop_history {h : History K} (hb : h.Built A n) {g : List K} (hg : g.length = n) :
    (T.history h).twoLoop A (T.vector g) = (h.twoLoop A g).map T.vector := by
  rw [History.twoLoop, History.twoLoop, T.scaling_history hA hb.accepted]
  cases h.scaling A with
  | none => rfl
  | some γ =>
    have hps : ∀ p ∈ h.pairs.reverse, p.Accepted A n := fun p hp =>
      hb.accepted p (List.mem_reverse.mp hp)
    simpa [history, List.map_reverse] using T.sweep_pairs hA hn γ hps hg

/-- A moved state has the turned direction. -/
theorem direction_state {s : Lbfgs.State K} (hs : s.Shaped A n) :
    (T.state s).direction A = (s.direction A).map T.vector := by
  have htwoLoop := T.twoLoop_history hA hn hs.built hs.length_gradient
  rw [Lbfgs.State.direction, Lbfgs.State.direction]
  change (do return scale (← (T.history s.history).twoLoop A (T.vector s.gradient)) (-1.0)) = _
  rw [htwoLoop]
  cases s.history.twoLoop A s.gradient <;> simp

end

/-! ### The line search -/

section

variable {A : Arithmetic K} (hA : A.Exact) {o o' : Oracle K} (ho : T.Carries o o')
include ho

theorem trialValue_point {trial : List K} (htrial : trial.length = n) (j : Journal K) :
    (LineSearch.trialValue o' (T.point trial)).perform (T.journal j) =
      Run.transport T.journal id ((LineSearch.trialValue o trial).perform j) := by
  refine Run.transport_bind (Run.transport_attempt (ho.value j htrial)) ?_
  rintro (f | value) j₁ -
  · cases f <;> rfl
  · rfl

variable (hshaped : o.ShapedAt n)
include hA hshaped

theorem trialSlope_point {trial d : List K} (htrial : trial.length = n) (hd : d.length = n)
    (j : Journal K) :
    (LineSearch.trialSlope A o' (T.point trial) (T.vector d)).perform (T.journal j) =
      Run.transport T.journal id ((LineSearch.trialSlope A o trial d).perform j) := by
  refine Run.transport_bind (Run.transport_attempt (ho.gradient j htrial)) ?_
  rintro (f | gradient) j₁ hgradient
  · cases f <;> rfl
  · have hlength := hshaped htrial (Run.perform_attempt_eq_ok_ok_iff.mp hgradient)
    exact Run.transport_ofOption_congr_bind (T.inner_vector hA hlength hd) fun _ _ => rfl

variable (hn : 0 < n)
include hn

section

variable {l : LineSearch.Line K} (horigin : l.origin.length = n)
  (hdirection : l.direction.length = n)
include horigin hdirection

theorem judge_line (opts : LineSearch.Options K) (step : K) (j : Journal K) :
    ((T.line l).judge A opts o' step).perform (T.journal j) =
      Run.transport T.journal id ((l.judge A opts o step).perform j) := by
  have hpoint := T.addScaled_point hA hn horigin hdirection step
  have hlength {trial : List K} (htrial : A.addScaled l.origin l.direction step = some trial) :
      trial.length = n := hA.length_of_addScaled_eq_some hn horigin hdirection htrial
  exact LineSearch.transport_judge hpoint (fun _ => Iff.rfl) (fun _ => rfl)
    (fun _ htrial => T.trialValue_point ho (hlength htrial) j)
    (fun _ j₁ htrial => T.trialSlope_point hA ho hshaped (hlength htrial) hdirection j₁)

theorem seek_line (opts : LineSearch.Options K) (left : Nat) (b : LineSearch.Bracket K)
    (j : Journal K) :
    ((T.line l).seek A opts o' left b).perform (T.journal j) =
      Run.transport T.journal id ((l.seek A opts o left b).perform j) :=
  LineSearch.transport_seek (T.judge_line hA ho hshaped hn horigin hdirection opts) left b j

end

theorem search_point (opts : LineSearch.Options K) {x d g : List K} (hx : x.length = n)
    (hd : d.length = n) (hg : g.length = n) (j : Journal K) :
    (LineSearch.search A opts o' (T.point x) (T.vector d) (T.vector g)).perform (T.journal j) =
      Run.transport T.journal id ((LineSearch.search A opts o x d g).perform j) := by
  refine Run.transport_ofOption_congr_bind (T.inner_vector hA hg hd) fun slope _ => ?_
  dsimp only
  split
  · rfl
  · refine Run.transport_bind (ho.value j hx) fun value j₁ _ => ?_
    exact T.seek_line hA ho hshaped hn (l := ⟨x, d, value, slope⟩) hx hd opts _ _ j₁

/-! ### Iterations -/

theorem advance_state (opts : LineSearch.Options K) {s : Lbfgs.State K} (hs : s.Shaped A n)
    (j : Journal K) :
    ((T.state s).advance A opts o').perform (T.journal j) =
      Run.transport T.journal (Prod.map T.state id) ((s.advance A opts o).perform j) := by
  have hx := hs.length_point
  have hg := hs.length_gradient
  refine Run.transport_ofOption_bind (T.direction_state hA hn hs) fun d hd => ?_
  have hdlen := hs.length_direction hA.toLawful hn hd
  refine Run.transport_ofOption_congr_bind (T.inner_vector hA hg hdlen) fun slope _ => ?_
  refine Run.transport_ite_note T.journal_push_noted _ fun j => ?_
  refine Run.transport_bind (T.search_point hA ho hshaped hn opts hx hdlen hg j) fun step j₁ _ => ?_
  refine Run.transport_ofOption_bind (T.addScaled_point hA hn hx hdlen step) fun point hpoint => ?_
  have hplen := hA.length_of_addScaled_eq_some hn hx hdlen hpoint
  refine Run.transport_bind (ho.gradient j₁ hplen) fun gradient j₂ hgradient => ?_
  have hglen := hshaped hplen hgradient
  refine Run.transport_ofOption_bind (T.sub_point hA hn hplen hx) fun move hmove => ?_
  have hmlen := hA.length_of_sub_eq_some hn hplen hx hmove
  refine Run.transport_ofOption_bind (T.sub_vector hA hn hglen hg) fun change hchange => ?_
  have hclen := hA.length_of_sub_eq_some hn hglen hg hchange
  refine Run.transport_ofOption_congr_bind (T.inner_vector hA hmlen hclen) fun curvature _ => ?_
  refine Run.transport_ofOption_bind (T.offer_history hA s.history hmlen hclen) ?_
  rintro ⟨stored, history⟩ -
  exact Run.transport_ite_note T.journal_push_noted _ fun _ => rfl

theorem advance_iterate (opts : LineSearch.Options K) {i : Iterate K} (hi : i.Shaped n)
    (j : Journal K) :
    (SteepestDescent.advance A opts o' (T.iterate i)).perform (T.journal j) =
      Run.transport T.journal (Prod.map T.iterate id)
        ((SteepestDescent.advance A opts o i).perform j) := by
  have hx := hi.length_point
  have hg := hi.length_gradient
  have hdlen : (scale i.gradient (-1.0)).length = n := (length_scale _ _).trans hg
  have hsearch := T.search_point hA ho hshaped hn opts hx hdlen hg j
  rw [← T.scale_vector] at hsearch
  refine Run.transport_bind hsearch fun step j₁ _ => ?_
  have hpoint := T.addScaled_point hA hn hx hdlen step
  rw [← T.scale_vector] at hpoint
  refine Run.transport_ofOption_bind hpoint fun point hpoint => ?_
  have hplen := hA.length_of_addScaled_eq_some hn hx hdlen hpoint
  exact Run.transport_bind (ho.gradient j₁ hplen) fun _ _ _ => rfl

end

/-! ### Whole runs -/

variable {A : Arithmetic K}

theorem opening_point (p : Problem K) {x₀ : List K} (hx₀ : x₀.length = n) (j : Journal K) :
    ((T.problem p).oracle.opening (T.point x₀)).perform (T.journal j) =
      Run.transport T.journal T.vector ((p.oracle.opening x₀).perform j) := by
  refine Run.transport_ofExcept_congr_bind (T.checkPoint_point hx₀) fun _ _ => ?_
  refine Run.transport_bind (F := id) rfl fun _ j₁ _ => ?_
  rw [T.length_point, hx₀]
  exact (T.carries_problem p).checked.gradient j₁ hx₀

theorem create_point {x : List K} (hx : x.length = n) (value : K) (t : Termination)
    (iterations : Nat) (evaluations : List (String × Nat)) (gradNorm : K) :
    Outcome.create (T.point x) value t iterations evaluations gradNorm =
      (Outcome.create x value t iterations evaluations gradNorm).map T.outcome := by
  rw [Outcome.create, Outcome.create, T.checkPoint_point hx]
  cases checkPoint x with
  | error f => rfl
  | ok _ =>
    cases checkValue value with
    | error f => rfl
    | ok _ => rfl

section

variable {σ : Type} {m : Method K σ} {F : σ → σ} (himage : m.Image m F)
  (hiterate : ∀ s, m.iterate (F s) = T.iterate (m.iterate s))
include himage hiterate

theorem conclude_moved {o o' : Oracle K} (ho : T.Carries o o') (t : Termination) {s : σ}
    (hs : (m.iterate s).point.length = n) (j : Journal K) :
    (m.conclude o' t (F s)).perform (T.journal j) =
      Run.transport T.journal T.outcome ((m.conclude o t s).perform j) := by
  rw [Method.conclude, Method.conclude, hiterate, himage.gradNorm_eq]
  refine Run.transport_bind (ho.value j hs) fun value j₁ _ => ?_
  refine Run.transport_bind (Run.transport_note T.journal_push_noted _ j₁) fun _ j₂ _ => ?_
  refine Run.transport_bind (F := id) rfl fun tally j₃ _ => ?_
  exact Run.transport_ofExcept (T.create_point hs _ _ _ _ _) j₃

/-- If the iterations of a method have their images at moved points, its runs have. -/
theorem minimize_moved {S : σ → Prop} (hkeeps : 0 < n → m.Keeps n S)
    (hstart : ∀ x g, m.start (T.point x) (T.vector g) = (m.start x g).map F)
    (hadvance : ∀ {o o' : Oracle K}, T.Carries o o' → o.ShapedAt n → 0 < n →
      ∀ {s : σ} (j : Journal K), S s → (m.advance o' (F s)).perform (T.journal j) =
        Run.transport T.journal (Prod.map F id) ((m.advance o s).perform j))
    (p : Problem K) {x₀ : List K} (hx₀ : x₀.length = n) (limits : Stopping K) (j : Journal K) :
    (m.minimize limits (T.problem p).oracle (T.point x₀)).perform (T.journal j) =
      Run.transport T.journal T.outcome ((m.minimize limits p.oracle x₀).perform j) := by
  subst hx₀
  have ho := (T.carries_problem p).checked
  have hvisits := Method.forall_itinerary hkeeps
    ((Responder.ofProblem p).keeps_asked x₀.length []) (j := j) List.nil_prefix limits
  refine Method.transport_minimize himage T.journal_push_noted
    (Method.transport_opening (T.opening_point p rfl j) (hstart x₀)) ?_ ?_
  · intro v hv _
    obtain ⟨hn, hs, -⟩ := hvisits v (List.mem_of_mem_take hv)
    rw [T.length_point]
    exact hadvance ho (p.shapedAt_checked _) hn v.2 hs
  · intro t s j₁ hloop
    obtain ⟨hn, hs, -⟩ := hvisits (s, j₁) (List.mem_of_getLast? (Method.getLast?_itinerary hloop))
    rw [T.length_point]
    exact T.conclude_moved himage hiterate ho t ((hkeeps hn).length_point hs) j₁

end

end Motion

/-- Runs of both solvers go along with every motion of the space. With the moved problem, from the
moved start point, a solver asks the questions at the moved points, in the same order, and makes the
same records. It ends with the outcome at the moved point or stops at the same fault. -/
theorem runs_equivariant {K : Type} [Field K] [LinearOrder K] [IsStrictOrderedRing K]
    {A : Arithmetic K} (hA : A.Standard) {n : Nat} (T : Motion K n) (p : Problem K) {x₀ : List K}
    (hx₀ : x₀.length = n) (j : Journal K) :
    (∀ solver : Lbfgs K,
      (solver.minimize A (T.problem p).oracle (T.point x₀)).perform (T.journal j) =
        Run.transport T.journal T.outcome ((solver.minimize A p.oracle x₀).perform j)) ∧
    (∀ solver : SteepestDescent K,
      (solver.minimize A (T.problem p).oracle (T.point x₀)).perform (T.journal j) =
        Run.transport T.journal T.outcome ((solver.minimize A p.oracle x₀).perform j)) := by
  have hexact := hA.exact
  constructor
  · intro solver
    have himage : (solver.method A).Image (solver.method A) T.state :=
      ⟨rfl, fun s => T.norm_vector s.gradient, fun _ => rfl, fun _ => List.length_map _⟩
    exact T.minimize_moved himage (fun _ => rfl) (fun hn => solver.keeps_method hA.lawful hn)
      (T.create_state solver.options.memory)
      (fun ho hshaped hn _ j hs => T.advance_state hexact ho hshaped hn _ hs j) p hx₀ _ j
  · intro solver
    have himage : (solver.method A).Image (solver.method A) T.iterate :=
      ⟨rfl, fun i => T.norm_vector i.gradient, fun _ => rfl, fun _ => rfl⟩
    exact T.minimize_moved himage (fun _ => rfl) (fun hn => solver.keeps_method hA.lawful hn)
      (fun _ _ => rfl) (fun ho hshaped hn _ j hi => T.advance_iterate hexact ho hshaped hn _ hi j)
      p hx₀ _ j

/-- A turn by a right angle, and then a shift. -/
def Motion.quarterTurn : Motion ℝ 2 where
  linear := !![0, -1; 1, 0]
  shift := ![1, 2]
  orthogonal := by
    ext i j
    fin_cases i <;> fin_cases j <;> simp [Matrix.mul_apply]

/-- The valley, turned and shifted. -/
theorem runs_equivariant_quarterTurn :
    ([3, -2] : List ℝ).length = 2 ∧ Motion.quarterTurn.point [3, -2] = [3, 5] ∧
    (Lbfgs.standard.minimize .laned (Motion.quarterTurn.problem .valley).oracle [3, 5]).perform {} =
      Run.transport Motion.quarterTurn.journal Motion.quarterTurn.outcome
        ((Lbfgs.standard.minimize .laned Problem.valley.oracle [3, -2]).perform {}) ∧
    (SteepestDescent.standard.minimize .sequential (Motion.quarterTurn.problem .valley).oracle
        [3, 5]).perform {} =
      Run.transport Motion.quarterTurn.journal Motion.quarterTurn.outcome
        ((SteepestDescent.standard.minimize .sequential Problem.valley.oracle
          [3, -2]).perform {}) := by
  have hlength : ([3, -2] : List ℝ).length = 2 := rfl
  have hpoint : Motion.quarterTurn.point [3, -2] = [3, 5] := by
    norm_num [Motion.point, Motion.quarterTurn, coords, Matrix.vecHead, Matrix.vecTail]
  have hlbfgs := (runs_equivariant .laned Motion.quarterTurn .valley hlength {}).1 .standard
  have hdescent := (runs_equivariant .sequential Motion.quarterTurn .valley hlength {}).2 .standard
  have hjournal : Motion.quarterTurn.journal {} = {} := by simp [Motion.journal]
  rw [hpoint, hjournal] at hlbfgs hdescent
  exact ⟨hlength, hpoint, hlbfgs, hdescent⟩

end QuasiNewton
