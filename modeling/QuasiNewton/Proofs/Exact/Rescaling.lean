import Mathlib.Tactic.FieldSimp
import Mathlib.Tactic.Linarith
import QuasiNewton.Proofs.Exact.Vector
import QuasiNewton.Proofs.History.Built
import QuasiNewton.Proofs.LineSearch.Transport
import QuasiNewton.Proofs.Lbfgs.Iteration

/-!
# Rescaled objectives

Let the values of an objective be measured in another unit: multiplied by a positive factor, and
shifted. Gradients and the changes of gradients are multiplied, and the inverse curvatures are
divided by the factor. With a pair in store an iteration takes no notice (`step_rescaled`). In the
two-loop recursion the factors cancel, so the direction is the same, and the line search compares
nothing but values with values and slopes with slopes. Only the guard of the history has a threshold
of its own. A journal in the other unit holds the same questions (`Rescaling.queries_journal`).
-/

namespace QuasiNewton

variable {K : Type} [Field K] [LinearOrder K]

/-! ### Vectors of another scale -/

theorem scale_scale (x : List K) (a b : K) : scale (scale x a) b = scale x (a * b) := by
  simp only [scale, List.map_map]
  congr 1
  funext c
  exact mul_assoc c a b

namespace Arithmetic

/-- Differences and inner products go along with the scale of their operands, whatever the
lengths. -/
structure Homogeneous (A : Arithmetic K) : Prop where
  sub_scale : ∀ (x y : List K) (c : K),
    A.sub (scale x c) (scale y c) = (A.sub x y).map (scale · c)
  inner_scale_left : ∀ (x y : List K) (c : K),
    A.inner (scale x c) y = (A.inner x y).map (c * ·)
  inner_scale_right : ∀ (x y : List K) (c : K),
    A.inner x (scale y c) = (A.inner x y).map (c * ·)

theorem zipWith_sub_scale (x y : List K) (c : K) :
    List.zipWith (· - ·) (scale x c) (scale y c) = scale (List.zipWith (· - ·) x y) c := by
  simp [scale, List.zipWith_map, List.map_zipWith, sub_mul]

theorem zipWith_mul_scale_left (x y : List K) (c : K) :
    List.zipWith (· * ·) (scale x c) y = (List.zipWith (· * ·) x y).map (c * ·) := by
  simp [scale, List.zipWith_map_left, List.map_zipWith, mul_comm, mul_left_comm]

theorem zipWith_mul_scale_right (x y : List K) (c : K) :
    List.zipWith (· * ·) x (scale y c) = (List.zipWith (· * ·) x y).map (c * ·) := by
  simp [scale, List.zipWith_map_right, List.map_zipWith, mul_comm, mul_left_comm]

theorem combineSpread_sub_scale (x y : List K) (c : K) :
    combineSpread (· - ·) (scale x c) (scale y c) =
      (combineSpread (· - ·) x y).map (scale · c) := by
  by_cases h : x.length = y.length
  · rw [combineSpread_of_length_eq _ h, combineSpread_of_length_eq _ (by simpa using h),
      zipWith_sub_scale, Option.map_some]
  · rcases x with _ | ⟨a, _ | ⟨a', x⟩⟩ <;> rcases y with _ | ⟨b, _ | ⟨b', y⟩⟩ <;>
      simp_all [combineSpread, scale, sub_mul]

variable [IsStrictOrderedRing K]

theorem homogeneous_sequential : (sequential : Arithmetic K).Homogeneous where
  sub_scale x y c := by
    simp only [sequential, combineMatching, length_scale, zipWith_sub_scale]
    split <;> rfl
  inner_scale_left x y c := by
    simp [sequential, orderedSum_eq_sum, zipWith_mul_scale_left]
  inner_scale_right x y c := by
    simp [sequential, orderedSum_eq_sum, zipWith_mul_scale_right]

theorem homogeneous_laned : (laned : Arithmetic K).Homogeneous where
  sub_scale := combineSpread_sub_scale
  inner_scale_left x y c := by
    simp only [laned, lanedSum_eq_sum, zipWith_mul_scale_left, length_scale]
    split <;> simp
  inner_scale_right x y c := by
    simp only [laned, lanedSum_eq_sum, zipWith_mul_scale_right, length_scale]
    split <;> simp

theorem Standard.homogeneous {A : Arithmetic K} (hA : A.Standard) : A.Homogeneous := by
  cases hA with
  | sequential => exact homogeneous_sequential
  | laned => exact homogeneous_laned

end Arithmetic

/-- The curvature along the move from one state to another. -/
def Lbfgs.State.curvature? {α : Type} [Scalar α] (A : Arithmetic α) (s s' : State α) :
    Option α := do
  A.inner (← A.sub s'.point s.point) (← A.sub s'.gradient s.gradient)

/-! ### What is rescaled -/

/-- Another unit for the values of an objective: they are multiplied by a positive factor, and
something is added to them. -/
structure Rescaling (K : Type) [Field K] [LinearOrder K] where
  factor : K
  offset : K
  pos : 0 < factor

namespace Rescaling

variable (T : Rescaling K)

def value (v : K) : K :=
  T.factor * v + T.offset

/-- A gradient, or a change of one. -/
def vector (g : List K) : List K :=
  g.map (· * T.factor)

/-- The problem in the other unit. It fails where it failed before. -/
def problem (p : Problem K) : Problem K where
  value x := (p.value x).map T.value
  gradient x := (p.gradient x).map T.vector

/-- A slope, the norm of a gradient and a curvature are multiplied like the gradients. -/
def record : Record K → Record K
  | .iteration solver iteration gradNorm step stored =>
    .iteration solver iteration (T.factor * gradNorm) step stored
  | .nonDescent solver iteration slope => .nonDescent solver iteration (T.factor * slope)
  | .skipped iteration curvature => .skipped iteration (T.factor * curvature)
  | .terminated solver status iterations value gradNorm =>
    .terminated solver status iterations (T.value value) (T.factor * gradNorm)

/-- The questions remain the same. -/
def entry : Entry K → Entry K
  | .asked q => .asked q
  | .noted r => .noted (T.record r)

def journal (j : Journal K) : Journal K :=
  { j with entries := j.entries.map T.entry }

def line (l : LineSearch.Line K) : LineSearch.Line K :=
  { l with value := T.value l.value, slope := T.factor * l.slope }

def pair (p : Pair K) : Pair K :=
  { p with y := T.vector p.y, rho := p.rho / T.factor }

def history (h : History K) : History K :=
  { h with pairs := h.pairs.map T.pair }

def iterate (i : Iterate K) : Iterate K :=
  { i with gradient := T.vector i.gradient }

def state (s : Lbfgs.State K) : Lbfgs.State K where
  toIterate := T.iterate s.toIterate
  history := T.history s.history

@[simp] theorem journal_push_asked (j : Journal K) (q : Query K) :
    T.journal (j.push (.asked q)) = (T.journal j).push (.asked q) := by
  simp [journal, Journal.push, entry]

@[simp] theorem journal_push_noted (j : Journal K) (r : Record K) :
    T.journal (j.push (.noted r)) = (T.journal j).push (.noted (T.record r)) := by
  simp [journal, Journal.push, entry]

@[simp] theorem queries_journal (j : Journal K) : (T.journal j).queries = j.queries := by
  rw [journal, Journal.queries, Journal.queries, Array.toList_map, List.filterMap_map]
  congr 1
  funext e
  cases e <;> rfl

@[simp] theorem newest?_history (h : History K) :
    (T.history h).newest? = h.newest?.map T.pair := by
  simp [history, History.newest?]

theorem store_history (h : History K) (p : Pair K) :
    (T.history h).store (T.pair p) = T.history (h.store p) := by
  simp [history, History.store]

theorem factor_ne_zero : T.factor ≠ 0 :=
  T.pos.ne'

theorem vector_eq_scale (g : List K) : T.vector g = scale g T.factor := rfl

/-! ### Questions -/

/-- To the same questions the second oracle gives the answers in the other unit. -/
structure Carries (o o' : Oracle K) : Prop where
  value : ∀ (x : List K) (j : Journal K),
    (o'.value x).perform (T.journal j) = Run.transport T.journal T.value ((o.value x).perform j)
  gradient : ∀ (x : List K) (j : Journal K),
    (o'.gradient x).perform (T.journal j) =
      Run.transport T.journal T.vector ((o.gradient x).perform j)

theorem carries_problem (p : Problem K) : T.Carries p.oracle (T.problem p).oracle where
  value x j := by
    rw [Problem.perform_value, Problem.perform_value]
    cases h : p.value x <;> simp [problem, Except.mapError, Except.map, h]
  gradient x j := by
    rw [Problem.perform_gradient, Problem.perform_gradient]
    cases h : p.gradient x <;> simp [problem, Except.mapError, Except.map, h]

theorem checkGradient_vector (dim : Nat) (g : List K) :
    checkGradient dim (T.vector g) = checkGradient dim g := by
  simp [checkGradient, firstNonFinite_exact, vector]

theorem Carries.checked {T : Rescaling K} {o o' : Oracle K} (ho : T.Carries o o') (dim : Nat) :
    T.Carries (o.checked dim) (o'.checked dim) where
  value x j := by
    refine Run.transport_bind (F := id) rfl fun _ j₁ _ => ?_
    refine Run.transport_bind (ho.value x j₁) fun v j₂ _ => ?_
    exact Run.transport_ofExcept_congr_bind rfl fun _ _ => rfl
  gradient x j := by
    refine Run.transport_bind (F := id) rfl fun _ j₁ _ => ?_
    refine Run.transport_bind (ho.gradient x j₁) fun g j₂ _ => ?_
    exact Run.transport_ofExcept_congr_bind (T.checkGradient_vector dim g) fun _ _ => rfl

/-! ### Histories -/

section

variable {A : Arithmetic K} (hA : A.Homogeneous)
include hA

/-- The scale of the newest pair is divided by the factor; without a pair it would be one. -/
theorem scaling_history {h : History K} (hne : h.pairs ≠ []) :
    (T.history h).scaling A = (h.scaling A).map (· / T.factor) := by
  obtain ⟨p, hp⟩ : ∃ p, h.newest? = some p := ⟨_, List.getLast?_eq_some_getLast hne⟩
  have hfactor := T.factor_ne_zero
  simp only [History.scaling, newest?_history, hp, Option.map_some, pair, vector_eq_scale,
    hA.inner_scale_left, hA.inner_scale_right]
  cases A.inner p.s p.y with
  | none => rfl
  | some a =>
    cases A.inner p.y p.y with
    | none => rfl
    | some b => exact congrArg some (by field_simp)

/-- On the way down the factors of the gradient and of the pairs cancel, and at the end the scale
takes away what is left. -/
theorem sweep_pairs (γ : K) (ps : List (Pair K)) (q : List K) :
    History.sweep A (γ / T.factor) (ps.map T.pair) (T.vector q) = History.sweep A γ ps q := by
  have hfactor := T.factor_ne_zero
  induction ps generalizing q with
  | nil =>
    rw [List.map_nil, History.sweep, History.sweep, vector_eq_scale, scale_scale,
      mul_div_cancel₀ γ hfactor]
  | cons p older ih =>
    have hcancel (c : K) : p.rho / T.factor * (T.factor * c) = p.rho * c := by field_simp
    have hswap (a : K) : scale (T.vector p.y) a = scale (scale p.y a) T.factor := by
      rw [vector_eq_scale, scale_scale, scale_scale, mul_comm]
    simp only [List.map_cons, History.sweep, pair, hswap]
    rw [vector_eq_scale, hA.inner_scale_right]
    cases A.inner p.s q with
    | none => rfl
    | some c =>
      simp only [Option.map_some, Option.bind_eq_bind, Option.bind_some, hcancel, hA.sub_scale]
      cases A.sub q (scale p.y (p.rho * c)) with
      | none => rfl
      | some q' =>
        simp only [Option.map_some, Option.bind_some, ← vector_eq_scale, ih]
        cases History.sweep A γ older q' with
        | none => rfl
        | some r =>
          simp only [Option.bind_some, vector_eq_scale, hA.inner_scale_left]
          cases A.inner p.y r with
          | none => rfl
          | some d => simp [hcancel]

theorem twoLoop_history {h : History K} (hne : h.pairs ≠ []) (g : List K) :
    (T.history h).twoLoop A (T.vector g) = h.twoLoop A g := by
  rw [History.twoLoop, History.twoLoop, T.scaling_history hA hne]
  cases h.scaling A with
  | none => rfl
  | some γ =>
    have hsweep := T.sweep_pairs hA γ h.pairs.reverse g
    rw [List.map_reverse] at hsweep
    simpa [history] using hsweep

theorem direction_state {s : Lbfgs.State K} (hne : s.history.pairs ≠ []) :
    (T.state s).direction A = s.direction A := by
  have htwoLoop := T.twoLoop_history hA hne s.gradient
  rw [Lbfgs.State.direction, Lbfgs.State.direction, ← htwoLoop]
  rfl

omit hA in
/-- The rho of a pair that is offered is that of its curvature in the other unit. -/
theorem pair_offered (s y : List K) (c : K) :
    T.pair ⟨s, y, 1.0 / c⟩ = ⟨s, T.vector y, 1.0 / (T.factor * c)⟩ := by
  simp [pair, div_div, mul_comm]

end

/-! ### The line search -/

section

variable {A : Arithmetic K} (hA : A.Homogeneous) {o o' : Oracle K} (ho : T.Carries o o')

include ho in
theorem trialValue_same (trial : List K) (j : Journal K) :
    (LineSearch.trialValue o' trial).perform (T.journal j) =
      Run.transport T.journal (Option.map T.value) ((LineSearch.trialValue o trial).perform j) := by
  refine Run.transport_bind (Run.transport_attempt (ho.value trial j)) ?_
  rintro (f | value) j₁ -
  · cases f <;> rfl
  · rfl

include hA ho

theorem trialSlope_same (trial d : List K) (j : Journal K) :
    (LineSearch.trialSlope A o' trial d).perform (T.journal j) =
      Run.transport T.journal (Option.map (T.factor * ·))
        ((LineSearch.trialSlope A o trial d).perform j) := by
  refine Run.transport_bind (Run.transport_attempt (ho.gradient trial j)) ?_
  rintro (f | gradient) j₁ -
  · cases f <;> rfl
  · exact Run.transport_ofOption_bind (hA.inner_scale_left gradient d T.factor) fun _ _ => rfl

end

section

variable [IsStrictOrderedRing K]

theorem nonneg_slope_iff (slope : K) : 0.0 ≤ T.factor * slope ↔ 0.0 ≤ slope := by
  have hzero : (0.0 : K) = 0 := by norm_num
  rw [hzero]
  exact mul_nonneg_iff_of_pos_left T.pos

theorem neg_slope_iff (slope : K) : T.factor * slope < 0.0 ↔ slope < 0.0 := by
  rw [← not_le, T.nonneg_slope_iff, not_le]

theorem decreases_line (l : LineSearch.Line K) (opts : LineSearch.Options K) (step v : K) :
    (T.line l).Decreases opts step (T.value v) ↔ l.Decreases opts step v := by
  have hbound : T.value l.value + opts.armijo * step * (T.factor * l.slope) =
      T.value (l.value + opts.armijo * step * l.slope) := by
    rw [value, value]
    ring
  change T.value v ≤ T.value l.value + opts.armijo * step * (T.factor * l.slope) ↔
    v ≤ l.value + opts.armijo * step * l.slope
  rw [hbound, value, value, add_le_add_iff_right, mul_le_mul_iff_right₀ T.pos]

theorem flattens_line (l : LineSearch.Line K) (opts : LineSearch.Options K) (slope : K) :
    (T.line l).Flattens opts (T.factor * slope) ↔ l.Flattens opts slope := by
  change |T.factor * slope| ≤ opts.curvature * |T.factor * l.slope| ↔
    |slope| ≤ opts.curvature * |l.slope|
  rw [abs_mul, abs_mul, mul_left_comm, mul_le_mul_iff_right₀ (abs_pos.mpr T.factor_ne_zero)]

theorem judgeSlope_line (l : LineSearch.Line K) (opts : LineSearch.Options K) (slope : Option K) :
    (T.line l).judgeSlope opts (slope.map (T.factor * ·)) = l.judgeSlope opts slope := by
  cases slope with
  | none => rfl
  | some slope =>
    simp only [Option.map_some, LineSearch.Line.judgeSlope, T.flattens_line, T.neg_slope_iff]

variable {A : Arithmetic K} (hA : A.Homogeneous) {o o' : Oracle K} (ho : T.Carries o o')
  (opts : LineSearch.Options K)
include hA ho

theorem judge_line (l : LineSearch.Line K) (step : K) (j : Journal K) :
    ((T.line l).judge A opts o' step).perform (T.journal j) =
      Run.transport T.journal id ((l.judge A opts o step).perform j) :=
  LineSearch.transport_judge_map (V := id) Option.map_id_apply.symm (T.decreases_line l opts step)
    (T.judgeSlope_line l opts) (fun trial _ => T.trialValue_same ho trial j)
    (fun trial j₁ _ => T.trialSlope_same hA ho trial l.direction j₁)

theorem search_same (x d g : List K) (j : Journal K) :
    (LineSearch.search A opts o' x d (T.vector g)).perform (T.journal j) =
      Run.transport T.journal id ((LineSearch.search A opts o x d g).perform j) := by
  refine Run.transport_ofOption_bind (hA.inner_scale_left g d T.factor) fun slope _ => ?_
  dsimp only
  simp only [T.nonneg_slope_iff]
  split
  · rfl
  · refine Run.transport_bind (ho.value x j) fun value j₁ _ => ?_
    exact LineSearch.transport_seek (T.judge_line hA ho opts ⟨x, d, value, slope⟩) _ _ j₁

end

/-! ### Iterations -/

/-- In both units the guard says the same of the move from `s` to `s'`. -/
def SameVerdict (A : Arithmetic K) (s s' : Lbfgs.State K) : Prop :=
  ∀ c ∈ s.curvature? A s', History.leastCurvature < c ↔ History.leastCurvature < T.factor * c

/-- An iteration from `s`, and one in the other unit. Both stop for the same reason, or both take
the same step to the same point. The states that they leave differ by no more than the unit, unless
the guard lets the pair of the move pass in only one of the two. -/
inductive Steps (A : Arithmetic K) (s : Lbfgs.State K) :
    Except (Stop K) (Lbfgs.State K × K) × Journal K →
    Except (Stop K) (Lbfgs.State K × K) × Journal K → Prop where
  | stops (stop : Stop K) (j : Journal K) : Steps A s (.error stop, j) (.error stop, T.journal j)
  | moves {s' t : Lbfgs.State K} {step : K} {j j' : Journal K}
      (hiterate : t.toIterate = T.iterate s'.toIterate) (hqueries : j'.queries = j.queries)
      (hsame : T.SameVerdict A s s' → t = T.state s' ∧ j' = T.journal j) :
      Steps A s (.ok (s', step), j) (.ok (t, step), j')

section

variable {T} {A : Arithmetic K} {s : Lbfgs.State K} {β γ : Type} {j : Journal K}

theorem Steps.bind {F : β → γ} {r : Run K β} {r' : Run K γ} {k : β → Run K (Lbfgs.State K × K)}
    {k' : γ → Run K (Lbfgs.State K × K)}
    (hr : r'.perform (T.journal j) = Run.transport T.journal F (r.perform j))
    (hk : ∀ b j₁, T.Steps A s ((k b).perform j₁) ((k' (F b)).perform (T.journal j₁))) :
    T.Steps A s ((r >>= k).perform j) ((r' >>= k').perform (T.journal j)) := by
  rw [Run.perform_bind, Run.perform_bind, hr]
  rcases r.perform j with ⟨stop | b, j₁⟩
  · exact .stops stop j₁
  · exact hk b j₁

theorem Steps.ofOption_bind {F : β → γ} {x : Option β} {x' : Option γ} (hx : x' = x.map F)
    {k : β → Run K (Lbfgs.State K × K)} {k' : γ → Run K (Lbfgs.State K × K)}
    (hk : ∀ b, x = some b → T.Steps A s ((k b).perform j) ((k' (F b)).perform (T.journal j))) :
    T.Steps A s ((Run.ofOption x >>= k).perform j) ((Run.ofOption x' >>= k').perform (T.journal j)) := by
  subst hx
  cases x with
  | none => exact .stops .misfit j
  | some b => exact hk b rfl

theorem Steps.ite_note {p p' : Prop} [Decidable p] [Decidable p'] (hp : p' ↔ p) {r : Record K}
    {k k' : Unit → Run K (Lbfgs.State K × K)}
    (hk : ∀ j, T.Steps A s ((k ()).perform j) ((k' ()).perform (T.journal j))) :
    T.Steps A s ((if p then Run.note r >>= k else k ()).perform j)
      ((if p' then Run.note (T.record r) >>= k' else k' ()).perform (T.journal j)) := by
  rw [Run.perform_ite_note, Run.perform_ite_note, ← T.journal_push_noted]
  simp only [hp]
  split
  · exact hk _
  · exact hk j

end

section

variable [IsStrictOrderedRing K] {A : Arithmetic K} (hA : A.Homogeneous) {o o' : Oracle K}
  (ho : T.Carries o o')
include hA ho

/-- An iteration takes the unit along. -/
theorem steps_advance (opts : LineSearch.Options K) {s : Lbfgs.State K} (hne : s.history.pairs ≠ [])
    (j : Journal K) :
    T.Steps A s ((s.advance A opts o).perform j)
      (((T.state s).advance A opts o').perform (T.journal j)) := by
  refine Steps.ofOption_bind ((T.direction_state hA hne).trans Option.map_id_apply.symm)
    fun d _ => ?_
  refine Steps.ofOption_bind (hA.inner_scale_left s.gradient d T.factor) fun slope _ => ?_
  refine Steps.ite_note (T.nonneg_slope_iff slope) fun j => ?_
  refine Steps.bind (T.search_same hA ho opts s.point d s.gradient j) fun step j₁ => ?_
  refine Steps.ofOption_bind (F := id) Option.map_id_apply.symm fun point _ => ?_
  refine Steps.bind (ho.gradient point j₁) fun gradient j₂ => ?_
  refine Steps.ofOption_bind (F := id) Option.map_id_apply.symm fun move hmove => ?_
  refine Steps.ofOption_bind (hA.sub_scale gradient s.gradient T.factor) fun change hchange => ?_
  refine Steps.ofOption_bind (hA.inner_scale_right move change T.factor) fun c hc => ?_
  have hc' : A.inner move (T.vector change) = some (T.factor * c) := by
    rw [vector_eq_scale, hA.inner_scale_right, hc, Option.map_some]
  change T.Steps A s ((Run.ofOption (s.history.offer A move change) >>= _).perform j₂)
    ((Run.ofOption ((T.history s.history).offer A move (T.vector change)) >>= _).perform
      (T.journal j₂))
  rw [History.offer_of_inner hc, History.offer_of_inner hc', ← T.pair_offered, T.store_history]
  have hcurvature {s' : Lbfgs.State K} (hpoint : s'.point = point)
      (hgradient : s'.gradient = gradient) : c ∈ s.curvature? A s' := by
    rw [Lbfgs.State.curvature?, hpoint, hgradient, hmove, hchange]
    exact hc
  by_cases hlt : History.leastCurvature < c <;>
    by_cases hlt' : History.leastCurvature < T.factor * c
  · rw [if_pos hlt, if_pos hlt']
    exact .moves rfl (T.queries_journal j₂) fun _ => ⟨rfl, rfl⟩
  · rw [if_pos hlt, if_neg hlt']
    refine .moves rfl ?_ fun hsame => absurd ((hsame c (hcurvature rfl rfl)).mp hlt) hlt'
    simp
  · rw [if_neg hlt, if_pos hlt']
    refine .moves rfl ?_ fun hsame => absurd ((hsame c (hcurvature rfl rfl)).mpr hlt') hlt
    simp
  · rw [if_neg hlt, if_neg hlt']
    refine .moves rfl ?_ fun _ => ⟨rfl, (T.journal_push_noted j₂ (.skipped s.iteration c)).symm⟩
    simp

end

end Rescaling

/-- An iteration with a pair in store does not depend on the unit in which the objective is measured.
With the rescaled problem, from the state with the rescaled gradient and pairs, it asks at the same
points, takes the same step and gets to the same point, or stops for the same reason; and the next
states correspond to each other again where the guard says the same of the new pair. -/
theorem step_rescaled [IsStrictOrderedRing K] {A : Arithmetic K} (hA : A.Standard)
    (T : Rescaling K) (p : Problem K) (opts : LineSearch.Options K) {s : Lbfgs.State K}
    (hne : s.history.pairs ≠ []) (j : Journal K) :
    T.Steps A s ((s.advance A opts p.oracle).perform j)
      (((T.state s).advance A opts (T.problem p).oracle).perform (T.journal j)) ∧
    ∀ dim, T.Steps A s ((s.advance A opts (p.oracle.checked dim)).perform j)
      (((T.state s).advance A opts ((T.problem p).oracle.checked dim)).perform (T.journal j)) := by
  have hcarries := T.carries_problem p
  constructor
  · exact T.steps_advance hA.homogeneous hcarries opts hne j
  · intro dim
    exact T.steps_advance hA.homogeneous (hcarries.checked dim) opts hne j

/-- Three times the value, and two more. -/
def Rescaling.triple : Rescaling ℚ :=
  ⟨3, 2, by norm_num⟩

/-- A state in the valley that remembers one pair. -/
def Lbfgs.State.pausing : Lbfgs.State ℚ where
  point := [3, -2]
  gradient := [6, -40]
  iteration := 1
  history := ⟨2, [⟨[1 / 2, 1 / 2], [1 / 2, 5], 4 / 11⟩]⟩

/-- The pair of the next move passes the guard in both units. -/
theorem step_rescaled_pausing :
    ∃ s step j, (Lbfgs.State.pausing.advance .laned .standard Problem.valley.oracle).perform {} =
        (.ok (s, step), j) ∧
      s.history.pairs.length = 2 ∧
      ((Rescaling.triple.state .pausing).advance .laned .standard
          (Rescaling.triple.problem .valley).oracle).perform {} =
        (.ok (Rescaling.triple.state s, step), Rescaling.triple.journal j) := by
  obtain ⟨⟨s, step⟩, j, hrun, hseen⟩ := Run.exists_perform_of_map_eq_some (j := {})
    (r := Lbfgs.State.pausing.advance .laned .standard Problem.valley.oracle)
    (f := fun r => (r.1.history.pairs.length,
      (Lbfgs.State.pausing.curvature? .laned r.1).map fun c => decide (History.leastCurvature < c)))
    (c := (2, some true)) (by decide +kernel)
  obtain ⟨hlength, hpasses⟩ := Prod.mk.inj hseen
  have hsame : Rescaling.triple.SameVerdict .laned .pausing s := by
    intro c hc
    obtain ⟨d, hd, hlt⟩ := Option.map_eq_some_iff.mp hpasses
    obtain rfl := Option.some.inj (hc.symm.trans hd)
    have hlt : History.leastCurvature < c := of_decide_eq_true hlt
    have hpos := leastCurvature_pos.trans hlt
    refine ⟨fun _ => hlt.trans ?_, fun _ => hlt⟩
    change c < 3 * c
    linarith
  have hsteps := (step_rescaled .laned .triple .valley .standard
    (s := .pausing) (List.cons_ne_nil _ _) {}).1
  have hjournal : Rescaling.triple.journal {} = {} := by simp [Rescaling.journal]
  rw [hrun, hjournal] at hsteps
  refine ⟨s, step, j, hrun, hlength, ?_⟩
  generalize ((Rescaling.triple.state .pausing).advance .laned .standard
    (Rescaling.triple.problem .valley).oracle).perform {} = result at hsteps
  cases hsteps with
  | moves _ _ heq =>
    obtain ⟨rfl, rfl⟩ := heq hsame
    rfl

end QuasiNewton
