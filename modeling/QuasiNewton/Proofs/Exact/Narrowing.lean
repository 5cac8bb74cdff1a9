import Mathlib.Data.List.Chain
import Mathlib.Tactic.Linarith
import QuasiNewton.Proofs.Exact.Scalar
import QuasiNewton.Proofs.LineSearch.Rounds

/-!
# Narrowing brackets

Whatever a search is told of its trials, its brackets close in on a step. In exact arithmetic the
next step lies strictly between the ends, and no end ever moves outwards. A trial that is not
accepted makes its step an end, so every step that was tried lies outside the later brackets, and
none is tried twice. From the first step that is too long on the next step is half way between the
ends, and each trial halves the bracket (`brackets_narrow`).
-/

namespace QuasiNewton.LineSearch

variable {K : Type} [Field K] [LinearOrder K]

/-! ### Brackets -/

/-- The next step lies strictly between the ends. -/
structure Bracket.Bounds (b : Bracket K) : Prop where
  lower_nonneg : 0 ≤ b.lower
  lower_lt : b.lower < b.step
  lt_upper : ∀ hi ∈ b.upper, b.step < hi

/-- If there is an upper end, the next step is half way to it. -/
structure Bracket.Centered (b : Bracket K) : Prop where
  step_eq : ∀ hi ∈ b.upper, b.step = (b.lower + hi) / 2

/-- No end of the later bracket lies further out, and it leaves out the step that was tried. -/
structure Bracket.NarrowsTo (b later : Bracket K) : Prop where
  lower_le : b.lower ≤ later.lower
  upper_le : ∀ hi ∈ b.upper, ∃ hi' ∈ later.upper, hi' ≤ hi
  leaves_out : b.step ≤ later.lower ∨ ∃ hi ∈ later.upper, hi ≤ b.step

/-- If there is an upper end, the next bracket is half as wide. -/
structure Bracket.HalvesTo (b next : Bracket K) : Prop where
  width_eq : ∀ hi ∈ b.upper, ∃ hi' ∈ next.upper, hi' - next.lower = (hi - b.lower) / 2

/-- The brackets of the rounds of one search, in order, the way they close in. -/
structure Narrowing (brackets : List (Bracket K)) : Prop where
  bounds : ∀ b ∈ brackets, b.Bounds
  centered : ∀ b ∈ brackets, b.Centered
  narrows : brackets.Pairwise Bracket.NarrowsTo
  halves : brackets.IsChain Bracket.HalvesTo

variable {b b' b'' : Bracket K} {verdict : Verdict} {past : List (Bracket K)}

omit [Field K] in
theorem Bracket.NarrowsTo.trans (h : b.NarrowsTo b') (h' : b'.NarrowsTo b'') :
    b.NarrowsTo b'' where
  lower_le := h.lower_le.trans h'.lower_le
  upper_le := by
    intro hi hhi
    obtain ⟨hi', hhi', hle⟩ := h.upper_le hi hhi
    obtain ⟨hi'', hhi'', hle'⟩ := h'.upper_le hi' hhi'
    exact ⟨hi'', hhi'', hle'.trans hle⟩
  leaves_out := by
    obtain hle | ⟨hi, hhi, hle⟩ := h.leaves_out
    · exact Or.inl (hle.trans h'.lower_le)
    · obtain ⟨hi', hhi', hle'⟩ := h'.upper_le hi hhi
      exact Or.inr ⟨hi', hhi', hle'.trans hle⟩

theorem Bracket.NarrowsTo.step_ne (h : b.NarrowsTo b') (hb : b'.Bounds) : b.step ≠ b'.step := by
  obtain hle | ⟨hi, hhi, hle⟩ := h.leaves_out
  · exact (hle.trans_lt hb.lower_lt).ne
  · exact ((hb.lt_upper hi hhi).trans_le hle).ne'

theorem Narrowing.nodup_steps {brackets : List (Bracket K)} (h : Narrowing brackets) :
    (brackets.map Bracket.step).Nodup :=
  List.pairwise_map.mpr (h.narrows.imp_of_mem fun _ hlater hnarrows =>
    hnarrows.step_ne (h.bounds _ hlater))

/-- The step that was tried is an end of the next bracket. -/
theorem Bracket.Bounds.narrowsTo_refine (h : b.Bounds) (hverdict : verdict ≠ .accepted) :
    b.NarrowsTo (b.refine verdict) := by
  cases verdict with
  | accepted => exact absurd rfl hverdict
  | tooShort => exact ⟨h.lower_lt.le, fun hi hhi => ⟨hi, hhi, le_rfl⟩, Or.inl le_rfl⟩
  | tooLong =>
    exact ⟨le_rfl, fun hi hhi => ⟨b.step, rfl, (h.lt_upper hi hhi).le⟩,
      Or.inr ⟨b.step, rfl, le_rfl⟩⟩

variable [IsStrictOrderedRing K]

theorem Bracket.step_shorten (b : Bracket K) : b.shorten.step = (b.lower + b.step) / 2 := by
  have hhalf : (0.5 : K) = 1 / 2 := by norm_num
  change 0.5 * (b.lower + b.step) = _
  rw [hhalf]
  ring

theorem Bracket.step_lengthen_of_eq_none (h : b.upper = none) : b.lengthen.step = 2 * b.step := by
  have htwo : (2.0 : K) = 2 := by norm_num
  rw [lengthen, h]
  exact congrArg (· * b.step) htwo

theorem Bracket.step_lengthen_of_eq_some {hi : K} (h : b.upper = some hi) :
    b.lengthen.step = (b.step + hi) / 2 := by
  have hhalf : (0.5 : K) = 1 / 2 := by norm_num
  rw [lengthen, h]
  change 0.5 * (b.step + hi) = _
  rw [hhalf]
  ring

theorem Bracket.bounds_initial {first : K} (hfirst : 0 < first) :
    (Bracket.initial first).Bounds := by
  have hzero : (0.0 : K) = 0 := by norm_num
  have hlower : (Bracket.initial first).lower = 0 := hzero
  exact ⟨hlower.ge, hlower.trans_lt hfirst, fun hi hhi => by cases hhi⟩

/-! ### What a trial does to them -/

theorem Bracket.Bounds.lengthen (h : b.Bounds) : b.lengthen.Bounds := by
  have hpos : 0 < b.step := h.lower_nonneg.trans_lt h.lower_lt
  refine ⟨hpos.le, ?_, ?_⟩
  · change b.step < b.lengthen.step
    rcases hupper : b.upper with _ | hi
    · rw [step_lengthen_of_eq_none hupper]
      linarith
    · have hlt := h.lt_upper hi hupper
      rw [step_lengthen_of_eq_some hupper]
      linarith
  · intro hi hhi
    have hupper : b.upper = some hi := hhi
    have hlt := h.lt_upper hi hupper
    rw [step_lengthen_of_eq_some hupper]
    linarith

theorem Bracket.Bounds.shorten (h : b.Bounds) : b.shorten.Bounds := by
  have hlt := h.lower_lt
  refine ⟨h.lower_nonneg, ?_, ?_⟩
  · change b.lower < b.shorten.step
    rw [step_shorten]
    linarith
  · intro hi hhi
    obtain rfl : b.step = hi := Option.some.inj hhi
    rw [step_shorten]
    linarith

theorem Bracket.Bounds.refine (h : b.Bounds) (hverdict : verdict ≠ .accepted) :
    (b.refine verdict).Bounds := by
  cases verdict with
  | accepted => exact absurd rfl hverdict
  | tooShort => exact h.lengthen
  | tooLong => exact h.shorten

theorem Bracket.centered_refine (b : Bracket K) (hverdict : verdict ≠ .accepted) :
    (b.refine verdict).Centered where
  step_eq := by
    intro hi hhi
    cases verdict with
    | accepted => exact absurd rfl hverdict
    | tooShort => exact step_lengthen_of_eq_some hhi
    | tooLong =>
      obtain rfl : b.step = hi := Option.some.inj hhi
      exact b.step_shorten

theorem Bracket.Centered.halvesTo_refine (h : b.Centered) (hverdict : verdict ≠ .accepted) :
    b.HalvesTo (b.refine verdict) where
  width_eq := by
    intro hi hhi
    have hstep := h.step_eq hi hhi
    cases verdict with
    | accepted => exact absurd rfl hverdict
    | tooShort =>
      refine ⟨hi, hhi, ?_⟩
      change hi - b.step = _
      linarith
    | tooLong =>
      refine ⟨b.step, rfl, ?_⟩
      change b.step - b.lower = _
      linarith

/-! ### The rounds of a search -/

theorem narrowing_initial {first : K} (hfirst : 0 < first) : Narrowing [Bracket.initial first] where
  bounds := List.forall_mem_singleton.mpr (Bracket.bounds_initial hfirst)
  centered := List.forall_mem_singleton.mpr ⟨fun hi hhi => by cases hhi⟩
  narrows := List.pairwise_singleton _ _
  halves := List.isChain_singleton _

theorem Narrowing.refine (h : Narrowing (past ++ [b])) (hverdict : verdict ≠ .accepted) :
    Narrowing (past ++ [b] ++ [b.refine verdict]) := by
  have hb : b ∈ past ++ [b] := List.mem_append_right past List.mem_cons_self
  have hnext := (h.bounds b hb).narrowsTo_refine hverdict
  refine ⟨?_, ?_, ?_, ?_⟩
  · exact List.forall_mem_append.mpr
      ⟨h.bounds, List.forall_mem_singleton.mpr ((h.bounds b hb).refine hverdict)⟩
  · exact List.forall_mem_append.mpr
      ⟨h.centered, List.forall_mem_singleton.mpr (b.centered_refine hverdict)⟩
  · refine List.pairwise_append.mpr ⟨h.narrows, List.pairwise_singleton _ _, ?_⟩
    intro c hc c' hc'
    obtain rfl := List.mem_singleton.mp hc'
    -- a bracket before the last one narrows to it, and so to all that follow
    obtain hpast | hlast := List.mem_append.mp hc
    · exact ((List.pairwise_append.mp h.narrows).2.2 c hpast b List.mem_cons_self).trans hnext
    · obtain rfl := List.mem_singleton.mp hlast
      exact hnext
  · refine List.isChain_append.mpr ⟨h.halves, List.isChain_singleton _, ?_⟩
    intro c hc c' hc'
    rw [List.getLast?_concat] at hc
    obtain rfl := Option.some.inj hc
    obtain rfl := Option.some.inj hc'
    exact (h.centered b hb).halvesTo_refine hverdict

variable {A : Arithmetic K} {opts : Options K} {o : Oracle K} {x d g : List K}
  {j j₁ : Journal K} {l : Line K} {left : ℕ}

theorem Passage.narrowing (hfirst : 0 < opts.firstStep)
    (h : Passage A opts o x d g j l past left b j₁) : Narrowing (past ++ [b]) := by
  induction h with
  | first _ _ _ => exact narrowing_initial hfirst
  | next _ _ hverdict _ ih => exact ih.refine hverdict

/-- In every round of a search the brackets of the rounds up to it close in, each within the ones
before, and so does the bracket that a trial leaves, even if it is the last one. No step is tried
twice. The search is at this round after one trial for each of the brackets before, and goes on from
it. -/
theorem brackets_narrow (hfirst : 0 < opts.firstStep)
    (h : Passage A opts o x d g j l past left b j₁) :
    past.length + left = rounds ∧
    (search A opts o x d g).perform j = (l.seek A opts o left b).perform j₁ ∧
    Narrowing (past ++ [b]) ∧ ((past ++ [b]).map Bracket.step).Nodup ∧
    ∀ verdict j₂, (l.judge A opts o b.step).perform j₁ = (.ok verdict, j₂) →
      verdict ≠ .accepted → Narrowing (past ++ [b] ++ [b.refine verdict]) := by
  have hnarrowing := h.narrowing hfirst
  exact ⟨h.length_past_add, h.round.perform_eq, hnarrowing, hnarrowing.nodup_steps,
    fun _ _ _ hverdict => hnarrowing.refine hverdict⟩

/-- A problem whose gradient is not its own. From zero on the objective falls as far as one. -/
def contrary : Problem ℚ :=
  .ofFunctions (fun x => if 1 ≤ x.headD 0 then 1 else -x.headD 0) fun _ => [-5]

/-- The first step is too long and the second one too short. -/
theorem brackets_narrow_contrary :
    ∃ l past b j₁, Passage .laned .standard contrary.oracle [0] [1] [-1] {} l past 48 b j₁ ∧
      past.map (fun c => (c.lower, c.upper, c.step)) = [(0, none, 1), (0, some 1, 1 / 2)] ∧
      (b.lower, b.upper, b.step) = (1 / 2, some 1, 3 / 4) ∧
      Narrowing (past ++ [b]) ∧ ((past ++ [b]).map Bracket.step).Nodup := by
  have hslope : Arithmetic.laned.inner [-1] [1] = some (-1 : ℚ) := by decide +kernel
  have hround : Passage .laned .standard contrary.oracle [0] [1] [-1] {} _ _ _ _ _ :=
    .first hslope (by decide +kernel) (contrary.perform_value [0] {})
  have hlong := hround.next
    (Prod.ext (show _ = Except.ok Verdict.tooLong by decide +kernel) rfl) (by decide)
    (by decide +kernel)
  have hshort := hlong.next
    (Prod.ext (show _ = Except.ok Verdict.tooShort by decide +kernel) rfl) (by decide)
    (by decide +kernel)
  obtain ⟨-, -, hnarrowing, hnodup, -⟩ := brackets_narrow (by decide +kernel) hshort
  exact ⟨_, _, _, _, hshort, by decide +kernel, by decide +kernel, hnarrowing, hnodup⟩

end QuasiNewton.LineSearch
