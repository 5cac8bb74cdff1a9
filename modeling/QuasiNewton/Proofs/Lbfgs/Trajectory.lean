import QuasiNewton.Proofs.Lbfgs.Shaped

/-!
# Trajectories

The states through which L-BFGS goes, attempt by attempt. Whatever attempts fail on the way, a
state recalls its trajectory (`Trajectory.recalls`): it counts the iterations that succeeded, its
gradient is the gradient at its point, and its history holds the newest of the moves that passed
the guard, as many as there is room for.
-/

namespace QuasiNewton.Lbfgs

variable {α : Type} [Scalar α] {A : Arithmetic α}

/-! ### Moves -/

/-- The pair of the move from one state to another, if the guard lets it pass. -/
def State.movePair? (A : Arithmetic α) (s s' : State α) : Option (Pair α) := do
  let move := List.zipWith (· - ·) s'.point s.point
  let change := List.zipWith (· - ·) s'.gradient s.gradient
  let curvature ← A.inner move change
  if History.leastCurvature < curvature then some ⟨move, change, 1.0 / curvature⟩ else none

/-- The pairs of the moves along a list of states that passed the guard, the oldest first. -/
def movePairs (A : Arithmetic α) : List (State α) → List (Pair α)
  | s :: s' :: later => (s.movePair? A s').toList ++ movePairs A (s' :: later)
  | _ => []

theorem movePairs_append (past : List (State α)) (s s' : State α) :
    movePairs A (past ++ [s] ++ [s']) =
      movePairs A (past ++ [s]) ++ (s.movePair? A s').toList := by
  induction past with
  | nil => exact List.append_nil _
  | cons r past ih =>
    cases past with
    | nil =>
      simp only [List.nil_append, List.cons_append, movePairs, List.append_nil]
    | cons t past =>
      simp only [List.cons_append, movePairs, List.append_assoc] at ih ⊢
      rw [ih]

/-- The pair of an iteration is that of its move and the change of the gradient. -/
theorem Iteration.movePair?_eq {opts : LineSearch.Options α} {o : Oracle α} {n : Nat}
    {s s' : State α} {step : α} {j j' : Journal α} (i : Iteration A opts o s j s' step j')
    (hA : A.Lawful) (hn : 0 < n) (hs : s.Shaped A n) (hs' : s'.Shaped A n) :
    s.movePair? A s' =
      if History.leastCurvature < i.curvature then
        some ⟨i.move, i.change, 1.0 / i.curvature⟩
      else none := by
  rw [State.movePair?, ← i.move_eq_zipWith hA hn hs hs', ← i.change_eq_zipWith hA hn hs hs',
    i.curvature_eq, Option.bind_eq_bind, Option.bind_some]

/-! ### What a state recalls -/

/-- Attempts that begin at `s₀` end at `s`. The states in which an attempt succeeded are kept in
`past`, the oldest first; an attempt that failed leaves nothing there. -/
inductive Trajectory (A : Arithmetic α) (o : Oracle α) (s₀ : State α) :
    List (State α) → State α → Prop where
  | start : Trajectory A o s₀ [] s₀
  | succeed {past : List (State α)} {s : State α} (ht : Trajectory A o s₀ past s)
      (opts : LineSearch.Options α) (j : Journal α)
      (hok : (s.attempt A opts o j).1.isOk = true) :
      Trajectory A o s₀ (past ++ [s]) (s.attempt A opts o j).2.1
  | fail {past : List (State α)} {s : State α} (ht : Trajectory A o s₀ past s)
      (opts : LineSearch.Options α) (j : Journal α)
      (herror : (s.attempt A opts o j).1.isOk = false) :
      Trajectory A o s₀ past (s.attempt A opts o j).2.1

/-- What a state at the end of a trajectory says of the problem and of the states before it. -/
structure Recalls (A : Arithmetic α) (p : Problem α) (n memory : Nat) (past : List (State α))
    (s : State α) : Prop where
  iteration_eq : s.iteration = past.length
  length_point : s.point.length = n
  gradientAt : p.GradientAt n s.point s.gradient
  capacity_eq : s.history.capacity = max memory 1
  pairs_eq : s.history.pairs = (movePairs A (past ++ [s])).rtake (max memory 1)

variable {p : Problem α} {n memory : Nat} {past : List (State α)} {s s' : State α}

theorem recalls_initial {x₀ g₀ : List α} (hx₀ : x₀.length = n) (hg₀ : p.GradientAt n x₀ g₀) :
    Recalls A p n memory [] (.initial memory x₀ g₀) where
  iteration_eq := rfl
  length_point := hx₀
  gradientAt := hg₀
  capacity_eq := rfl
  pairs_eq := List.drop_nil.symm

/-- An offer keeps the newest pairs of the moves. -/
theorem Iteration.pairs_eq {opts : LineSearch.Options α} {step : α} {j j' : Journal α}
    (i : Iteration A opts (p.oracle.checked n) s j s' step j') (hA : A.Lawful) (hn : 0 < n)
    (hs : s.Shaped A n) (hr : Recalls A p n memory past s) :
    s'.history.pairs = (movePairs A (past ++ [s] ++ [s'])).rtake (max memory 1) := by
  have hs' := i.shaped hA hn (p.shapedAt_checked n) hs
  rw [movePairs_append, i.movePair?_eq hA hn hs hs']
  obtain ⟨hlt, -, hstore⟩ | ⟨hlt, -, hsame⟩ := i.offer_cases
  · rw [hstore, History.pairs_store, hr.capacity_eq, hr.pairs_eq, if_pos hlt]
    exact History.rtake_append _ _ _
  · rw [hsame, hr.pairs_eq, if_neg hlt, Option.toList_none, List.append_nil]

/-- What a state recalls is carried on by an iteration. -/
theorem Recalls.extend {opts : LineSearch.Options α} {step : α} {j j' : Journal α}
    (hr : Recalls A p n memory past s) (hA : A.Lawful) (hn : 0 < n) (hs : s.Shaped A n)
    (i : Iteration A opts (p.oracle.checked n) s j s' step j') :
    Recalls A p n memory (past ++ [s]) s' where
  iteration_eq := by
    rw [i.iteration_eq, hr.iteration_eq, List.length_append, List.length_singleton]
  length_point := i.length_point hA hn hs
  gradientAt := (p.perform_checked_gradient_eq_ok_iff.mp i.gradient_eq).1
  capacity_eq := (History.capacity_of_offer_eq_some i.offer_eq).trans hr.capacity_eq
  pairs_eq := i.pairs_eq hA hn hs hr

/-- A state recalls the trajectory that led to it, failed attempts apart. -/
theorem Trajectory.recalls (hA : A.Standard) {x₀ g₀ : List α} {j₀ j₁ : Journal α} (hx₀ : x₀ ≠ [])
    (hg₀ : ((p.oracle.checked x₀.length).gradient x₀).perform j₀ = (.ok g₀, j₁))
    (ht : Trajectory A (p.oracle.checked x₀.length) (.initial memory x₀ g₀) past s) :
    Recalls A p x₀.length memory past s := by
  have hgrad := (p.perform_checked_gradient_eq_ok_iff.mp hg₀).1
  have hn : 0 < x₀.length := List.length_pos_iff.mpr hx₀
  -- the lengths come along: a move is a difference only between vectors that fit
  suffices h : s.Shaped A x₀.length ∧ Recalls A p x₀.length memory past s from h.2
  induction ht with
  | start =>
    exact ⟨State.shaped_initial memory rfl hgrad.length_eq, recalls_initial rfl hgrad⟩
  | @succeed past s _ opts j hok ih =>
    obtain ⟨-, _, _, ⟨i⟩⟩ | ⟨herror, -⟩ := s.attempt_cases A opts (p.oracle.checked x₀.length) j
    · exact ⟨i.shaped hA.lawful hn (p.shapedAt_checked _) ih.1,
        ih.2.extend hA.lawful hn ih.1 i⟩
    · rw [herror] at hok
      cases hok
  | @fail past s _ opts j herror ih =>
    obtain ⟨hok, -⟩ | ⟨-, hsame⟩ := s.attempt_cases A opts (p.oracle.checked x₀.length) j
    · rw [herror] at hok
      cases hok
    · rwa [hsame]

/-- A trajectory in the valley: a failed attempt, whose first step is infinite, and two that
succeed. -/
theorem Trajectory.recalls_valley :
    ([3.0, -2.0] : List Float) ≠ [] ∧
    ∃ (g₀ : List Float) (j₁ : Journal Float) (past : List (State Float)) (s : State Float),
      ((Problem.valley.oracle.checked 2).gradient [3.0, -2.0]).perform {} = (.ok g₀, j₁) ∧
      Trajectory .laned (Problem.valley.oracle.checked 2) (.initial 1 [3.0, -2.0] g₀) past s ∧
      past.length = 2 ∧ Recalls .laned .valley 2 1 past s := by
  have hne : ([3.0, -2.0] : List Float) ≠ [] := List.cons_ne_nil _ _
  have hg₀ : ((Problem.valley.oracle.checked 2).gradient [(3.0 : Float), -2.0]).perform {} =
      (.ok [2.0 * 1.0 * 3.0, 2.0 * 10.0 * -2.0],
        ({} : Journal Float).countGradient.push (.asked (.gradient [3.0, -2.0]))) := rfl
  have ht₀ : Trajectory .laned (Problem.valley.oracle.checked 2)
      (.initial 1 [(3.0 : Float), -2.0] [2.0 * 1.0 * 3.0, 2.0 * 10.0 * -2.0]) [] _ := .start
  have ht₁ := ht₀.fail ⟨1e-4, 0.9, 1.0 / 0.0⟩ {} (by decide +kernel)
  have ht₂ := ht₁.succeed .standard {} (by decide +kernel)
  have ht₃ := ht₂.succeed .standard {} (by decide +kernel)
  exact ⟨hne, _, _, _, _, hg₀, ht₃, rfl, Trajectory.recalls .laned hne hg₀ ht₃⟩

end QuasiNewton.Lbfgs
