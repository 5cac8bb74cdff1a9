import QuasiNewton.Proofs.Course

/-!
# Valid configurations

A line search takes its constants as they are, and no test in it would notice that they are out of
range. That they are valid has to be seen to when a solver is built. An L-BFGS solver is built of
valid options only, however they were filled in (`Lbfgs.create_eq_ok_iff`). For steepest descent the
limits are checked and the constants are not (`SteepestDescent.create_eq_ok_iff`), so it is left to
the caller that they are valid (`accepted_solvers_valid`), and a solver with a negative first step
runs uphill (`SteepestDescent.uphill_accepted`).
-/

namespace QuasiNewton

variable {α : Type} [Scalar α]

/-! ### What is valid -/

/-- A tolerance that can be met, and a budget that allows for an iteration. -/
structure Stopping.Valid (limits : Stopping α) : Prop where
  finite : Scalar.isFinite limits.tolerance = true
  least : 1e-12 ≤ limits.tolerance
  budget : 1 ≤ limits.budget

/-- Constants for which the strong Wolfe conditions can be met, and a step to begin with. -/
structure LineSearch.Options.Valid (o : LineSearch.Options α) : Prop where
  armijo : 0.0 < o.armijo ∧ o.armijo < 1.0
  curvature : 0.0 < o.curvature ∧ o.curvature < 1.0
  armijo_lt : o.armijo < o.curvature
  finite : Scalar.isFinite o.firstStep = true
  pos : 0.0 < o.firstStep

structure Lbfgs.Options.Valid (o : Lbfgs.Options α) : Prop where
  memory : 1 ≤ o.memory
  limits : o.toStopping.Valid
  lineSearch : o.lineSearch.Valid

structure SteepestDescent.Valid (solver : SteepestDescent α) : Prop where
  limits : solver.toStopping.Valid
  lineSearch : solver.lineSearch.Valid

/-! ### What a check accepts -/

omit [Scalar α] in
/-- Two checks, of which the second is made only if the first one passes. -/
theorem check_seq_eq_ok_iff {a b : Except (Fault α) Unit} :
    (do a; b : Except (Fault α) Unit) = .ok () ↔ a = .ok () ∧ b = .ok () := by
  cases a with
  | error f => simp [bind, Except.bind]
  | ok _ => simp [bind, Except.bind]

theorem Stopping.check_eq_ok_iff {limits : Stopping α} :
    limits.check = .ok () ↔ limits.Valid := by
  have htolerance : checkTolerance limits.tolerance = .ok () ↔
      Scalar.isFinite limits.tolerance = true ∧ 1e-12 ≤ limits.tolerance := by
    unfold checkTolerance leastTolerance
    split
    · split <;> simp [*]
    · simp [*]
  have hbudget : (checkBudget limits.budget : Except (Fault α) Unit) = .ok () ↔
      1 ≤ limits.budget := by
    unfold checkBudget
    split
    · simp [*]
    · simp; omega
  rw [check, check_seq_eq_ok_iff, htolerance, hbudget]
  constructor
  · rintro ⟨⟨hfinite, hleast⟩, hbudget⟩
    exact ⟨hfinite, hleast, hbudget⟩
  · rintro ⟨hfinite, hleast, hbudget⟩
    exact ⟨⟨hfinite, hleast⟩, hbudget⟩

omit [Scalar α] in
/-- A test that has to pass before the other ones are made. -/
theorem ite_error_eq_ok_iff {p : Prop} [Decidable p] {f : Fault α} {e : Except (Fault α) Unit} :
    (if ¬ p then .error f else e) = .ok () ↔ p ∧ e = .ok () := by
  by_cases h : p <;> simp [h]

theorem LineSearch.Options.check_eq_ok_iff {o : LineSearch.Options α} :
    o.check = .ok () ↔ o.Valid := by
  rw [check, ite_error_eq_ok_iff, ite_error_eq_ok_iff, ite_error_eq_ok_iff, ite_error_eq_ok_iff]
  constructor
  · rintro ⟨harmijo, hcurvature, hlt, ⟨hfinite, hpos⟩, -⟩
    exact ⟨harmijo, hcurvature, hlt, hfinite, hpos⟩
  · rintro ⟨harmijo, hcurvature, hlt, hfinite, hpos⟩
    exact ⟨harmijo, hcurvature, hlt, ⟨hfinite, hpos⟩, rfl⟩

theorem Lbfgs.Options.check_eq_ok_iff {o : Lbfgs.Options α} : o.check = .ok () ↔ o.Valid := by
  have hmemory : (checkMemory o.memory : Except (Fault α) Unit) = .ok () ↔ 1 ≤ o.memory := by
    unfold checkMemory
    split
    · simp [*]
    · simp; omega
  rw [check, check_seq_eq_ok_iff, check_seq_eq_ok_iff, hmemory, Stopping.check_eq_ok_iff,
    LineSearch.Options.check_eq_ok_iff]
  constructor
  · rintro ⟨hmemory, hlimits, hconstants⟩
    exact ⟨hmemory, hlimits, hconstants⟩
  · rintro ⟨hmemory, hlimits, hconstants⟩
    exact ⟨hmemory, hlimits, hconstants⟩

/-! ### The standard configuration -/

theorem LineSearch.Options.valid_standard : (standard : LineSearch.Options Float).Valid :=
  check_eq_ok_iff.mp (by decide +kernel)

theorem Lbfgs.Options.valid_standard : (standard : Lbfgs.Options Float).Valid :=
  check_eq_ok_iff.mp (by decide +kernel)

theorem SteepestDescent.valid_standard : (standard : SteepestDescent Float).Valid :=
  ⟨Lbfgs.Options.valid_standard.limits, LineSearch.Options.valid_standard⟩

/-! ### What is built -/

omit [Scalar α] in
/-- What is made after a check is there if the check passes. -/
theorem check_return_eq_ok_iff {β : Type} {check : Except (Fault α) Unit} {b c : β} :
    (do check; return b : Except (Fault α) β) = .ok c ↔ check = .ok () ∧ c = b := by
  cases check with
  | error f => simp [bind, Except.bind]
  | ok _ => simp [bind, Except.bind, pure, Except.pure, eq_comm]

theorem LineSearch.Options.create_eq_ok_iff {armijo curvature firstStep : α}
    {o : LineSearch.Options α} :
    create armijo curvature firstStep = .ok o ↔ o.Valid ∧ o = ⟨armijo, curvature, firstStep⟩ := by
  rw [create, check_return_eq_ok_iff, check_eq_ok_iff]
  constructor
  · rintro ⟨hvalid, rfl⟩
    exact ⟨hvalid, rfl⟩
  · rintro ⟨hvalid, rfl⟩
    exact ⟨hvalid, rfl⟩

theorem Lbfgs.create_eq_ok_iff {options : Lbfgs.Options α} {solver : Lbfgs α} :
    create options = .ok solver ↔ options.Valid ∧ solver = ⟨options⟩ := by
  rw [create, check_return_eq_ok_iff, Options.check_eq_ok_iff]

/-- Nothing is asked of the constants of the line search. -/
theorem SteepestDescent.create_eq_ok_iff {tolerance : α} {budget : Nat}
    {lineSearch : LineSearch.Options α} {solver : SteepestDescent α} :
    create tolerance budget lineSearch = .ok solver ↔
      (⟨tolerance, budget⟩ : Stopping α).Valid ∧ solver = ⟨⟨tolerance, budget⟩, lineSearch⟩ := by
  rw [create, check_return_eq_ok_iff, Stopping.check_eq_ok_iff]

/-! ### What the runs of a solver search with -/

namespace Method

variable {σ : Type}

/-- The method with a check before each iteration, which stops the run if it does not pass. -/
def checking (m : Method α σ) (check : Except (Fault α) Unit) : Method α σ :=
  { m with advance := fun o s => do
      Run.ofExcept check
      m.advance o s }

omit [Scalar α] in
theorem checking_ok (m : Method α σ) : m.checking (.ok ()) = m := rfl

/-- Every run of the method searches with these constants and no others, and the constants are
valid throughout: a check of them before each iteration would make no difference. -/
structure RunsValid (m : Method α σ) (A : Arithmetic α) (direction : σ → Option (List α))
    (opts : LineSearch.Options α) : Prop where
  valid : opts.Valid
  searches : ∀ o : Oracle α, m.Searches A opts direction o
  check : ∀ (limits : Stopping α) (o : Oracle α) (x₀ : List α),
    (m.checking opts.check).minimize limits o x₀ = m.minimize limits o x₀

theorem runsValid {m : Method α σ} {A : Arithmetic α} {direction : σ → Option (List α)}
    {opts : LineSearch.Options α} (hopts : opts.Valid)
    (hm : ∀ o : Oracle α, m.Searches A opts direction o) : m.RunsValid A direction opts where
  valid := hopts
  searches := hm
  check := by
    intro limits o x₀
    rw [LineSearch.Options.check_eq_ok_iff.mpr hopts, checking_ok]

end Method

theorem Lbfgs.runsValid_method (A : Arithmetic α) {solver : Lbfgs α}
    (hsolver : solver.options.Valid) :
    (solver.method A).RunsValid A (State.direction A) solver.options.lineSearch :=
  Method.runsValid hsolver.lineSearch fun o => solver.searches_method A o

theorem SteepestDescent.runsValid_method (A : Arithmetic α) {solver : SteepestDescent α}
    (hsolver : solver.Valid) :
    (solver.method A).RunsValid A (fun i => some (scale i.gradient (-1.0))) solver.lineSearch :=
  Method.runsValid hsolver.lineSearch fun o => solver.searches_method A o

/-- A solver that was accepted is valid, and so are its runs. For steepest descent this takes
constants that are valid to begin with; its limits are valid in any case. -/
theorem accepted_solvers_valid (A : Arithmetic α) :
    (∀ (options : Lbfgs.Options α) (solver : Lbfgs α), Lbfgs.create options = .ok solver →
      solver.options = options ∧ solver.options.Valid ∧
        (solver.method A).RunsValid A (Lbfgs.State.direction A) solver.options.lineSearch) ∧
    (∀ (settings : List (Lbfgs.Setting α)) (solver : Lbfgs α),
      Lbfgs.build settings = .ok solver →
        solver.options = .ofSettings settings ∧ solver.options.Valid ∧
          (solver.method A).RunsValid A (Lbfgs.State.direction A) solver.options.lineSearch) ∧
    (∀ (tolerance : α) (budget : Nat) (lineSearch : LineSearch.Options α)
      (solver : SteepestDescent α),
      SteepestDescent.create tolerance budget lineSearch = .ok solver →
        solver = ⟨⟨tolerance, budget⟩, lineSearch⟩ ∧ solver.toStopping.Valid ∧
          (lineSearch.Valid → solver.Valid ∧
            (solver.method A).RunsValid A (fun i => some (scale i.gradient (-1.0)))
              solver.lineSearch)) := by
  have created (options : Lbfgs.Options α) (solver : Lbfgs α)
      (h : Lbfgs.create options = .ok solver) :
      solver.options = options ∧ solver.options.Valid ∧
        (solver.method A).RunsValid A (Lbfgs.State.direction A) solver.options.lineSearch := by
    obtain ⟨hvalid, rfl⟩ := Lbfgs.create_eq_ok_iff.mp h
    exact ⟨rfl, hvalid, Lbfgs.runsValid_method A hvalid⟩
  refine ⟨created, fun settings => created (.ofSettings settings), ?_⟩
  intro tolerance budget lineSearch solver h
  obtain ⟨hlimits, rfl⟩ := SteepestDescent.create_eq_ok_iff.mp h
  refine ⟨rfl, hlimits, fun hconstants => ?_⟩
  have hvalid : SteepestDescent.Valid ⟨⟨tolerance, budget⟩, lineSearch⟩ := ⟨hlimits, hconstants⟩
  exact ⟨hvalid, SteepestDescent.runsValid_method A hvalid⟩

/-- Options filled in one after the other, a replacement of all of them in between, and a steepest
descent with constants of its own. -/
theorem accepted_solvers_valid_tuned :
    (∃ solver : Lbfgs Float,
      Lbfgs.build [.memory 0, .options .standard, .memory 3, .lineSearch ⟨0.25, 0.5, 2.0⟩,
        .tolerance 1e-12] = .ok solver ∧
      solver.options.Valid ∧ solver.options.memory = 3 ∧
        (solver.method .laned).RunsValid .laned (Lbfgs.State.direction .laned) ⟨0.25, 0.5, 2.0⟩) ∧
    ∃ solver : SteepestDescent Float,
      SteepestDescent.create 1e-6 1 ⟨1e-4, 0.9, 0.125⟩ = .ok solver ∧ solver.Valid ∧
        (solver.method .laned).RunsValid .laned (fun i => some (scale i.gradient (-1.0)))
          ⟨1e-4, 0.9, 0.125⟩ := by
  obtain ⟨-, hbuild, hcreate⟩ := accepted_solvers_valid (.laned : Arithmetic Float)
  constructor
  · let settings : List (Lbfgs.Setting Float) := [.memory 0, .options .standard, .memory 3,
      .lineSearch ⟨0.25, 0.5, 2.0⟩, .tolerance 1e-12]
    have hcheck : (Lbfgs.Options.ofSettings settings).check = .ok () := by decide +kernel
    have hok : Lbfgs.build settings = .ok ⟨.ofSettings settings⟩ :=
      check_return_eq_ok_iff.mpr ⟨hcheck, rfl⟩
    obtain ⟨-, hvalid, hruns⟩ := hbuild settings _ hok
    exact ⟨_, hok, hvalid, rfl, hruns⟩
  · have hlimits : (⟨1e-6, 1⟩ : Stopping Float).check = .ok () := by decide +kernel
    have hconstants : (⟨1e-4, 0.9, 0.125⟩ : LineSearch.Options Float).check = .ok () := by
      decide +kernel
    have hok : SteepestDescent.create (1e-6 : Float) 1 ⟨1e-4, 0.9, 0.125⟩ =
        .ok ⟨⟨1e-6, 1⟩, ⟨1e-4, 0.9, 0.125⟩⟩ :=
      check_return_eq_ok_iff.mpr ⟨hlimits, rfl⟩
    obtain ⟨-, -, hruns⟩ := hcreate _ _ _ _ hok
    exact ⟨_, hok, hruns (LineSearch.Options.check_eq_ok_iff.mp hconstants)⟩

namespace SteepestDescent

/-- Steepest descent is accepted with a negative first step. Its run goes up the valley, while a
check of the constants would have stopped it. -/
theorem uphill_accepted :
    ∃ solver : SteepestDescent Float, create 1e-6 1 ⟨1e-4, 0.9, -1.0⟩ = .ok solver ∧
      ¬ solver.Valid ∧
      Problem.valley.value [(3.0 : Float), -2.0] = .ok 49.0 ∧
      ((solver.minimize .laned Problem.valley.oracle [3.0, -2.0]).perform {}).1.toOption.map
        Outcome.value = some 4876.0 ∧
      ((((solver.method .laned).checking solver.lineSearch.check).minimize solver.toStopping
        Problem.valley.oracle [3.0, -2.0]).perform {}).1 =
          .error (.fault (.invalidConstant "initial_step" (-1.0)
            "Initial step must be finite and positive.")) := by
  have hlimits : (⟨1e-6, 1⟩ : Stopping Float).check = .ok () := by decide +kernel
  have hneg : ¬ (0.0 : Float) < -1.0 := by decide +kernel
  refine ⟨_, check_return_eq_ok_iff.mpr ⟨hlimits, rfl⟩, fun hvalid => hneg hvalid.lineSearch.pos,
    by decide +kernel, by decide +kernel, by decide +kernel⟩

end SteepestDescent

end QuasiNewton
