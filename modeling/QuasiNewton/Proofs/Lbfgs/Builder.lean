import QuasiNewton.Lbfgs.Builder
import QuasiNewton.Proofs.Halving
import QuasiNewton.Proofs.Lbfgs.Rules

/-!
# Ways to a solver

Options can be checked, made with a check, handed to a solver or to a builder, or given along with a
start point for one run. It comes to the same: each way enforces the same rules in the same order,
before anything else is done, and the solver that comes out of it makes the same runs. A builder
is no exception, however many calls are made: what it holds at the end is what the last call says
that is about it (`Field.read_ofSettings`), and with that it does what the solver does at once
(`entries_agree`).
-/

namespace QuasiNewton.Lbfgs

variable {α β Λ : Type}

/-! ### The last write -/

/-- What the last step writes is what is read after a sequence of steps. -/
theorem foldl_read_eq_last_write {σ ι : Type} (read : σ → Option β) {step : σ → ι → σ}
    {write : ι → Option β} (h : ∀ s i, read (step s i) = (write i).or (read s)) (is : List ι)
    (s : σ) : read (is.foldl step s) = (is.filterMap write).getLast?.or (read s) := by
  induction is generalizing s with
  | nil => rfl
  | cons i is ih =>
    rw [List.foldl_cons, ih, h]
    cases hwrite : write i with
    | none => rw [List.filterMap_cons_none hwrite, Option.none_or]
    | some b =>
      rw [List.filterMap_cons_some hwrite, List.getLast?_cons, Option.some_or, Option.or_some,
        Option.some_or]

/-- A part of options, and what a setting that is about it writes to it. -/
structure Field (α β : Type) where
  read : Options α → β
  write : Setting α → Option β
  read_apply : ∀ (o : Options α) (s : Setting α), read (o.apply s) = (write s).getD (read o)

namespace Field

def memory : Field α Nat where
  read := Options.memory
  write
    | .memory memory => some memory
    | .options options => some options.memory
    | _ => none
  read_apply o s := by cases s <;> rfl

def tolerance : Field α α where
  read o := o.tolerance
  write
    | .tolerance tolerance => some tolerance
    | .options options => some options.tolerance
    | _ => none
  read_apply o s := by cases s <;> rfl

def budget : Field α Nat where
  read o := o.budget
  write
    | .budget budget => some budget
    | .options options => some options.budget
    | _ => none
  read_apply o s := by cases s <;> rfl

def lineSearch : Field α (LineSearch.Options α) where
  read := Options.lineSearch
  write
    | .lineSearch lineSearch => some lineSearch
    | .options options => some options.lineSearch
    | _ => none
  read_apply o s := by cases s <;> rfl

def verbose : Field α Bool where
  read := Options.verbose
  write
    | .verbose verbose => some verbose
    | .options options => some options.verbose
    | _ => none
  read_apply o s := by cases s <;> rfl

variable [Scalar α]

/-- What the last of the settings that are about the part writes to it, else the standard. -/
def last (F : Field α β) (settings : List (Setting α)) : β :=
  (settings.filterMap F.write).getLast?.getD (F.read .standard)

theorem read_ofSettings (F : Field α β) (settings : List (Setting α)) :
    F.read (.ofSettings settings) = F.last settings := by
  have hstep (o : Options α) (s : Setting α) :
      some (F.read (o.apply s)) = (F.write s).or (some (F.read o)) := by
    rw [F.read_apply, Option.or_some]
  have hlast := foldl_read_eq_last_write (fun o => some (F.read o)) hstep settings .standard
  rw [Option.or_some] at hlast
  exact Option.some.inj hlast

end Field

variable [Scalar α]

/-- Each part as the last setting about it has it. -/
def Options.lastWritten (settings : List (Setting α)) : Options α where
  memory := Field.memory.last settings
  tolerance := Field.tolerance.last settings
  budget := Field.budget.last settings
  lineSearch := Field.lineSearch.last settings
  verbose := Field.verbose.last settings

theorem Options.ofSettings_eq_lastWritten (settings : List (Setting α)) :
    ofSettings settings = lastWritten settings := by
  simp only [lastWritten, ← Field.read_ofSettings]
  rfl

/-! ### Builders -/

omit [Scalar α] in
theorem check_return_eq_map {check : Except (Fault α) Unit} {b : β} :
    (do check; return b : Except (Fault α) β) = check.map fun _ => b := by
  cases check <;> rfl

namespace Builder

omit [Scalar α] in
/-- The setting that is made by the call. -/
def Call.setting? : Call α Λ → Option (Setting α)
  | .set setting => some setting
  | .logger _ => none

/-- The logger that is supplied by the call. -/
def Call.logger? : Call α Λ → Option Λ
  | .set _ => none
  | .logger l => some l

omit [Scalar α] in
theorem options_foldl_apply (calls : List (Call α Λ)) (b : Builder α Λ) :
    (calls.foldl apply b).options =
      (calls.filterMap Call.setting?).foldl Options.apply b.options := by
  induction calls generalizing b with
  | nil => rfl
  | cons c calls ih =>
    rw [List.foldl_cons, ih]
    cases c <;> rfl

theorem options_ofCalls (calls : List (Call α Λ)) :
    (ofCalls calls).options = .ofSettings (calls.filterMap Call.setting?) :=
  options_foldl_apply calls initial

theorem logger_ofCalls (calls : List (Call α Λ)) :
    (ofCalls calls).logger = (calls.filterMap Call.logger?).getLast? := by
  have hstep (b : Builder α Λ) (c : Call α Λ) :
      (b.apply c).logger = c.logger?.or b.logger := by
    cases c <;> rfl
  exact (foldl_read_eq_last_write Builder.logger hstep calls initial).trans Option.or_none

/-- A builder does what the solver does that is made of its options at once, but for the logger. -/
theorem build_eq (b : Builder α Λ) :
    b.build = (Assembly.create b.options).map fun a =>
      { a with logger := b.logger.elim a.logger .supplied } := by
  rw [build, Assembly.create, check_return_eq_map, check_return_eq_map]
  cases b.options.check with
  | error _ => rfl
  | ok _ => cases b.logger <;> rfl

end Builder

/-! ### The ways agree -/

/-- Options that are given along with a start point are checked first, and then it is the run of a
solver with these options. -/
theorem minimizeWith_eq (A : Arithmetic α) (options : Options α) (logger : Logger Λ)
    (o : Oracle α) (x₀ : List α) :
    minimizeWith A options o x₀ = Run.ofExcept options.check >>= fun _ =>
      (Assembly.ofParts options logger).minimize A o x₀ := by
  rw [minimizeWith, create, check_return_eq_map]
  cases options.check <;> rfl

/-- In doubles the two constants of the line search are valid if they are in order. -/
theorem check_eq_ok_iff_of_double {o : Options Float} :
    o.check = .ok () ↔
      1 ≤ o.memory ∧ (o.tolerance.isFinite = true ∧ 1e-12 ≤ o.tolerance) ∧ 1 ≤ o.budget ∧
        (0.0 < o.lineSearch.armijo ∧ o.lineSearch.armijo < o.lineSearch.curvature ∧
          o.lineSearch.curvature < 1.0) ∧
        (o.lineSearch.firstStep.isFinite = true ∧ 0.0 < o.lineSearch.firstStep) := by
  rw [Options.check_eq_ok_iff]
  constructor
  · rintro ⟨hmemory, hlimits, hconstants⟩
    exact ⟨hmemory, ⟨hlimits.finite, hlimits.least⟩, hlimits.budget,
      ⟨hconstants.armijo.1, hconstants.armijo_lt, hconstants.curvature.2⟩,
      hconstants.finite, hconstants.pos⟩
  · rintro ⟨hmemory, ⟨hfinite, hleast⟩, hbudget, ⟨hpos, hlt, hone⟩, hstep, hsteppos⟩
    exact ⟨hmemory, ⟨hfinite, hleast, hbudget⟩, ⟨hpos, Double.lt_trans hlt hone⟩,
      ⟨Double.lt_trans hpos hlt, hone⟩, hlt, hstep, hsteppos⟩

/-- Whichever way options are handed over, they are accepted or refused alike, and the solver that
is made of them makes the same runs. -/
structure EntriesAgree (Λ : Type) (options : Options Float) : Prop where
  accepts_iff : options.check = .ok () ↔
    1 ≤ options.memory ∧
      (options.tolerance.isFinite = true ∧ 1e-12 ≤ options.tolerance) ∧
      1 ≤ options.budget ∧
      (0.0 < options.lineSearch.armijo ∧
        options.lineSearch.armijo < options.lineSearch.curvature ∧
        options.lineSearch.curvature < 1.0) ∧
      (options.lineSearch.firstStep.isFinite = true ∧ 0.0 < options.lineSearch.firstStep)
  refuses_iff : ∀ fault, options.check = .error fault ↔
    ∃ rule, Rule.firstBroken? Rule.all options = some rule ∧ fault = rule.fault options
  create : Options.create options.memory options.tolerance options.budget options.lineSearch
    options.verbose = options.check.map fun _ => options
  solver : Lbfgs.create options = options.check.map fun _ => ⟨options⟩
  assembly : (Assembly.create options : Except (Fault Float) (Assembly Float Λ)) =
    options.check.map fun _ => .ofParts options (.ofVerbose options.verbose)
  builder : (Builder.ofCalls [.set (.options options)]).build =
    (Assembly.create options : Except (Fault Float) (Assembly Float Λ))
  run : ∀ (A : Arithmetic Float) (logger : Logger Λ) (o : Oracle Float) (x₀ : List Float)
    (j : Journal Float), (minimizeWith A options o x₀).perform j =
      match options.check with
      | .ok () => ((Assembly.ofParts options logger).minimize A o x₀).perform j
      | .error fault => (.error (.fault fault), j)

/-- All ways to a solver agree on all options, and they are looked at before the start point is, or
anything is asked. A builder does what the solver does at once that is made of the standard options
with each part as the last call about it has it, whatever calls were made; only the logger is the
last one that was supplied, if there was one. -/
theorem entries_agree (Λ : Type) :
    (∀ options : Options Float, EntriesAgree Λ options) ∧
    (∀ settings : List (Setting Float), build settings = create (.lastWritten settings)) ∧
    ∀ calls : List (Builder.Call Float Λ),
      (Builder.ofCalls calls).build =
        (Assembly.create (.lastWritten (calls.filterMap Builder.Call.setting?))).map fun a =>
          { a with
            logger := (calls.filterMap Builder.Call.logger?).getLast?.elim a.logger .supplied } := by
  refine ⟨fun options => ?_, fun settings => ?_, fun calls => ?_⟩
  · refine ⟨check_eq_ok_iff_of_double, fun fault => ?_, check_return_eq_map, check_return_eq_map,
      check_return_eq_map, ?_, fun A logger o x₀ j => ?_⟩
    · rw [Options.check_eq_enforce, Rule.enforce_eq_error_iff]
    · rfl
    · rw [minimizeWith_eq A options logger]
      cases options.check <;> rfl
  · rw [build, Options.ofSettings_eq_lastWritten]
  · rw [Builder.build_eq, Builder.options_ofCalls, Builder.logger_ofCalls,
      Options.ofSettings_eq_lastWritten]

end QuasiNewton.Lbfgs
