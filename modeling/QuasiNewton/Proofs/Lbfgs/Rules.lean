import QuasiNewton.Proofs.Validity

/-!
# Rules for options

The check of options goes through rules of which each one has a fault of its own, and it fails with
the fault of the first rule that is broken (`Options.check_eq_enforce`). Each part of the check
enforces a part of the list.
-/

namespace QuasiNewton.Lbfgs

variable {α : Type} [Scalar α]

/-- What is asked of options. -/
inductive Rule where
  | memory
  | finiteTolerance
  | leastTolerance
  | budget
  | armijo
  | curvature
  | armijoBelowCurvature
  | firstStep
deriving DecidableEq, Repr

namespace Rule

/-- The rules in the order in which they are looked at. -/
def all : List Rule :=
  [memory, finiteTolerance, leastTolerance, budget, armijo, curvature, armijoBelowCurvature,
    firstStep]

def Holds (o : Options α) : Rule → Prop
  | memory => 1 ≤ o.memory
  | finiteTolerance => Scalar.isFinite o.tolerance = true
  | leastTolerance => 1e-12 ≤ o.tolerance
  | budget => 1 ≤ o.budget
  | armijo => 0.0 < o.lineSearch.armijo ∧ o.lineSearch.armijo < 1.0
  | curvature => 0.0 < o.lineSearch.curvature ∧ o.lineSearch.curvature < 1.0
  | armijoBelowCurvature => o.lineSearch.armijo < o.lineSearch.curvature
  | firstStep => Scalar.isFinite o.lineSearch.firstStep = true ∧ 0.0 < o.lineSearch.firstStep

instance decidableHolds (o : Options α) : (r : Rule) → Decidable (r.Holds o)
  | memory | budget => inferInstanceAs (Decidable (1 ≤ _))
  | finiteTolerance => inferInstanceAs (Decidable (_ = true))
  | leastTolerance => inferInstanceAs (Decidable (1e-12 ≤ o.tolerance))
  | armijo | curvature => inferInstanceAs (Decidable (0.0 < _ ∧ _ < 1.0))
  | armijoBelowCurvature =>
    inferInstanceAs (Decidable (o.lineSearch.armijo < o.lineSearch.curvature))
  | firstStep => inferInstanceAs (Decidable (_ = true ∧ 0.0 < o.lineSearch.firstStep))

/-- The fault of options that break the rule. -/
def fault (o : Options α) : Rule → Fault α
  | memory => .invalidMemory o.memory "L-BFGS memory must be greater than zero."
  | finiteTolerance => .invalidTolerance o.tolerance "Tolerance must be finite."
  | leastTolerance => .invalidTolerance o.tolerance "Tolerance must be at least 1e-12."
  | budget => .invalidBudget o.budget "Maximum iterations must be greater than zero."
  | armijo => .invalidConstant "c1" o.lineSearch.armijo "Armijo constant must lie in (0, 1)."
  | curvature =>
    .invalidConstant "c2" o.lineSearch.curvature "Curvature constant must lie in (0, 1)."
  | armijoBelowCurvature =>
    .invalidConstant "c2" o.lineSearch.curvature
      "Curvature constant must exceed the Armijo constant."
  | firstStep =>
    .invalidConstant "initial_step" o.lineSearch.firstStep
      "Initial step must be finite and positive."

/-- The first rule in the list that the options break. -/
def firstBroken? (rules : List Rule) (o : Options α) : Option Rule :=
  rules.find? fun r => ¬ r.Holds o

/-- Accept options that keep the rules. -/
def enforce (rules : List Rule) (o : Options α) : Except (Fault α) Unit :=
  match firstBroken? rules o with
  | none => .ok ()
  | some r => .error (r.fault o)

variable {o : Options α} {r : Rule} {rules rules' : List Rule} {fault : Fault α}

theorem enforce_nil : enforce [] o = .ok () := rfl

theorem enforce_cons :
    enforce (r :: rules) o = if r.Holds o then enforce rules o else .error (r.fault o) := by
  rw [enforce, firstBroken?, List.find?_cons]
  by_cases h : r.Holds o
  · simp only [h, not_true_eq_false, decide_false, if_true]
    rfl
  · simp only [h, not_false_eq_true, decide_true, if_false]

theorem enforce_append :
    enforce (rules ++ rules') o = (do enforce rules o; enforce rules' o) := by
  induction rules with
  | nil => rfl
  | cons r rules ih =>
    rw [List.cons_append, enforce_cons, enforce_cons, ih]
    split <;> rfl

theorem enforce_eq_error_iff :
    enforce rules o = .error fault ↔ ∃ r, firstBroken? rules o = some r ∧ fault = r.fault o := by
  rw [enforce]
  cases firstBroken? rules o with
  | none => simp
  | some r => simp [eq_comm]

end Rule

/-! ### The parts of the check -/

theorem ite_eq_zero {β : Type} (n : Nat) (a b : β) :
    (if n = 0 then a else b) = if 1 ≤ n then b else a := by
  cases n <;> rfl

namespace Options

variable (o : Options α)

theorem checkMemory_eq_enforce : checkMemory o.memory = Rule.enforce [.memory] o := by
  rw [checkMemory, ite_eq_zero, Rule.enforce_cons, Rule.enforce_nil]
  rfl

theorem checkTolerance_eq_enforce :
    Stopping.checkTolerance o.tolerance =
      Rule.enforce [.finiteTolerance, .leastTolerance] o := by
  rw [Stopping.checkTolerance, Rule.enforce_cons, Rule.enforce_cons, Rule.enforce_nil]
  rfl

theorem checkBudget_eq_enforce : Stopping.checkBudget o.budget = Rule.enforce [.budget] o := by
  rw [Stopping.checkBudget, ite_eq_zero, Rule.enforce_cons, Rule.enforce_nil]
  rfl

theorem checkConstants_eq_enforce :
    o.lineSearch.check =
      Rule.enforce [.armijo, .curvature, .armijoBelowCurvature, .firstStep] o := by
  simp only [LineSearch.Options.check, ite_not, Rule.enforce_cons, Rule.enforce_nil]
  rfl

/-- The check fails with the fault of the first rule that the options break. -/
theorem check_eq_enforce : o.check = Rule.enforce Rule.all o := by
  have hall : Rule.all = [.memory] ++ (([.finiteTolerance, .leastTolerance] ++ [.budget]) ++
    [.armijo, .curvature, .armijoBelowCurvature, .firstStep]) := rfl
  rw [check, Stopping.check, checkMemory_eq_enforce, checkTolerance_eq_enforce,
    checkBudget_eq_enforce, checkConstants_eq_enforce, hall, Rule.enforce_append,
    Rule.enforce_append, Rule.enforce_append]

-- an undefined tolerance is noticed before the budget is looked at
example : Rule.firstBroken? Rule.all
    { (standard : Options Float) with tolerance := 0.0 / 0.0, budget := 0 } =
      some .finiteTolerance := by
  decide +kernel

end Options

end QuasiNewton.Lbfgs
