import QuasiNewton.LineSearch.Options
import QuasiNewton.Stopping

/-!
# Options of L-BFGS

The limits of a run, the number of pairs to remember, and the constants of the line search. The
options can be filled in one setting after the other; nothing is checked before they are all in.
-/

namespace QuasiNewton.Lbfgs

variable {α : Type}

/-- What an L-BFGS solver is built from. -/
structure Options (α : Type) extends Stopping α where
  /-- The number of pairs to remember. -/
  memory : Nat
  /-- The constants of the line search. -/
  lineSearch : LineSearch.Options α
  /-- Whether the solver reports its progress to the terminal. -/
  verbose : Bool

inductive Setting (α : Type) where
  | memory (memory : Nat)
  | tolerance (tolerance : α)
  | budget (budget : Nat)
  | lineSearch (options : LineSearch.Options α)
  | verbose (verbose : Bool)
  /-- Replace all options at once. -/
  | options (options : Options α)

namespace Options

/-- Overwrite what the setting is about. -/
def apply (o : Options α) : Setting α → Options α
  | .memory memory => { o with memory }
  | .tolerance tolerance => { o with tolerance }
  | .budget budget => { o with budget }
  | .lineSearch lineSearch => { o with lineSearch }
  | .verbose verbose => { o with verbose }
  | .options options => options

variable [Scalar α]

/-- The options that serve most objectives. -/
def standard : Options α where
  toStopping := .standard
  memory := 10
  lineSearch := .standard
  verbose := false

/-- Accept a memory of at least one pair. -/
def checkMemory (memory : Nat) : Except (Fault α) Unit :=
  if memory = 0 then
    .error (.invalidMemory memory "L-BFGS memory must be greater than zero.")
  else
    .ok ()

/-- Accept options whose fields are all accepted. They are looked at in the order memory,
tolerance, budget, line search. -/
def check (o : Options α) : Except (Fault α) Unit := do
  checkMemory o.memory
  o.toStopping.check
  o.lineSearch.check

/-- The options, when they pass the check. -/
def create (memory : Nat) (tolerance : α) (budget : Nat) (lineSearch : LineSearch.Options α)
    (verbose : Bool) : Except (Fault α) (Options α) := do
  let o : Options α := ⟨⟨tolerance, budget⟩, memory, lineSearch, verbose⟩
  o.check
  return o

/-- Options with the standard line search, when they pass the check. -/
def ofLimits (memory : Nat) (tolerance : α) (budget : Nat) : Except (Fault α) (Options α) :=
  create memory tolerance budget .standard false

/-- Apply settings one after the other to the standard options. -/
def ofSettings (settings : List (Setting α)) : Options α :=
  settings.foldl apply .standard

end Options

end QuasiNewton.Lbfgs
