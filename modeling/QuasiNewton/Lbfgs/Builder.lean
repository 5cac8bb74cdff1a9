import QuasiNewton.Lbfgs.Solver

/-!
# Builders

A solver that is handed out is put together from options and a logger, and its line search keeps
the constants for itself. A builder collects the options and the logger in one call after the other,
and checks nothing before it builds.
-/

namespace QuasiNewton.Lbfgs

variable {α Λ : Type}

/-- Where the records of a solver go, where `Λ` are the loggers that a caller can supply. -/
inductive Logger (Λ : Type) where
  | discarding
  /-- The logger that verbose solvers share. -/
  | verbose
  | supplied (logger : Λ)
deriving DecidableEq, Repr

namespace Logger

/-- The logger of a solver for which none is supplied. -/
def ofVerbose (verbose : Bool) : Logger Λ :=
  if verbose then .verbose else .discarding

/-- What the loggers of a caller receive. -/
def received : Logger Λ → List (Record α) → List (Λ × Record α)
  | supplied logger, records => records.map (logger, ·)
  | discarding, _ | verbose, _ => []

end Logger

/-- A solver with all its parts. -/
structure Assembly (α Λ : Type) where
  options : Options α
  /-- The constants that the line search works with. -/
  lineSearch : LineSearch.Options α
  logger : Logger Λ

namespace Assembly

def ofParts (options : Options α) (logger : Logger Λ) : Assembly α Λ where
  options := options
  lineSearch := options.lineSearch
  logger := logger

variable [Scalar α]

/-- The solver with these options, if they pass the check. -/
def create (options : Options α) : Except (Fault α) (Assembly α Λ) := do
  options.check
  return .ofParts options (.ofVerbose options.verbose)

def method (A : Arithmetic α) (a : Assembly α Λ) : Method α (State α) :=
  { Lbfgs.method A ⟨a.options⟩ with advance := State.advance A a.lineSearch }

/-- Minimize the objective from `x₀`. -/
def minimize (A : Arithmetic α) (a : Assembly α Λ) (o : Oracle α) (x₀ : List α) :
    Run α (Outcome α) :=
  (a.method A).minimize a.options.toStopping o x₀

end Assembly

/-- What a builder has collected. -/
structure Builder (α Λ : Type) where
  options : Options α
  /-- The logger that was supplied, if there was one. -/
  logger : Option Λ

namespace Builder

inductive Call (α Λ : Type) where
  | set (setting : Setting α)
  | logger (logger : Λ)

/-- Overwrite what the call is about. -/
def apply (b : Builder α Λ) : Call α Λ → Builder α Λ
  | .set setting => { b with options := b.options.apply setting }
  | .logger logger => { b with logger := some logger }

variable [Scalar α]

/-- The standard options, and no logger. -/
def initial : Builder α Λ where
  options := .standard
  logger := none

/-- Make the calls one after the other. -/
def ofCalls (calls : List (Call α Λ)) : Builder α Λ :=
  calls.foldl apply initial

/-- The solver with what was collected, if the options pass the check. A logger that was supplied
takes precedence over what `verbose` asks for. -/
def build (b : Builder α Λ) : Except (Fault α) (Assembly α Λ) := do
  b.options.check
  let logger := match b.logger with
    | some logger => .supplied logger
    | none => .ofVerbose b.options.verbose
  return .ofParts b.options logger

end Builder

end QuasiNewton.Lbfgs
