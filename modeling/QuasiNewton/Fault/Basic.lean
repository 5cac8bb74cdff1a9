/-!
# Faults

What can go wrong, by cause: an unusable point, an answer of the objective or the gradient that
breaks its contract, a configuration out of range, a failure that the caller's functions report,
or a complaint of the framework in which the problem was stated.
-/

namespace QuasiNewton

/-- The complaints that an optimisation framework has a name for. -/
inductive Complaint where
  | invalidParameter
  | notImplemented
  | notInitialized
  | conditionViolated
  | checkpointNotFound
  | potentialBug
  | impossible
deriving DecidableEq, Repr

/-- The cause of a failure, with the numbers and texts that identify it. -/
inductive Fault (α : Type) where
  -- a point, or an answer of the caller's functions, that breaks its contract
  | emptyPoint
  | invalidPoint (index : Nat) (value : α) (reason : String)
  | gradientLength (expected found : Nat)
  | invalidGradient (index : Nat) (value : α) (reason : String)
  | nonFiniteValue (value : α)
  -- a configuration out of range
  | invalidTolerance (tolerance : α) (reason : String)
  | invalidBudget (iterations : Nat) (reason : String)
  | invalidMemory (memory : Nat) (reason : String)
  | invalidConstant (name : String) (value : α) (reason : String)
  -- a failure that the caller's functions report
  | evaluationFailed (text : String)
  | framework (complaint : Complaint) (text : String)
  -- a failure of which only the text is known, or nothing
  | foreign (text : String)
  | unknown
deriving DecidableEq, Repr

namespace Fault

variable {α : Type}

/-- Whether a point or an answer breaks its contract on length and finiteness. -/
def isInvalidArgument : Fault α → Bool
  | emptyPoint | invalidPoint .. | gradientLength .. | invalidGradient .. | nonFiniteValue _ => true
  | _ => false

end Fault

end QuasiNewton
