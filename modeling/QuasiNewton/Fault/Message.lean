import QuasiNewton.Decimal.Layout
import QuasiNewton.Fault.Basic

/-!
# Messages

The wording of every fault. Numbers are written in the plain layout.
-/

namespace QuasiNewton

def Complaint.heading : Complaint → String
  | invalidParameter => "Invalid parameter"
  | notImplemented => "Not implemented"
  | notInitialized => "Not initialized"
  | conditionViolated => "Condition violated"
  | checkpointNotFound => "Checkpoint not found"
  | potentialBug => "Potential bug"
  | impossible => "Impossible error"

/-- The message of a fault over doubles. -/
def Fault.message : Fault Float → String
  | emptyPoint => "Invalid argument: initial point must have at least one coordinate"
  | invalidPoint index value reason =>
    s!"Invalid point at index {index}: " ++ Layout.plain.text value ++ ": " ++ reason
  | gradientLength expected found =>
    s!"Gradient dimension mismatch: expected {expected}, found {found}"
  | invalidGradient index value reason =>
    s!"Invalid gradient at index {index}: " ++ Layout.plain.text value ++ ": " ++ reason
  | nonFiniteValue value => "Non-finite objective value: " ++ Layout.plain.text value
  | evaluationFailed text => "Evaluation failed: " ++ text
  | invalidTolerance tolerance reason =>
    "Invalid gradient tolerance " ++ Layout.plain.text tolerance ++ ": " ++ reason
  | invalidBudget iterations reason => s!"Invalid maximum iterations {iterations}: " ++ reason
  | invalidMemory memory reason => s!"Invalid L-BFGS memory {memory}: " ++ reason
  | invalidConstant name value reason =>
    "Invalid line-search parameter " ++ name ++ " = " ++ Layout.plain.text value ++ ": " ++ reason
  | framework complaint text => complaint.heading ++ ": " ++ text
  | foreign text => "Backend error: " ++ text
  | unknown => "Unknown error"

end QuasiNewton
