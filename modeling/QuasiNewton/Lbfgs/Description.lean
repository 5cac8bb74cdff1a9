import QuasiNewton.Decimal.Layout
import QuasiNewton.Lbfgs.Solver

/-!
# Descriptions

The text that shows the options of a solver, in the form of nested records.
-/

namespace QuasiNewton

/-- A record: its name, and its fields with their texts. -/
def recordText (name : String) (fields : List (String × String)) : String :=
  name ++ " \x7b " ++ ", ".intercalate (fields.map fun (label, text) => label ++ ": " ++ text)
    ++ " \x7d"

def LineSearch.Options.describe (o : LineSearch.Options Float) : String :=
  recordText "LineSearchOptions"
    [("c1", Layout.literal.text o.armijo),
      ("c2", Layout.literal.text o.curvature),
      ("initial_step", Layout.literal.text o.firstStep)]

namespace Lbfgs

def Options.describe (o : Options Float) : String :=
  recordText "LbfgsOptions"
    [("mem", toString o.memory),
      ("tol_grad", Layout.literal.text o.tolerance),
      ("max_iter", toString o.budget),
      ("line_search", o.lineSearch.describe),
      ("verbose", toString o.verbose)]

/-- The text of a solver: its options, its line search, and a sign that this is not all. -/
def describe (solver : Lbfgs Float) : String :=
  let search := recordText "StrongWolfeBacktracking" [("opts", solver.options.lineSearch.describe)]
  "Lbfgs \x7b opts: " ++ solver.options.describe ++ ", line_search: " ++ search ++ ", .. \x7d"

end Lbfgs

end QuasiNewton
