/-!
# The journal of a run

What a run leaves behind besides its result: in order, the points at which the objective and the
gradient were asked and the records that were made; and the tally of the evaluations that went
through a checked oracle.
-/

namespace QuasiNewton

/-- How much a record matters. -/
inductive Severity where
  | debug
  | info
  | warning
deriving DecidableEq, Repr

/-- A remark of a solver on its own run. -/
inductive Record (α : Type) where
  /-- An iteration is complete: its number, and the state that it leaves. -/
  | iteration (solver : String) (iteration : Nat) (gradNorm step : α) (stored : Nat)
  /-- The search direction of an iteration does not descend. -/
  | nonDescent (solver : String) (iteration : Nat) (slope : α)
  /-- The pair of an iteration is not stored, for its curvature is too small. -/
  | skipped (iteration : Nat) (curvature : α)
  /-- The run is over. -/
  | terminated (solver status : String) (iterations : Nat) (value gradNorm : α)
deriving Repr

/-- Only a direction that does not descend is worth a warning. -/
def Record.severity {α : Type} : Record α → Severity
  | iteration .. | skipped .. => .debug
  | nonDescent .. => .warning
  | terminated .. => .info

/-- What the record says, without its numbers. -/
def Record.headline {α : Type} : Record α → String
  | iteration .. => "iteration"
  | nonDescent .. => "non-descent direction"
  | skipped .. => "curvature update skipped"
  | terminated .. => "terminated"

/-- A question to the caller's functions, with the point at which it is asked. -/
inductive Query (α : Type) where
  | value (x : List α)
  | gradient (x : List α)
deriving Repr

/-- One line of a journal: a question, or a record. -/
inductive Entry (α : Type) where
  | asked (query : Query α)
  | noted (record : Record α)
deriving Repr

/-- How often the objective and the gradient were evaluated. -/
structure Tally where
  values : Nat := 0
  gradients : Nat := 0
deriving DecidableEq, Repr

/-- The tally under the names of its two counters. -/
def Tally.named (t : Tally) : List (String × Nat) :=
  [("cost_count", t.values), ("gradient_count", t.gradients)]

/-- The entries in the order in which they were made, and the tally. -/
structure Journal (α : Type) where
  entries : Array (Entry α) := #[]
  tally : Tally := {}

namespace Journal

variable {α : Type}

def push (j : Journal α) (e : Entry α) : Journal α :=
  { j with entries := j.entries.push e }

def countValue (j : Journal α) : Journal α :=
  { j with tally := { j.tally with values := j.tally.values + 1 } }

def countGradient (j : Journal α) : Journal α :=
  { j with tally := { j.tally with gradients := j.tally.gradients + 1 } }

def resetTally (j : Journal α) : Journal α :=
  { j with tally := {} }

/-- The questions to the caller's functions, in order. -/
def queries (j : Journal α) : List (Query α) :=
  j.entries.toList.filterMap fun
    | .asked q => some q
    | .noted _ => none

/-- The records, in order. -/
def records (j : Journal α) : List (Record α) :=
  j.entries.toList.filterMap fun
    | .asked _ => none
    | .noted r => some r

@[simp] theorem queries_push_asked (j : Journal α) (q : Query α) :
    (j.push (.asked q)).queries = j.queries ++ [q] := by
  simp [push, queries]

@[simp] theorem queries_push_noted (j : Journal α) (r : Record α) :
    (j.push (.noted r)).queries = j.queries := by
  simp [push, queries]

@[simp] theorem records_push_asked (j : Journal α) (q : Query α) :
    (j.push (.asked q)).records = j.records := by
  simp [push, records]

@[simp] theorem records_push_noted (j : Journal α) (r : Record α) :
    (j.push (.noted r)).records = j.records ++ [r] := by
  simp [push, records]

@[simp] theorem queries_countValue (j : Journal α) : j.countValue.queries = j.queries := rfl

@[simp] theorem queries_countGradient (j : Journal α) : j.countGradient.queries = j.queries := rfl

@[simp] theorem records_countValue (j : Journal α) : j.countValue.records = j.records := rfl

@[simp] theorem records_countGradient (j : Journal α) : j.countGradient.records = j.records := rfl

end Journal

end QuasiNewton
