import QuasiNewton.Scalar

/-!
# Brackets

The state of a line search between two trials: the longest step known to be too short, the
shortest step known to be too long, and the step to be tried next. While no step is too long the
next one is doubled; after that the bracket is halved.
-/

namespace QuasiNewton.LineSearch

variable {α : Type} [Scalar α]

/-- What a trial step turns out to be. -/
inductive Verdict where
  /-- The step meets both conditions. -/
  | accepted
  /-- The objective still descends steeply at the step. -/
  | tooShort
  /-- The objective does not decrease enough, no longer descends, or is not defined. -/
  | tooLong
deriving DecidableEq, Repr

/-- The steps between which the search goes on. -/
structure Bracket (α : Type) where
  /-- The last step that was too short, zero at first. -/
  lower : α
  /-- The last step that was too long, if there was one. -/
  upper : Option α
  /-- The step to be tried next. -/
  step : α

namespace Bracket

/-- Nothing is known of any step. -/
def initial (firstStep : α) : Bracket α :=
  ⟨0.0, none, firstStep⟩

/-- The step was too short: go half way to the upper end, or double the step. -/
def lengthen (b : Bracket α) : Bracket α where
  lower := b.step
  upper := b.upper
  step :=
    match b.upper with
    | some upper => 0.5 * (b.step + upper)
    | none => 2.0 * b.step

/-- The step was too long: go half way to the lower end. -/
def shorten (b : Bracket α) : Bracket α where
  lower := b.lower
  upper := some b.step
  step := 0.5 * (b.lower + b.step)

/-- Take the verdict on the step into account. -/
def refine (b : Bracket α) : Verdict → Bracket α
  | .accepted => b
  | .tooShort => b.lengthen
  | .tooLong => b.shorten

/-- The step to settle for: the last one that was too short, else the one not yet tried. -/
def settle (b : Bracket α) : α :=
  if 0.0 < b.lower then b.lower else b.step

end Bracket

end QuasiNewton.LineSearch
