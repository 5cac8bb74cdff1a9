import QuasiNewton.LineSearch.Bracket
import QuasiNewton.LineSearch.Options
import QuasiNewton.Problem
import QuasiNewton.Vector.Arithmetic

/-!
# Line search

The choice of a step along a direction. A step is accepted when it meets the strong Wolfe
conditions: the objective decreases by a fraction of what the slope promises, and only a fraction
of the slope is left. Otherwise the bracket around the step is refined, for a bounded number of
rounds. A search along a direction that does not descend, or one that ends without an accepted
step, still answers with a step; it stops only at a fault of the caller's functions.
-/

namespace QuasiNewton.LineSearch

variable {α : Type} [Scalar α]

/-- The number of steps that one search tries at most. -/
def rounds : Nat := 50

/-- A search ends when the next step would be below this. -/
def leastStep : α := 1e-10

/-- The step along a direction that does not descend. -/
def nonDescentStep : α := 1e-8

/-- The objective along a direction, as it is known before the search. -/
structure Line (α : Type) where
  origin : List α
  direction : List α
  /-- The value of the objective at the origin. -/
  value : α
  /-- The derivative of the objective at the origin in the direction. -/
  slope : α

/-- The objective decreases by at least the Armijo fraction of what the slope promises. -/
def Line.Decreases (l : Line α) (o : Options α) (step value : α) : Prop :=
  value ≤ l.value + o.armijo * step * l.slope

/-- At most the curvature fraction of the slope is left. -/
def Line.Flattens (l : Line α) (o : Options α) (slope : α) : Prop :=
  Scalar.abs slope ≤ o.curvature * Scalar.abs l.slope

instance Line.decidableDecreases (l : Line α) (o : Options α) (step value : α) :
    Decidable (l.Decreases o step value) :=
  inferInstanceAs (Decidable (_ ≤ _))

instance Line.decidableFlattens (l : Line α) (o : Options α) (slope : α) :
    Decidable (l.Flattens o slope) :=
  inferInstanceAs (Decidable (_ ≤ _))

/-- The value of the objective at a trial point, if it is finite there. -/
def trialValue (o : Oracle α) (trial : List α) : Run α (Option α) := do
  match ← Run.attempt (o.value trial) with
  | .ok value => pure (if Scalar.isFinite value then some value else none)
  | .error (.nonFiniteValue _) => pure none
  | .error f => Run.ofExcept (.error f)

/-- The slope of the objective at a trial point, if it is finite there. -/
def trialSlope (A : Arithmetic α) (o : Oracle α) (trial direction : List α) :
    Run α (Option α) := do
  match ← Run.attempt (o.gradient trial) with
  | .ok gradient =>
    let slope ← Run.ofOption (A.inner gradient direction)
    pure (if Scalar.isFinite slope then some slope else none)
  | .error (.invalidGradient ..) => pure none
  | .error f => Run.ofExcept (.error f)

/-- What the slope says of a step at which the objective decreases enough. -/
def Line.judgeSlope (l : Line α) (opts : Options α) : Option α → Verdict
  | none => .tooLong
  | some slope =>
    if l.Flattens opts slope then .accepted else if slope < 0.0 then .tooShort else .tooLong

/-- Try a step. The gradient is asked for only where the objective decreases enough. -/
def Line.judge (A : Arithmetic α) (opts : Options α) (o : Oracle α) (l : Line α) (step : α) :
    Run α Verdict := do
  let trial ← Run.ofOption (A.addScaled l.origin l.direction step)
  match ← trialValue o trial with
  | none => pure .tooLong
  | some value =>
    if l.Decreases opts step value then
      pure (l.judgeSlope opts (← trialSlope A o trial l.direction))
    else
      pure .tooLong

/-- Try the step of the bracket and go on with the refined bracket, until a step is accepted, the
next step is below the least one, or no round is left. -/
def Line.seek (A : Arithmetic α) (opts : Options α) (o : Oracle α) (l : Line α) :
    Nat → Bracket α → Run α α
  | 0, b => pure b.settle
  | left + 1, b => do
    match ← l.judge A opts o b.step with
    | .accepted => pure b.step
    | verdict =>
      let refined := b.refine verdict
      if refined.step < leastStep then pure refined.settle else l.seek A opts o left refined

/-- One round: a step that is not accepted ends the search or leaves it with fewer rounds. -/
theorem Line.seek_succ (A : Arithmetic α) (opts : Options α) (o : Oracle α) (l : Line α)
    (left : Nat) (b : Bracket α) :
    l.seek A opts o (left + 1) b = l.judge A opts o b.step >>= fun verdict =>
      if verdict = .accepted then pure b.step
      else if (b.refine verdict).step < leastStep then pure (b.refine verdict).settle
      else l.seek A opts o left (b.refine verdict) := by
  rw [seek]
  congr 1
  funext verdict
  cases verdict <;> rfl

/-- Choose a step from `x` along `direction`, where the gradient at `x` is known. -/
def search (A : Arithmetic α) (opts : Options α) (o : Oracle α)
    (x direction gradient : List α) : Run α α := do
  let slope ← Run.ofOption (A.inner gradient direction)
  -- an undefined slope is no evidence against the direction
  if 0.0 ≤ slope then
    pure nonDescentStep
  else
    let value ← o.value x
    let line : Line α := ⟨x, direction, value, slope⟩
    line.seek A opts o rounds (Bracket.initial opts.firstStep)

end QuasiNewton.LineSearch
