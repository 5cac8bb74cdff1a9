import QuasiNewton.Descent
import QuasiNewton.History
import QuasiNewton.LineSearch.Search

/-!
# States of L-BFGS

An iterate with the pairs remembered at it. One step searches along the direction that the pairs
suggest, moves, and offers the pair of the move to the history. The next state is complete before
it takes the place of the old one, so a step that stops changes nothing.
-/

namespace QuasiNewton.Lbfgs

variable {α : Type} [Scalar α]

/-- The name under which the records are made. -/
def name : String := "L-BFGS"

/-- An iterate with its pairs. -/
structure State (α : Type) extends Iterate α where
  history : History α

namespace State

/-- No iteration yet, and no pair. -/
def initial (memory : Nat) (x g : List α) : State α where
  point := x
  gradient := g
  iteration := 0
  history := .empty memory

/-- The state in which a run begins, if the room for its pairs can be reserved. -/
def create (memory : Nat) (x g : List α) : Option (State α) :=
  (History.create memory).map fun history => { point := x, gradient := g, iteration := 0, history }

omit [Scalar α] in
theorem create_eq_some_iff {memory : Nat} {x g : List α} {s : State α} :
    create memory x g = some s ↔ memory ≤ History.mostPairs ∧ s = .initial memory x g := by
  rw [create, Option.map_eq_some_iff]
  constructor
  · rintro ⟨history, hhistory, rfl⟩
    obtain ⟨hmemory, rfl⟩ := History.create_eq_some_iff.mp hhistory
    exact ⟨hmemory, rfl⟩
  · rintro ⟨hmemory, rfl⟩
    exact ⟨_, History.create_eq_some_iff.mpr ⟨hmemory, rfl⟩, rfl⟩

omit [Scalar α] in
theorem iteration_of_create {memory : Nat} {x g : List α} {s : State α}
    (h : create memory x g = some s) : s.iteration = 0 := by
  obtain ⟨-, rfl⟩ := create_eq_some_iff.mp h
  rfl

omit [Scalar α] in
theorem create_eq_none_iff {memory : Nat} {x g : List α} :
    create memory x g = none ↔ History.mostPairs < memory := by
  rw [create, Option.map_eq_none_iff, History.create_eq_none_iff]

def gradNorm (s : State α) : α :=
  norm s.gradient

/-- The direction in which to search: against the gradient, bent by the remembered curvature. -/
def direction (A : Arithmetic α) (s : State α) : Option (List α) := do
  return scale (← s.history.twoLoop A s.gradient) (-1.0)

/-- Perform one iteration; the answer is the next state and the step that led to it. -/
def advance (A : Arithmetic α) (opts : LineSearch.Options α) (o : Oracle α) (s : State α) :
    Run α (State α × α) := do
  let direction ← Run.ofOption (s.direction A)
  let slope ← Run.ofOption (A.inner s.gradient direction)
  if 0.0 ≤ slope then
    Run.note (.nonDescent name s.iteration slope)
  let step ← LineSearch.search A opts o s.point direction s.gradient
  let point ← Run.ofOption (A.addScaled s.point direction step)
  let gradient ← o.gradient point
  -- what the move says about the curvature
  let move ← Run.ofOption (A.sub point s.point)
  let change ← Run.ofOption (A.sub gradient s.gradient)
  let curvature ← Run.ofOption (A.inner move change)
  let (stored, history) ← Run.ofOption (s.history.offer A move change)
  if !stored then
    Run.note (.skipped s.iteration curvature)
  return ({ point, gradient, iteration := s.iteration + 1, history }, step)

/-- Perform one iteration if it succeeds, and stay where the state is if it stops. -/
def attempt (A : Arithmetic α) (opts : LineSearch.Options α) (o : Oracle α) (s : State α)
    (j : Journal α) : Except (Stop α) α × State α × Journal α :=
  match (s.advance A opts o).perform j with
  | (.ok (s', step), j') => (.ok step, s', j')
  | (.error stop, j') => (.error stop, s, j')

end State

end QuasiNewton.Lbfgs
