import QuasiNewton.Lbfgs.State

/-!
# Iterating in place

A solver holds one state and changes it piece by piece while it iterates. A computation in place
may stop at any point, and what it has changed until then stays changed. `State.step` is the
iteration of L-BFGS in this form: it asks all its questions first, and then writes the history,
the point, the gradient and the count, one after the other.
-/

namespace QuasiNewton

/-- A computation that changes a state in place and may stop. -/
abbrev InPlace (σ α : Type) : Type → Type :=
  ExceptT (Stop α) (StateM (σ × Journal α))

namespace InPlace

variable {σ α β γ : Type}

/-- The answer or the reason of the stop, and in both cases the state and the journal. -/
def perform (r : InPlace σ α β) (s : σ) (j : Journal α) : Except (Stop α) β × σ × Journal α :=
  Id.run (StateT.run (ExceptT.run r) (s, j))

/-- Perform a run that knows nothing of the state. -/
def ofRun (r : Run α β) : InPlace σ α β :=
  ExceptT.mk fun (s, j) => ((r.perform j).1, s, (r.perform j).2)

def current : InPlace σ α σ := do
  return (← get).1

def change (f : σ → σ) : InPlace σ α Unit :=
  modify fun (s, j) => (f s, j)

@[simp] theorem perform_pure (b : β) (s : σ) (j : Journal α) :
    perform (pure b : InPlace σ α β) s j = (.ok b, s, j) := rfl

@[simp] theorem perform_ofRun (r : Run α β) (s : σ) (j : Journal α) :
    (ofRun r).perform s j = ((r.perform j).1, s, (r.perform j).2) := rfl

@[simp] theorem perform_current (s : σ) (j : Journal α) :
    (current : InPlace σ α σ).perform s j = (.ok s, s, j) := rfl

@[simp] theorem perform_change (f : σ → σ) (s : σ) (j : Journal α) :
    (change f : InPlace σ α Unit).perform s j = (.ok (), f s, j) := rfl

theorem perform_bind (r : InPlace σ α β) (k : β → InPlace σ α γ) (s : σ) (j : Journal α) :
    (r >>= k).perform s j =
      match r.perform s j with
      | (.ok b, s', j') => (k b).perform s' j'
      | (.error stop, s', j') => (.error stop, s', j') := by
  simp only [perform, ExceptT.run_bind, StateT.run_bind, Id.run_bind]
  rcases Id.run (StateT.run (ExceptT.run r) (s, j)) with ⟨_ | _, _, _⟩ <;> rfl

end InPlace

namespace Lbfgs

variable {α : Type} [Scalar α]

/-- Offer the pair of a move to the history of the state; the answer tells whether it is stored. -/
def State.push (A : Arithmetic α) (move change : List α) : InPlace (State α) α Bool := do
  let s ← InPlace.current
  let (stored, history) ← InPlace.ofRun (Run.ofOption (s.history.offer A move change))
  InPlace.change fun s => { s with history }
  return stored

theorem State.perform_push (A : Arithmetic α) (move change : List α) (s : State α)
    (j : Journal α) :
    (State.push A move change).perform s j =
      match s.history.offer A move change with
      | some (stored, history) => (.ok stored, { s with history }, j)
      | none => (.error .misfit, s, j) := by
  rw [push, InPlace.perform_bind, InPlace.perform_current]
  dsimp only
  rw [InPlace.perform_bind]
  cases s.history.offer A move change with
  | none => rfl
  | some answer => rfl

/-- Perform one iteration in place; the answer is the step. -/
def State.step (A : Arithmetic α) (opts : LineSearch.Options α) (o : Oracle α) :
    InPlace (State α) α α := do
  let s ← InPlace.current
  let direction ← InPlace.ofRun (Run.ofOption (s.direction A))
  let slope ← InPlace.ofRun (Run.ofOption (A.inner s.gradient direction))
  if 0.0 ≤ slope then
    InPlace.ofRun (Run.note (.nonDescent name s.iteration slope))
  let step ← InPlace.ofRun (LineSearch.search A opts o s.point direction s.gradient)
  let point ← InPlace.ofRun (Run.ofOption (A.addScaled s.point direction step))
  let gradient ← InPlace.ofRun (o.gradient point)
  let move ← InPlace.ofRun (Run.ofOption (A.sub point s.point))
  let change ← InPlace.ofRun (Run.ofOption (A.sub gradient s.gradient))
  let curvature ← InPlace.ofRun (Run.ofOption (A.inner move change))
  let stored ← State.push A move change
  -- from here on nothing can stop the iteration
  if !stored then
    InPlace.ofRun (Run.note (.skipped s.iteration curvature))
  InPlace.change fun s => { s with point }
  InPlace.change fun s => { s with gradient }
  InPlace.change fun s => { s with iteration := s.iteration + 1 }
  return step

end Lbfgs

end QuasiNewton
