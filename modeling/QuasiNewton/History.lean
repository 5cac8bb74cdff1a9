import QuasiNewton.Vector.Arithmetic

/-!
# Curvature pairs

The bounded memory of a quasi-Newton method. A pair holds a step and the change of the gradient
along it; it is stored only when their inner product, the curvature along the step, is large
enough. The stored pairs stand for an estimate of the inverse of the second derivative, which
`History.twoLoop` applies to a vector without forming a matrix.

The room for all pairs that a history can hold is reserved when it is made, so not every history can
be made (`History.create`).
-/

namespace QuasiNewton

variable {α : Type}

/-- A step, the change of the gradient along it, and the inverse of their inner product. -/
structure Pair (α : Type) where
  s : List α
  y : List α
  rho : α
deriving BEq, DecidableEq, Repr

/-- At most `capacity` pairs, from the oldest to the newest. -/
structure History (α : Type) where
  capacity : Nat
  pairs : List (Pair α)
deriving BEq, DecidableEq, Repr

namespace History

/-- No pair, and room for `capacity` pairs, at least for one. -/
def empty (capacity : Nat) : History α :=
  ⟨max capacity 1, []⟩

/-- The most pairs for which room can be reserved. A pair takes up 104 bytes, the headers of its two
vectors and a scalar, and no more than `2 ^ 63 - 1` bytes can be reserved at once. What is not more
than that is taken to be available. With smaller headers there would be room for more pairs on
paper, but not in any memory. -/
def mostPairs : Nat :=
  (UInt64.size / 2 - 1) / 104

/-- Make an empty history, if the room for its pairs can be reserved. -/
def create (capacity : Nat) : Option (History α) :=
  if max capacity 1 ≤ mostPairs then some (.empty capacity) else none

theorem create_eq_some_iff {capacity : Nat} {h : History α} :
    create capacity = some h ↔ capacity ≤ mostPairs ∧ h = .empty capacity := by
  have hone : 1 ≤ mostPairs := by decide
  rw [create, Option.ite_none_right_eq_some, Nat.max_le, Option.some.injEq, eq_comm (a := h)]
  exact and_congr_left' (and_iff_left hone)

theorem create_eq_none_iff {capacity : Nat} :
    (create capacity : Option (History α)) = none ↔ mostPairs < capacity := by
  have hone : 1 ≤ mostPairs := by decide
  rw [create, ite_eq_right_iff]
  simp only [reduceCtorEq, imp_false, Nat.max_le, hone, and_true, Nat.not_le]

def size (h : History α) : Nat :=
  h.pairs.length

/-- The pair that was stored last. -/
def newest? (h : History α) : Option (Pair α) :=
  h.pairs.getLast?

/-- Store a pair; the oldest pairs give way until there is room. -/
def store (h : History α) (p : Pair α) : History α :=
  let pairs := h.pairs ++ [p]
  { h with pairs := pairs.drop (pairs.length - h.capacity) }

variable [Scalar α]

/-- A pair is stored only when its curvature exceeds this. -/
def leastCurvature : α := 1e-10

/-- Offer a step and the change of the gradient along it. The answer tells whether the pair was
stored; if not, the history is unchanged. -/
def offer (A : Arithmetic α) (h : History α) (s y : List α) : Option (Bool × History α) := do
  let curvature ← A.inner s y
  if leastCurvature < curvature then
    return (true, h.store ⟨s, y, 1.0 / curvature⟩)
  else
    return (false, h)

/-- The scale of the inverse second derivative along the newest step, one if there is none. -/
def scaling (A : Arithmetic α) (h : History α) : Option α :=
  match h.newest? with
  | some p => do return (← A.inner p.s p.y) / (← A.inner p.y p.y)
  | none => return 1.0

/-- Apply the estimate that belongs to the given pairs, newest first: remove the newest step from
`q`, apply the estimate of the older pairs, and put the step back with the curvature it has. -/
def sweep (A : Arithmetic α) (scaling : α) : List (Pair α) → List α → Option (List α)
  | [], q => some (scale q scaling)
  | p :: older, q => do
    let a := p.rho * (← A.inner p.s q)
    let r ← sweep A scaling older (← A.sub q (scale p.y a))
    let b := p.rho * (← A.inner p.y r)
    A.add r (scale p.s (a - b))

/-- Apply the estimate of the inverse second derivative to `g`. -/
def twoLoop (A : Arithmetic α) (h : History α) (g : List α) : Option (List α) := do
  sweep A (← h.scaling A) h.pairs.reverse g

end History

end QuasiNewton
