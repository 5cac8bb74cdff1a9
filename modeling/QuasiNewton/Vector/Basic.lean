import QuasiNewton.Scalar

/-!
# Vectors

A point, a direction or a gradient is the list of its coordinates. This module holds what is the
same for every arithmetic of vectors: scaling, the norm, and the search for a coordinate that is
not finite. Sums and products of two vectors are in `QuasiNewton.Vector.Arithmetic`.
-/

namespace QuasiNewton

variable {α : Type} [Scalar α]

/-- Add the terms in order. The sum starts at negative zero, the neutral element of rounded
addition, so it is negative zero when there is no term. -/
def orderedSum (terms : List α) : α :=
  terms.foldl (· + ·) (-0.0)

/-- Multiply every coordinate by `s`. -/
def scale (x : List α) (s : α) : List α :=
  x.map (· * s)

/-- The Euclidean norm, computed without rescaling: it overflows when a square does. -/
def norm (x : List α) : α :=
  Scalar.sqrt (orderedSum (x.map fun a => a * a))

/-- The first coordinate that is infinite or undefined, with its index. -/
def firstNonFinite (x : List α) : Option (Nat × α) :=
  (x.findIdx? fun a => !Scalar.isFinite a).bind fun i => x[i]?.map (i, ·)

@[simp] theorem length_scale (x : List α) (s : α) : (scale x s).length = x.length := by
  simp [scale]

theorem firstNonFinite_eq_none_iff {x : List α} :
    firstNonFinite x = none ↔ ∀ a ∈ x, Scalar.isFinite a = true := by
  unfold firstNonFinite
  cases h : x.findIdx? fun a => !Scalar.isFinite a with
  | none => simpa using h
  | some i =>
    obtain ⟨hi, hp, -⟩ := List.findIdx?_eq_some_iff_getElem.1 h
    simp only [Option.bind_some, Option.map_eq_none_iff, List.getElem?_eq_none_iff]
    constructor
    · intro hle
      omega
    · intro hall
      have := hall x[i] (List.getElem_mem hi)
      simp [this] at hp

end QuasiNewton
