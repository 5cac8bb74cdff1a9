import QuasiNewton.Vector.Basic

/-!
# Two arithmetics of vectors

Vectors of one length are added, subtracted and multiplied coordinate by coordinate, whatever
the arithmetic. The two arithmetics below differ in the order in which an inner product is summed
and in what they make of operands whose lengths differ: `sequential` sums in order and cuts the
longer factor short, `laned` sums in eight lanes and spreads a single coordinate over the other
operand. Where an operation has no answer, it is `none`.
-/

namespace QuasiNewton

variable {α : Type}

/-- How two vectors are combined; `none` where the lengths do not fit. -/
structure Arithmetic (α : Type) where
  add : List α → List α → Option (List α)
  sub : List α → List α → Option (List α)
  inner : List α → List α → Option α

/-- The point reached from `x` by `s` times the direction `d`. -/
def Arithmetic.addScaled [Scalar α] (A : Arithmetic α) (x d : List α) (s : α) : Option (List α) :=
  A.add x (scale d s)

/-! ### In order -/

/-- Combine coordinate by coordinate two vectors of one length that is not zero. -/
def combineMatching (f : α → α → α) (x y : List α) : Option (List α) :=
  if 0 < x.length ∧ x.length = y.length then some (List.zipWith f x y) else none

theorem combineMatching_of_length_eq (f : α → α → α) {x y : List α} (hx : 0 < x.length)
    (h : x.length = y.length) : combineMatching f x y = some (List.zipWith f x y) :=
  if_pos ⟨hx, h⟩

/-- Sums and differences ask for equal lengths that are not zero; an inner product adds its terms
in order and ends with the shorter factor. -/
def Arithmetic.sequential [Scalar α] : Arithmetic α where
  add := combineMatching (· + ·)
  sub := combineMatching (· - ·)
  inner x y := some (orderedSum (List.zipWith (· * ·) x y))

/-! ### In eight lanes -/

/-- Combine coordinate by coordinate; a vector of one coordinate is spread over the other. -/
def combineSpread (f : α → α → α) (x y : List α) : Option (List α) :=
  if x.length = y.length then
    some (List.zipWith f x y)
  else
    match x, y with
    | [a], ys => some (ys.map (f a))
    | xs, [b] => some (xs.map (f · b))
    | _, _ => none

theorem combineSpread_of_length_eq (f : α → α → α) {x y : List α} (h : x.length = y.length) :
    combineSpread f x y = some (List.zipWith f x y) :=
  if_pos h

/-- Add the terms in eight lanes that start at zero: each full block of eight gives every lane one
term. The lanes are then added in pairs, and the terms that fill no block follow in order. -/
def lanedSum [Scalar α] (terms : List α) : α :=
  go 0.0 0.0 0.0 0.0 0.0 0.0 0.0 0.0 terms
where
  /-- Feed the lanes block by block, then close them. -/
  go (a b c d e f g h : α) : List α → α
    | p :: q :: r :: s :: t :: u :: v :: w :: rest =>
      go (a + p) (b + q) (c + r) (d + s) (e + t) (f + u) (g + v) (h + w) rest
    -- lanes that are four apart make a pair
    | rest => rest.foldl (· + ·) (0.0 + (a + e) + (b + f) + (c + g) + (d + h))

/-- Sums and differences spread a single coordinate; an inner product asks for equal lengths and
is summed in eight lanes. -/
def Arithmetic.laned [Scalar α] : Arithmetic α where
  add := combineSpread (· + ·)
  sub := combineSpread (· - ·)
  inner x y :=
    if x.length = y.length then some (lanedSum (List.zipWith (· * ·) x y)) else none

end QuasiNewton
