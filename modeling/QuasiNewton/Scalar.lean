/-!
# Scalars

The numbers that the solvers compute with. Every definition of this development is generic over
them: in doubles each operation rounds once, and over a field with a root the same definitions
compute exactly.
-/

namespace QuasiNewton

/-- Arithmetic, decimal constants, decidable comparisons, and what a computed number can tell of
itself. A comparison need not be total: with a number that is not a number, both it and its
reverse may fail. -/
class Scalar (α : Type) extends
    Add α, Sub α, Mul α, Div α, Neg α, OfScientific α, LT α, LE α where
  /-- The square root, rounded as the arithmetic rounds. -/
  sqrt : α → α
  abs : α → α
  /-- Whether the number is neither infinite nor undefined. -/
  isFinite : α → Bool
  decideLT : DecidableLT α
  decideLE : DecidableLE α

-- where a type has operations of its own, these are meant
attribute [instance (100)] Scalar.toAdd Scalar.toSub Scalar.toMul Scalar.toDiv Scalar.toNeg
  Scalar.toOfScientific Scalar.toLT Scalar.toLE

variable {α : Type} [Scalar α]

instance (priority := 100) instDecidableLT : DecidableLT α := Scalar.decideLT

instance (priority := 100) instDecidableLE : DecidableLE α := Scalar.decideLE

/-- Doubles, rounded to nearest at every operation. -/
instance Scalar.double : Scalar Float where
  sqrt := Float.sqrt
  abs := Float.abs
  isFinite := Float.isFinite
  decideLT := inferInstance
  decideLE := inferInstance

end QuasiNewton
