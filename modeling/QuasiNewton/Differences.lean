import QuasiNewton.Problem

/-!
# Gradients by differences

The gradient of an objective that has none of its own, from values near the point. Central
differences are tried first: for every coordinate a value on either side. If one of these values
fails, or a quotient is not finite, the point lies at the border of where the objective is well
behaved, and forward differences, which only look to one side, take their place. What then fails
is final.
-/

namespace QuasiNewton

variable {α : Type} [Scalar α]

namespace Differences

/-- The distance to the neighbouring points, the square root of the spacing of doubles at one. -/
def width : α :=
  1.0 / 67108864.0

/-- Move coordinate `i` by `h`. -/
def displace (x : List α) (i : Nat) (h : α) : List α :=
  x.modify i (· + h)

/-- The gradient by central differences. Every coordinate is asked for on both sides, and only
then the first failure counts. -/
def central (value : List α → Run α α) (x : List α) : Run α (Except (Fault α) (List α)) := do
  let entries ← (List.range x.length).mapM fun i => do
    let above ← Run.attempt (value (displace x i width))
    let below ← Run.attempt (value (displace x i (-width)))
    pure do return ((← above) - (← below)) / (2.0 * width)
  pure (entries.mapM id)

/-- The gradient by forward differences. The point itself is asked for first, then every
coordinate, and only then the first failure counts. -/
def forward (value : List α → Run α α) (x : List α) : Run α (Except (Fault α) (List α)) := do
  let here ← Run.attempt (value x)
  let above ← (List.range x.length).mapM fun i => Run.attempt (value (displace x i width))
  pure do
    let v ← here
    above.mapM fun a => do return ((← a) - v) / width

/-- The gradient by central differences if they all succeed and are finite, else by forward
differences. -/
def gradient (value : List α → Run α α) (x : List α) : Run α (List α) := do
  let admissible (g : Except (Fault α) (List α)) : Except (Fault α) (List α) := do
    let g ← g
    checkGradient x.length g
    return g
  match admissible (← central value x) with
  | .ok g => pure g
  | .error _ => Run.ofExcept (admissible (← forward value x))

end Differences

/-- Answer questions for the gradient by differences of the objective. -/
def Oracle.differenced (o : Oracle α) : Oracle α where
  value := o.value
  gradient := Differences.gradient o.value

end QuasiNewton
