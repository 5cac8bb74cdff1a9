import QuasiNewton.Fault.Basic
import QuasiNewton.Vector.Basic

/-!
# Admissible points and answers

The checks at the boundary between the solvers and the caller. A point has a coordinate and its
coordinates are finite, the value of an objective is finite, and a gradient has the length of the
point and finite entries. A check fails with the first thing that is wrong.
-/

namespace QuasiNewton

variable {α : Type} [Scalar α]

/-- Accept a point that has a coordinate, when all its coordinates are finite. -/
def checkPoint (x : List α) : Except (Fault α) Unit :=
  if x.isEmpty then
    .error .emptyPoint
  else
    match firstNonFinite x with
    | some (index, value) =>
      .error (.invalidPoint index value "Point coordinates must be finite.")
    | none => .ok ()

/-- Accept a gradient of the given length, when all its entries are finite. -/
def checkGradient (dim : Nat) (g : List α) : Except (Fault α) Unit :=
  if g.length = dim then
    match firstNonFinite g with
    | some (index, value) =>
      .error (.invalidGradient index value "Gradient elements must be finite.")
    | none => .ok ()
  else
    .error (.gradientLength dim g.length)

/-- Accept a value that is finite. -/
def checkValue (value : α) : Except (Fault α) Unit :=
  if Scalar.isFinite value then .ok () else .error (.nonFiniteValue value)

theorem checkPoint_eq_ok_iff {x : List α} :
    checkPoint x = .ok () ↔ x ≠ [] ∧ ∀ a ∈ x, Scalar.isFinite a = true := by
  rw [← firstNonFinite_eq_none_iff]
  cases x with
  | nil => simp [checkPoint]
  | cons a r =>
    simp only [checkPoint, List.isEmpty_cons, Bool.false_eq_true, if_false, ne_eq, reduceCtorEq,
      not_false_eq_true, true_and]
    cases firstNonFinite (a :: r) with
    | none => simp
    | some p => simp

theorem length_pos_of_checkPoint {x : List α} (hx : checkPoint x = .ok ()) : 0 < x.length :=
  List.length_pos_iff.mpr (checkPoint_eq_ok_iff.mp hx).1

theorem checkPoint_eq_error_iff {x : List α} {fault : Fault α} :
    checkPoint x = .error fault ↔ x = [] ∧ fault = .emptyPoint ∨
      ∃ index a, firstNonFinite x = some (index, a) ∧
        fault = .invalidPoint index a "Point coordinates must be finite." := by
  cases x with
  | nil => simp [checkPoint, firstNonFinite, eq_comm]
  | cons b r =>
    rcases h : firstNonFinite (b :: r) with _ | ⟨index, a⟩
    · simp [checkPoint, h]
    · simp [checkPoint, h, eq_comm, and_assoc]

theorem checkGradient_eq_ok_iff {dim : Nat} {g : List α} :
    checkGradient dim g = .ok () ↔ g.length = dim ∧ ∀ a ∈ g, Scalar.isFinite a = true := by
  rw [← firstNonFinite_eq_none_iff]
  unfold checkGradient
  by_cases h : g.length = dim
  · cases firstNonFinite g with
    | none => simp [h]
    | some p => simp [h]
  · simp [h]

theorem checkValue_eq_ok_iff {value : α} :
    checkValue value = .ok () ↔ Scalar.isFinite value = true := by
  unfold checkValue
  cases Scalar.isFinite value <;> simp

end QuasiNewton
