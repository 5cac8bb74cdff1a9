import Mathlib.Algebra.BigOperators.Group.List.Basic
import Mathlib.Tactic.NormNum
import Mathlib.Tactic.NormNum.OfScientific
import Mathlib.Tactic.Ring
import QuasiNewton.History

/-!
# Exact scalars

The elements of an ordered field are scalars whose operations are those of the field. Read over
them the definitions of this development compute without rounding, and then the order in which a
sum is taken does not matter.
-/

namespace QuasiNewton

/-- The sum that a fold adds to its first value. -/
theorem foldl_add_eq_add_sum {M : Type} [AddMonoid M] (a : M) (terms : List M) :
    terms.foldl (· + ·) a = a + terms.sum := by
  induction terms generalizing a with
  | nil => rw [List.foldl_nil, List.sum_nil, add_zero]
  | cons b terms ih => rw [List.foldl_cons, ih, List.sum_cons, add_assoc]

variable {K : Type} [Field K] [LinearOrder K]

open Classical in
/-- The root of a square that is not negative; zero if there is none. -/
noncomputable def exactRoot (a : K) : K :=
  if h : ∃ r : K, 0 ≤ r ∧ r * r = a then h.choose else 0

noncomputable instance Scalar.exact : Scalar K where
  toOfScientific := NNRatCast.toOfScientific
  sqrt := exactRoot
  abs a := |a|
  isFinite _ := true
  decideLT := inferInstance
  decideLE := inferInstance

/-- There is no exact scalar that is not finite. -/
theorem firstNonFinite_exact (x : List K) : firstNonFinite x = none :=
  firstNonFinite_eq_none_iff.mpr fun _ _ => rfl

variable [IsStrictOrderedRing K]

theorem exactRoot_mul_self {r : K} (hr : 0 ≤ r) : exactRoot (r * r) = r := by
  have h : ∃ q : K, 0 ≤ q ∧ q * q = r * r := ⟨r, hr, rfl⟩
  rw [exactRoot, dif_pos h]
  exact (mul_self_inj h.choose_spec.1 hr).mp h.choose_spec.2

theorem leastCurvature_pos : (0 : K) < History.leastCurvature := by
  rw [History.leastCurvature]
  norm_num

/-! ### Sums -/

theorem orderedSum_eq_sum (terms : List K) : orderedSum terms = terms.sum := by
  have hzero : (-0.0 : K) = 0 := by norm_num
  calc
    orderedSum terms = -0.0 + terms.sum := foldl_add_eq_add_sum (-0.0) terms
    _ = terms.sum := by rw [hzero, zero_add]

/-- What the lanes hold is added to the terms that are still to come. -/
theorem lanedSum_go_eq (a b c d e f g h : K) (terms : List K) :
    lanedSum.go a b c d e f g h terms = a + b + c + d + e + f + g + h + terms.sum := by
  have hzero : (0.0 : K) = 0 := by norm_num
  fun_induction lanedSum.go a b c d e f g h terms with
  | case1 a b c d e f g h p q r s t u v w rest ih =>
    rw [ih]
    simp only [List.sum_cons]
    ring
  | case2 a b c d e f g h rest _ =>
    rw [foldl_add_eq_add_sum, hzero]
    ring

theorem lanedSum_eq_sum (terms : List K) : lanedSum terms = terms.sum := by
  have hzero : (0.0 : K) = 0 := by norm_num
  rw [lanedSum, lanedSum_go_eq, hzero]
  ring

end QuasiNewton
