import Mathlib.Algebra.BigOperators.Fin
import Mathlib.LinearAlgebra.Matrix.DotProduct
import QuasiNewton.Proofs.Arithmetic
import QuasiNewton.Proofs.Exact.Scalar

/-!
# Exact vectors

A list of `n` exact scalars stands for a vector in `Fin n → K`. Both arithmetics compute with the
lists what linear algebra computes with the vectors, and an inner product is the dot product in
either of them.
-/

namespace QuasiNewton

open Matrix

/-! ### Lists as vectors -/

/-- The vector for which a list of length `n` stands. -/
def coords {K : Type} [Zero K] (n : Nat) (x : List K) (i : Fin n) : K :=
  x.getD i 0

theorem ofFn_coords {K : Type} [Zero K] {n : Nat} {x : List K} (hx : x.length = n) :
    List.ofFn (coords n x) = x := by
  subst hx
  apply List.ext_getElem
  · rw [List.length_ofFn]
  · intro i _ hi
    simp [coords, hi]

@[simp] theorem coords_ofFn {K : Type} [Zero K] {n : Nat} (v : Fin n → K) :
    coords n (List.ofFn v) = v := by
  funext i
  simp [coords]

/-- A list of length `n` stands for a vector. -/
theorem exists_eq_ofFn {K : Type} [Zero K] {n : Nat} {x : List K} (hx : x.length = n) :
    ∃ v : Fin n → K, x = List.ofFn v :=
  ⟨coords n x, (ofFn_coords hx).symm⟩

theorem zipWith_ofFn {β : Type} {n : Nat} (f : β → β → β) (v w : Fin n → β) :
    List.zipWith f (List.ofFn v) (List.ofFn w) = List.ofFn fun i => f (v i) (w i) := by
  apply List.ext_getElem
  · simp
  · intro i _ _
    simp

variable {K : Type} [Field K] [LinearOrder K] {n : Nat}

theorem scale_ofFn (v : Fin n → K) (c : K) : scale (List.ofFn v) c = List.ofFn (c • v) := by
  rw [scale, List.map_ofFn]
  congr 1
  funext i
  exact mul_comm (v i) c

namespace Arithmetic

/-- An arithmetic whose inner product is the sum of the products, whatever their order. -/
structure Exact (A : Arithmetic K) : Prop extends A.Lawful where
  inner_eq : ∀ {x y : List K}, x.length = y.length →
    A.inner x y = some (List.zipWith (· * ·) x y).sum

theorem Standard.exact [IsStrictOrderedRing K] {A : Arithmetic K} (hA : A.Standard) :
    A.Exact where
  toLawful := hA.lawful
  inner_eq := by
    intro x y h
    cases hA with
    | sequential => exact congrArg some (orderedSum_eq_sum _)
    | laned => exact (if_pos h).trans (congrArg some (lanedSum_eq_sum _))

namespace Exact

variable {A : Arithmetic K}

theorem inner_ofFn (hA : A.Exact) (v w : Fin n → K) :
    A.inner (List.ofFn v) (List.ofFn w) = some (v ⬝ᵥ w) := by
  rw [hA.inner_eq (by simp only [List.length_ofFn]), zipWith_ofFn, List.sum_ofFn]
  rfl

theorem add_ofFn (hA : A.Exact) (hn : 0 < n) (v w : Fin n → K) :
    A.add (List.ofFn v) (List.ofFn w) = some (List.ofFn (v + w)) := by
  rw [hA.add_eq (by rwa [List.length_ofFn]) (by simp only [List.length_ofFn]), zipWith_ofFn]
  rfl

theorem sub_ofFn (hA : A.Exact) (hn : 0 < n) (v w : Fin n → K) :
    A.sub (List.ofFn v) (List.ofFn w) = some (List.ofFn (v - w)) := by
  rw [hA.sub_eq (by rwa [List.length_ofFn]) (by simp only [List.length_ofFn]), zipWith_ofFn]
  rfl

theorem inner_eq_dotProduct (hA : A.Exact) {x y : List K} (hx : x.length = n)
    (hy : y.length = n) : A.inner x y = some (coords n x ⬝ᵥ coords n y) := by
  rw [← hA.inner_ofFn, ofFn_coords hx, ofFn_coords hy]

theorem addScaled_ofFn (hA : A.Exact) (hn : 0 < n) (v w : Fin n → K) (s : K) :
    A.addScaled (List.ofFn v) (List.ofFn w) s = some (List.ofFn (v + s • w)) := by
  rw [addScaled, scale_ofFn, hA.add_ofFn hn]

/-- The norm is the root of the inner product of the vector with itself. -/
theorem norm_eq [IsStrictOrderedRing K] (hA : A.Exact) (x : List K) :
    ∃ c, A.inner x x = some c ∧ norm x = Scalar.sqrt c := by
  refine ⟨_, hA.inner_eq rfl, ?_⟩
  rw [norm, orderedSum_eq_sum, List.zipWith_self]

end Exact

end Arithmetic

end QuasiNewton
