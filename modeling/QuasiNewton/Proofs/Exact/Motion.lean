import QuasiNewton.Proofs.Exact.Vector

/-!
# Motions

A motion turns or mirrors the space and shifts it. Points move along, directions and gradients are
only turned, and numbers stay what they are: sums, differences and multiples of moved vectors are
the moved sums, differences and multiples, and the inner products and norms do not change.
-/

namespace QuasiNewton

open Matrix

/-- The motion `x ↦ Q x + t` with an orthogonal matrix `Q`. -/
structure Motion (K : Type) [Field K] (n : Nat) where
  linear : Matrix (Fin n) (Fin n) K
  shift : Fin n → K
  orthogonal : linearᵀ * linear = 1

namespace Motion

variable {K : Type} [Field K] {n : Nat} (T : Motion K n)

/-- Where a point goes. -/
def point (x : List K) : List K :=
  List.ofFn (T.linear *ᵥ coords n x + T.shift)

/-- Where the point comes from that goes to `z`. -/
def back (z : List K) : List K :=
  List.ofFn (T.linearᵀ *ᵥ (coords n z - T.shift))

/-- How a difference of points is turned. A list that is no vector of this space stays. -/
def vector (v : List K) : List K :=
  if v.length = n then List.ofFn (T.linear *ᵥ coords n v) else v

@[simp] theorem point_ofFn (v : Fin n → K) :
    T.point (List.ofFn v) = List.ofFn (T.linear *ᵥ v + T.shift) := by
  simp [point]

@[simp] theorem vector_ofFn (v : Fin n → K) :
    T.vector (List.ofFn v) = List.ofFn (T.linear *ᵥ v) := by
  simp [vector]

@[simp] theorem length_point (x : List K) : (T.point x).length = n := by
  simp [point]

@[simp] theorem length_vector (v : List K) : (T.vector v).length = v.length := by
  by_cases hv : v.length = n
  · simp [vector, hv]
  · simp [vector, hv]

theorem transpose_mulVec_linear (v : Fin n → K) : T.linearᵀ *ᵥ (T.linear *ᵥ v) = v := by
  rw [mulVec_mulVec, T.orthogonal, one_mulVec]

/-- What was turned has the same products. -/
theorem dotProduct_linear (v w : Fin n → K) :
    (T.linear *ᵥ v) ⬝ᵥ (T.linear *ᵥ w) = v ⬝ᵥ w := by
  rw [dotProduct_mulVec, ← mulVec_transpose, T.transpose_mulVec_linear]

theorem back_point {x : List K} (hx : x.length = n) : T.back (T.point x) = x := by
  obtain ⟨v, rfl⟩ := exists_eq_ofFn hx
  simp [back, T.transpose_mulVec_linear]

/-! ### Operations on moved vectors -/

variable [LinearOrder K]

@[simp] theorem scale_vector (v : List K) (c : K) :
    scale (T.vector v) c = T.vector (scale v c) := by
  by_cases hv : v.length = n
  · obtain ⟨w, rfl⟩ := exists_eq_ofFn hv
    simp [scale_ofFn, mulVec_smul]
  · simp [vector, hv]

section

variable {A : Arithmetic K} (hA : A.Exact)
include hA

theorem inner_vector {v w : List K} (hv : v.length = n) (hw : w.length = n) :
    A.inner (T.vector v) (T.vector w) = A.inner v w := by
  obtain ⟨v, rfl⟩ := exists_eq_ofFn hv
  obtain ⟨w, rfl⟩ := exists_eq_ofFn hw
  simp [hA.inner_ofFn, T.dotProduct_linear]

variable (hn : 0 < n)
include hn

theorem add_vector {v w : List K} (hv : v.length = n) (hw : w.length = n) :
    A.add (T.vector v) (T.vector w) = (A.add v w).map T.vector := by
  obtain ⟨v, rfl⟩ := exists_eq_ofFn hv
  obtain ⟨w, rfl⟩ := exists_eq_ofFn hw
  simp [hA.add_ofFn hn, mulVec_add]

theorem sub_vector {v w : List K} (hv : v.length = n) (hw : w.length = n) :
    A.sub (T.vector v) (T.vector w) = (A.sub v w).map T.vector := by
  obtain ⟨v, rfl⟩ := exists_eq_ofFn hv
  obtain ⟨w, rfl⟩ := exists_eq_ofFn hw
  simp [hA.sub_ofFn hn, mulVec_sub]

/-- The difference of two points is turned, and not shifted. -/
theorem sub_point {x y : List K} (hx : x.length = n) (hy : y.length = n) :
    A.sub (T.point x) (T.point y) = (A.sub x y).map T.vector := by
  obtain ⟨v, rfl⟩ := exists_eq_ofFn hx
  obtain ⟨w, rfl⟩ := exists_eq_ofFn hy
  simp [hA.sub_ofFn hn, mulVec_sub]

theorem addScaled_point {x d : List K} (hx : x.length = n) (hd : d.length = n) (s : K) :
    A.addScaled (T.point x) (T.vector d) s = (A.addScaled x d s).map T.point := by
  obtain ⟨v, rfl⟩ := exists_eq_ofFn hx
  obtain ⟨w, rfl⟩ := exists_eq_ofFn hd
  simp [Arithmetic.addScaled, scale_ofFn, hA.add_ofFn hn, mulVec_add, mulVec_smul, add_right_comm]

end

theorem norm_vector [IsStrictOrderedRing K] (v : List K) : norm (T.vector v) = norm v := by
  by_cases hv : v.length = n
  · have hexact : (Arithmetic.sequential : Arithmetic K).Exact :=
      Arithmetic.Standard.sequential.exact
    obtain ⟨c, hc, hnorm⟩ := hexact.norm_eq v
    obtain ⟨c', hc', hnorm'⟩ := hexact.norm_eq (T.vector v)
    rw [T.inner_vector hexact hv hv, hc] at hc'
    rw [hnorm, hnorm', Option.some.inj hc']
  · simp [vector, hv]

end Motion

end QuasiNewton
