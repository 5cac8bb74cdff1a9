import QuasiNewton.Proofs.Arithmetic
import QuasiNewton.Proofs.Double

/-!
# Zeros

In doubles a finite number minus itself is zero. Sums and products of zeros are zeros again,
whatever their signs are, and so is each inner product of vectors of zeros, in whatever order it is
summed (`Arithmetic.Standard.isZero_inner`).
-/

namespace QuasiNewton

open Float.Model

namespace Double

theorem sub_self {x : Float} (hx : x.isFinite = true) : x - x = 0.0 := by
  have hzero : x.toModel.unpack.sub .binary64 x.toModel.unpack = .zero .positive := by
    change x.toModel.unpack.isFinite = true at hx
    rcases h : x.toModel.unpack with _ | _ | ⟨_ | _⟩ | _ <;> rw [h] at hx
    · cases hx
    · cases hx
    · rfl
    · rfl
    · -- the mantissas cancel, and a mantissa of zero is normalized to a zero
      rw [UnpackedFloat.sub]
      simp only [Int.sub_self]
      rfl
  change Float.ofModel (pack (x.toModel.unpack.sub .binary64 x.toModel.unpack)) = _
  rw [hzero]
  rfl

/-- Zero, with either sign. -/
def IsZero (x : Float) : Prop :=
  x = 0.0 ∨ x = -0.0

@[simp] theorem isZero_zero : IsZero 0.0 :=
  Or.inl rfl

@[simp] theorem isZero_neg_zero : IsZero (-0.0) :=
  Or.inr rfl

theorem IsZero.add {x y : Float} (hx : IsZero x) (hy : IsZero y) : IsZero (x + y) := by
  obtain rfl | rfl := hx <;> obtain rfl | rfl := hy
  · exact Or.inl rfl
  · exact Or.inl rfl
  · exact Or.inl rfl
  · exact Or.inr rfl

theorem IsZero.mul {x y : Float} (hx : IsZero x) (hy : IsZero y) : IsZero (x * y) := by
  obtain rfl | rfl := hx <;> obtain rfl | rfl := hy
  · exact Or.inl rfl
  · exact Or.inr rfl
  · exact Or.inr rfl
  · exact Or.inl rfl

end Double

open Double (IsZero)

theorem isZero_zipWith_sub_self {x : List Float} (hx : ∀ a ∈ x, a.isFinite = true) :
    ∀ d ∈ List.zipWith (· - ·) x x, IsZero d := by
  rw [List.zipWith_self, List.forall_mem_map]
  intro a ha
  exact Or.inl (Double.sub_self (hx a ha))

/-! ### Sums -/

section

variable {terms : List Float} (hterms : ∀ t ∈ terms, IsZero t)
include hterms

theorem isZero_foldl_add {a : Float} (ha : IsZero a) : IsZero (terms.foldl (· + ·) a) := by
  induction terms generalizing a with
  | nil => exact ha
  | cons t terms ih =>
    rw [List.forall_mem_cons] at hterms
    exact ih hterms.2 (ha.add hterms.1)

theorem isZero_lanedSum_go {a b c d e f g h : Float}
    (hlanes : ∀ lane ∈ [a, b, c, d, e, f, g, h], IsZero lane) :
    IsZero (lanedSum.go a b c d e f g h terms) := by
  induction a, b, c, d, e, f, g, h, terms using lanedSum.go.induct with
  | case1 a b c d e f g h p q r s t u v w rest ih =>
    rw [lanedSum.go]
    simp only [List.forall_mem_cons] at hlanes hterms
    obtain ⟨ha, hb, hc, hd, he, hf, hg, hh, hnil⟩ := hlanes
    obtain ⟨hp, hq, hr, hs, ht, hu, hv, hw, hrest⟩ := hterms
    refine ih hrest ?_
    simp only [List.forall_mem_cons]
    exact ⟨ha.add hp, hb.add hq, hc.add hr, hd.add hs, he.add ht, hf.add hu, hg.add hv, hh.add hw,
      hnil⟩
  | case2 a b c d e f g h rest hshort =>
    rw [lanedSum.go.eq_2 _ _ _ _ _ _ _ _ _ hshort]
    simp only [List.forall_mem_cons] at hlanes
    obtain ⟨ha, hb, hc, hd, he, hf, hg, hh, -⟩ := hlanes
    refine isZero_foldl_add hterms ?_
    exact (((Double.isZero_zero.add (ha.add he)).add (hb.add hf)).add (hc.add hg)).add (hd.add hh)

end

theorem Arithmetic.Standard.isZero_inner {A : Arithmetic Float} (hA : A.Standard) {x y : List Float}
    {c : Float} (hx : ∀ a ∈ x, IsZero a) (hy : ∀ b ∈ y, IsZero b) (h : A.inner x y = some c) :
    IsZero c := by
  have hproducts : ∀ t ∈ List.zipWith (· * ·) x y, IsZero t := by
    intro t ht
    rw [← List.map_uncurry_zip_eq_zipWith, List.mem_map] at ht
    obtain ⟨⟨a, b⟩, hab, rfl⟩ := ht
    obtain ⟨ha, hb⟩ := List.of_mem_zip hab
    exact (hx a ha).mul (hy b hb)
  cases hA with
  | sequential =>
    obtain rfl := Option.some.inj h
    exact isZero_foldl_add hproducts Double.isZero_neg_zero
  | laned =>
    obtain ⟨-, h⟩ := Option.ite_none_right_eq_some.mp h
    obtain rfl := Option.some.inj h
    exact isZero_lanedSum_go hproducts (by simp)

end QuasiNewton
