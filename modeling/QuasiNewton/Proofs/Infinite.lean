import QuasiNewton.Proofs.Arithmetic
import QuasiNewton.Proofs.Halving

/-!
# Numbers that are not finite

In doubles an infinite or undefined operand is not lost in a sum or a product: what comes out is not
finite either, even where infinities cancel or a factor is zero. So both arithmetics show an entry
that is not finite in every inner product (`Arithmetic.Standard.finite_of_inner`).
-/

namespace QuasiNewton

open Float.Model

namespace Double

/-- Packing may overflow, but it makes no number finite. -/
theorem isFinite_of_isFinite_pack {u : UnpackedFloat}
    (h : (Float.ofModel (pack u)).isFinite = true) : u.isFinite = true := by
  rcases u with ⟨_ | _⟩ | _ | _ | _
  · cases h
  · cases h
  · cases h
  · rfl
  · rfl

theorem finite_of_add {x y : Float} (h : (x + y).isFinite = true) :
    x.isFinite = true ∧ y.isFinite = true := by
  have hsum : (x.toModel.unpack.add .binary64 y.toModel.unpack).isFinite = true :=
    isFinite_of_isFinite_pack h
  change x.toModel.unpack.isFinite = true ∧ y.toModel.unpack.isFinite = true
  cases hx : x.toModel.unpack <;> cases hy : y.toModel.unpack <;>
    simp only [hx, hy, UnpackedFloat.add] at hsum
  case infinity.infinity => split at hsum <;> cases hsum
  all_goals simp [UnpackedFloat.isFinite] at hsum ⊢

theorem finite_of_mul {x y : Float} (h : (x * y).isFinite = true) :
    x.isFinite = true ∧ y.isFinite = true := by
  have hproduct : (x.toModel.unpack.mul .binary64 y.toModel.unpack).isFinite = true :=
    isFinite_of_isFinite_pack h
  change x.toModel.unpack.isFinite = true ∧ y.toModel.unpack.isFinite = true
  cases hx : x.toModel.unpack <;> cases hy : y.toModel.unpack <;>
    simp [hx, hy, UnpackedFloat.mul, UnpackedFloat.isFinite] at hproduct ⊢

/-! ### At infinite steps -/

theorem unpack_eq_infinity {x : Float} (hpos : 0.0 < x) (hfinite : x.isFinite = false) :
    x.toModel.unpack = .infinity .positive := by
  obtain ⟨a, b, ha, hb, hlt⟩ := lt_iff.mp hpos
  obtain rfl : toLex (0, toLex (0, 0)) = a := Option.some.inj ha
  change x.toModel.unpack.isFinite = false at hfinite
  rcases h : x.toModel.unpack with ⟨_ | _⟩ | _ | _ | _ <;> rw [h] at hb hfinite
  case infinity.negative =>
    cases hb
    simp [Prod.Lex.toLex_lt_toLex] at hlt
  case notANumber => cases hb
  all_goals cases hfinite

/-- Minus infinity, or undefined: no finite number lies below it. -/
def AtBottom (x : Float) : Prop :=
  x.toModel.unpack = .infinity .negative ∨ x.toModel.unpack = .notANumber

theorem AtBottom.not_le {x y : Float} (hy : AtBottom y) (hx : x.isFinite = true) : ¬ x ≤ y := by
  intro hle
  obtain ⟨a, b, ha, hb, hab⟩ := le_iff.mp hle
  change x.toModel.unpack.isFinite = true at hx
  obtain hy | hy := hy <;> rw [hy] at hb
  · obtain rfl := Option.some.inj hb
    rcases h : x.toModel.unpack with _ | _ | _ | ⟨_ | _, _, _, _⟩ <;> rw [h] at ha hx
    · cases hx
    · cases hx
    all_goals
      cases ha
      simp [Prod.Lex.toLex_le_toLex] at hab
  · cases hb

theorem atBottom_pack {u : UnpackedFloat} (h : u = .infinity .negative ∨ u = .notANumber) :
    AtBottom (Float.ofModel (pack u)) := by
  obtain rfl | rfl := h
  · exact Or.inl rfl
  · exact Or.inr rfl

theorem AtBottom.add {y : Float} (hy : AtBottom y) (x : Float) : AtBottom (x + y) := by
  refine atBottom_pack (u := x.toModel.unpack.add .binary64 y.toModel.unpack) ?_
  obtain hy | hy := hy <;> rw [hy] <;> rcases x.toModel.unpack with ⟨_ | _⟩ | _ | _ | _ <;>
    simp [UnpackedFloat.add]

theorem unpack_mul_infinity {c x : Float} (hpos : 0.0 < c) (hfinite : c.isFinite = true)
    (hx : x.toModel.unpack = .infinity .positive) :
    (c * x).toModel.unpack = .infinity .positive := by
  obtain ⟨m, e, hm, hc⟩ := exists_unpack_of_pos hpos hfinite
  have hproduct : c.toModel.unpack.mul .binary64 x.toModel.unpack = .infinity .positive := by
    rw [hc, hx]
    rfl
  change (pack (c.toModel.unpack.mul .binary64 x.toModel.unpack)).unpack = _
  rw [hproduct]
  rfl

theorem atBottom_infinity_mul {x s : Float} (hx : x.toModel.unpack = .infinity .positive)
    (hs : ¬ 0.0 ≤ s) : AtBottom (x * s) := by
  have hrank : ∀ a, rank s.toModel.unpack = some a → ¬ toLex (0, toLex (0, 0)) ≤ a := by
    intro a ha hle
    exact hs (le_iff.mpr ⟨_, a, rfl, ha, hle⟩)
  refine atBottom_pack (u := x.toModel.unpack.mul .binary64 s.toModel.unpack) ?_
  rw [hx]
  rcases h : s.toModel.unpack with ⟨_ | _⟩ | _ | _ | ⟨_ | _, m, e, hm⟩ <;> rw [h] at hrank
  case infinity.negative => exact Or.inl rfl
  case finite.negative => exact Or.inl rfl
  case notANumber => exact Or.inr rfl
  all_goals
    refine absurd ?_ (hrank _ rfl)
    simp [Prod.Lex.toLex_le_toLex]

/-- A decrease that is promised for an infinite step cannot be met. -/
theorem not_le_of_infinite_step {v value c step slope : Float} (hv : v.isFinite = true)
    (hc : 0.0 < c) (hfinite : c.isFinite = true) (hpos : 0.0 < step)
    (hstep : step.isFinite = false) (hslope : ¬ 0.0 ≤ slope) :
    ¬ v ≤ value + c * step * slope := by
  have hproduct := unpack_mul_infinity hc hfinite (unpack_eq_infinity hpos hstep)
  exact ((atBottom_infinity_mul hproduct hslope).add value).not_le hv

end Double

/-! ### Sums -/

theorem finite_of_foldl_add {a : Float} {terms : List Float}
    (h : (terms.foldl (· + ·) a).isFinite = true) :
    a.isFinite = true ∧ ∀ t ∈ terms, t.isFinite = true := by
  induction terms generalizing a with
  | nil => exact ⟨h, List.forall_mem_nil _⟩
  | cons t terms ih =>
    obtain ⟨hsum, hterms⟩ := ih h
    obtain ⟨ha, ht⟩ := Double.finite_of_add hsum
    exact ⟨ha, List.forall_mem_cons.mpr ⟨ht, hterms⟩⟩

/-- Each lane ends in the sum, and so does each term that is left over. -/
theorem finite_of_lanedSum_go {a b c d e f g h : Float} {terms : List Float}
    (hsum : (lanedSum.go a b c d e f g h terms).isFinite = true) :
    (∀ lane ∈ [a, b, c, d, e, f, g, h], lane.isFinite = true) ∧
      ∀ t ∈ terms, t.isFinite = true := by
  induction a, b, c, d, e, f, g, h, terms using lanedSum.go.induct with
  | case1 a b c d e f g h p q r s t u v w rest ih =>
    rw [lanedSum.go] at hsum
    obtain ⟨hlanes, hrest⟩ := ih hsum
    simp only [List.forall_mem_cons] at hlanes ⊢
    obtain ⟨hap, hbq, hcr, hds, het, hfu, hgv, hhw, hnil⟩ := hlanes
    obtain ⟨ha, hp⟩ := Double.finite_of_add hap
    obtain ⟨hb, hq⟩ := Double.finite_of_add hbq
    obtain ⟨hc, hr⟩ := Double.finite_of_add hcr
    obtain ⟨hd, hs⟩ := Double.finite_of_add hds
    obtain ⟨he, ht⟩ := Double.finite_of_add het
    obtain ⟨hf, hu⟩ := Double.finite_of_add hfu
    obtain ⟨hg, hv⟩ := Double.finite_of_add hgv
    obtain ⟨hh, hw⟩ := Double.finite_of_add hhw
    exact ⟨⟨ha, hb, hc, hd, he, hf, hg, hh, hnil⟩, hp, hq, hr, hs, ht, hu, hv, hw, hrest⟩
  | case2 a b c d e f g h rest hshort =>
    rw [lanedSum.go.eq_2 _ _ _ _ _ _ _ _ _ hshort] at hsum
    obtain ⟨hclosed, hrest⟩ := finite_of_foldl_add hsum
    obtain ⟨hclosed, hdh⟩ := Double.finite_of_add hclosed
    obtain ⟨hclosed, hcg⟩ := Double.finite_of_add hclosed
    obtain ⟨hclosed, hbf⟩ := Double.finite_of_add hclosed
    obtain ⟨-, hae⟩ := Double.finite_of_add hclosed
    obtain ⟨ha, he⟩ := Double.finite_of_add hae
    obtain ⟨hb, hf⟩ := Double.finite_of_add hbf
    obtain ⟨hc, hg⟩ := Double.finite_of_add hcg
    obtain ⟨hd, hh⟩ := Double.finite_of_add hdh
    simp only [List.forall_mem_cons]
    exact ⟨⟨ha, hb, hc, hd, he, hf, hg, hh, List.forall_mem_nil _⟩, hrest⟩

theorem Arithmetic.Standard.finite_of_inner {A : Arithmetic Float} (hA : A.Standard)
    {x y : List Float} {s : Float} (hlength : x.length = y.length) (hs : A.inner x y = some s)
    (hfinite : s.isFinite = true) : ∀ a ∈ x, a.isFinite = true := by
  have hproducts : ∀ t ∈ List.zipWith (· * ·) x y, t.isFinite = true := by
    cases hA with
    | sequential =>
      obtain rfl := Option.some.inj hs
      exact (finite_of_foldl_add hfinite).2
    | laned =>
      obtain rfl := Option.some.inj ((if_pos hlength).symm.trans hs)
      exact (finite_of_lanedSum_go hfinite).2
  intro a ha
  obtain ⟨i, hi, rfl⟩ := List.getElem_of_mem ha
  have hmem : x[i] * y[i] ∈ List.zipWith (· * ·) x y := by
    rw [List.mem_iff_getElem]
    exact ⟨i, by simpa [← hlength] using hi, by simp⟩
  exact (Double.finite_of_mul (hproducts _ hmem)).1

end QuasiNewton
