import QuasiNewton.Vector.Arithmetic

/-!
# What the arithmetics have in common

The two arithmetics sum in different orders and treat operands of different lengths differently.
Between vectors of one length that is not zero they agree on what is computed: sums and
differences are taken coordinate by coordinate, and there is an inner product.
-/

namespace QuasiNewton

variable {α : Type} [Scalar α]

namespace Arithmetic

/-- An arithmetic with which the solvers run. -/
inductive Standard : Arithmetic α → Prop where
  | sequential : Standard .sequential
  | laned : Standard .laned

/-- What is expected of an arithmetic on vectors that fit together. -/
structure Lawful (A : Arithmetic α) : Prop where
  add_eq : ∀ {x y : List α}, 0 < x.length → x.length = y.length →
    A.add x y = some (List.zipWith (· + ·) x y)
  sub_eq : ∀ {x y : List α}, 0 < x.length → x.length = y.length →
    A.sub x y = some (List.zipWith (· - ·) x y)
  exists_inner : ∀ {x y : List α}, x.length = y.length → ∃ c, A.inner x y = some c

theorem lawful_sequential : (sequential : Arithmetic α).Lawful where
  add_eq := combineMatching_of_length_eq _
  sub_eq := combineMatching_of_length_eq _
  exists_inner _ := ⟨_, rfl⟩

theorem lawful_laned : (laned : Arithmetic α).Lawful where
  add_eq _ h := combineSpread_of_length_eq _ h
  sub_eq _ h := combineSpread_of_length_eq _ h
  exists_inner h := ⟨_, if_pos h⟩

theorem Standard.lawful {A : Arithmetic α} (hA : A.Standard) : A.Lawful := by
  cases hA with
  | sequential => exact lawful_sequential
  | laned => exact lawful_laned

/-- Where the lengths fit, a step that leads somewhere keeps the length. -/
theorem Standard.length_of_addScaled_eq_some {A : Arithmetic α} (hA : A.Standard)
    {x d z : List α} {s : α} (hd : d.length = x.length) (hz : A.addScaled x d s = some z) :
    z.length = x.length := by
  have hlength : (scale d s).length = x.length := (length_scale d s).trans hd
  have hzip : some (List.zipWith (· + ·) x (scale d s)) = some z := by
    cases hA with
    | sequential => exact (Option.ite_none_right_eq_some.mp hz).2
    | laned => exact (combineSpread_of_length_eq _ hlength.symm).symm.trans hz
  obtain rfl := Option.some.inj hzip
  rw [List.length_zipWith, hlength, Nat.min_self]

/-- What is there with a length has this length whenever it is found. -/
theorem length_of_exists {β : Type} {o : Option (List β)} {z : List β} {n : Nat}
    (ho : ∃ w, o = some w ∧ w.length = n) (h : o = some z) : z.length = n := by
  obtain ⟨w, hw, hlen⟩ := ho
  obtain rfl : w = z := Option.some.inj (hw.symm.trans h)
  exact hlen

namespace Lawful

variable {A : Arithmetic α} {n : Nat} {x y : List α}

theorem exists_add (hA : A.Lawful) (hn : 0 < n) (hx : x.length = n) (hy : y.length = n) :
    ∃ z, A.add x y = some z ∧ z.length = n := by
  refine ⟨_, hA.add_eq (hx ▸ hn) (hx.trans hy.symm), ?_⟩
  rw [List.length_zipWith, hx, hy, Nat.min_self]

theorem exists_sub (hA : A.Lawful) (hn : 0 < n) (hx : x.length = n) (hy : y.length = n) :
    ∃ z, A.sub x y = some z ∧ z.length = n := by
  refine ⟨_, hA.sub_eq (hx ▸ hn) (hx.trans hy.symm), ?_⟩
  rw [List.length_zipWith, hx, hy, Nat.min_self]

theorem exists_addScaled (hA : A.Lawful) (hn : 0 < n) (hx : x.length = n) (hy : y.length = n)
    (s : α) : ∃ z, A.addScaled x y s = some z ∧ z.length = n :=
  hA.exists_add hn hx ((length_scale y s).trans hy)

theorem length_of_sub_eq_some {z : List α} (hA : A.Lawful) (hn : 0 < n) (hx : x.length = n)
    (hy : y.length = n) (h : A.sub x y = some z) : z.length = n :=
  length_of_exists (hA.exists_sub hn hx hy) h

theorem length_of_addScaled_eq_some {z : List α} {s : α} (hA : A.Lawful) (hn : 0 < n)
    (hx : x.length = n) (hy : y.length = n) (h : A.addScaled x y s = some z) : z.length = n :=
  length_of_exists (hA.exists_addScaled hn hx hy s) h

end Lawful

end Arithmetic

end QuasiNewton
