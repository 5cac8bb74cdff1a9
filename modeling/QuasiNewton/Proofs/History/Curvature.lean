import QuasiNewton.Proofs.History.Offers
import QuasiNewton.Proofs.Quotient

/-!
# Stored curvature in doubles

The guard of a history bounds the curvature from below and keeps what is undefined out. It does not
keep infinity out, and it says nothing of the change of the gradient alone. So what is stored may
have the inverse zero, and the scale that the newest pair gives may be infinite or undefined
(`History.curvature_out_of_range`). `History.stored_curvature` tells exactly when this happens.
-/

namespace QuasiNewton

open Double (value overflow)

variable {A : Arithmetic Float} {n : Nat}

namespace History

/-- After whatever offers of vectors of one length, the inverse curvature of each stored pair is
finite and not negative, and it is positive exactly if the curvature did not overflow. The scale that
the newest pair gives is finite and positive exactly if neither inner product overflowed and their
exact quotient does not overflow. -/
theorem stored_curvature (hA : A.Standard) (capacity : Nat) {offers : List (Offer Float)}
    (hlength : ∀ o ∈ offers, o.s.length = n ∧ o.y.length = n) :
    ∃ answers h, (empty capacity).offerAll A offers = some (answers, h) ∧
      (∀ p ∈ h.pairs, ∃ c, A.inner p.s p.y = some c ∧ 1e-10 < c ∧
        p.rho.isFinite = true ∧ 0.0 ≤ p.rho ∧ (0.0 < p.rho ↔ c.isFinite = true)) ∧
      ∀ p, h.newest? = some p → ∃ c q γ, A.inner p.s p.y = some c ∧ A.inner p.y p.y = some q ∧
        h.scaling A = some γ ∧ (γ.isFinite = true ∧ 0.0 < γ ↔
          c.isFinite = true ∧ q.isFinite = true ∧ value c < overflow * value q) := by
  have hfit : ∀ o ∈ offers, ∃ c, A.inner o.s o.y = some c := fun o ho =>
    hA.lawful.exists_inner ((hlength o ho).1.trans (hlength o ho).2.symm)
  have hoffers := offerAll_eq hfit (empty capacity)
  refine ⟨_, _, hoffers, fun p hp => ?_, fun p hp => ?_⟩
  · obtain ⟨o, -, ho⟩ := exists_offer_of_mem hoffers hp
    obtain ⟨c, hc, hlt, rfl⟩ := Offer.pair?_eq_some_iff.mp ho
    obtain ⟨hrho, ⟨hfinite, hpos⟩ | ⟨hinfinite, hzero⟩⟩ := Double.one_div_of_lt hlt
    · exact ⟨c, hc, hlt, hrho, Double.le_of_lt hpos, iff_of_true hpos hfinite⟩
    · refine ⟨c, hc, hlt, hrho, ?_, ?_⟩
      · change 0.0 ≤ 1.0 / c
        rw [hzero]
        decide
      · change 0.0 < 1.0 / c ↔ c.isFinite = true
        rw [hzero, hinfinite]
        exact iff_of_false (Double.lt_irrefl 0.0) Bool.false_ne_true
  · obtain ⟨o, ho, hop⟩ := exists_offer_of_mem hoffers (mem_pairs_of_newest? hp)
    obtain ⟨c, hc, hlt, rfl⟩ := Offer.pair?_eq_some_iff.mp hop
    obtain ⟨q, hq⟩ := hA.lawful.exists_inner (rfl : o.y.length = o.y.length)
    refine ⟨c, q, c / q, hc, hq, ?_, Double.isFinite_div_and_pos_iff hlt⟩
    simp only [scaling, hp, hc, hq, Option.bind_eq_bind, Option.bind_some, Option.pure_def]

/-- Two offers of finite vectors. The curvature of the first overflows. -/
def hugeOffers : List (Offer Float) :=
  [⟨[1e200], [1e200]⟩, ⟨[0.5], [4.0]⟩]

theorem stored_curvature_huge :
    (∀ o ∈ hugeOffers, o.s.length = 1 ∧ o.y.length = 1) ∧
    ∃ h γ, (empty 2).offerAll .laned hugeOffers = some ([true, true], h) ∧
      h.pairs = [⟨[1e200], [1e200], 0.0⟩, ⟨[0.5], [4.0], 0.5⟩] ∧
      (∀ p ∈ h.pairs, p.rho.isFinite = true ∧ 0.0 ≤ p.rho) ∧
      h.scaling .laned = some γ ∧ γ.isFinite = true ∧ 0.0 < γ := by
  have hlength : ∀ o ∈ hugeOffers, o.s.length = 1 ∧ o.y.length = 1 := by decide
  obtain ⟨answers, h, hoffers, hpairs, hnewest⟩ := stored_curvature .laned 2 hlength
  have hstored : (empty 2).offerAll .laned hugeOffers = some ([true, true],
      ⟨2, [⟨[1e200], [1e200], 0.0⟩, ⟨[0.5], [4.0], 0.5⟩]⟩) := by
    decide +kernel
  obtain ⟨rfl, rfl⟩ := Prod.mk.inj (Option.some.inj (hoffers.symm.trans hstored))
  obtain ⟨c, q, γ, hc, hq, hγ, hiff⟩ := hnewest _ rfl
  obtain rfl : 2.0 = c := by
    have h : Arithmetic.laned.inner [0.5] [4.0] = some (2.0 : Float) := by decide +kernel
    exact Option.some.inj (h.symm.trans hc)
  obtain rfl : 16.0 = q := by
    have h : Arithmetic.laned.inner [4.0] [4.0] = some (16.0 : Float) := by decide +kernel
    exact Option.some.inj (h.symm.trans hq)
  have hlt : value 2.0 < overflow * value 16.0 := by decide +kernel
  refine ⟨hlength, _, γ, hoffers, rfl, fun p hp => ?_, hγ, hiff.mpr ⟨rfl, rfl, hlt⟩⟩
  obtain ⟨_, -, -, hfinite, hnonneg, -⟩ := hpairs p hp
  exact ⟨hfinite, hnonneg⟩

/-- Two offers of finite vectors that are stored. The first has the inverse curvature zero and gives
an undefined scale, the second gives an infinite one. -/
theorem curvature_out_of_range :
    (∃ h γ, (empty 1).offerAll .laned [⟨[1e200], [1e200]⟩] = some ([true], h) ∧
      h.pairs = [⟨[1e200], [1e200], 0.0⟩] ∧ h.scaling .laned = some γ ∧ γ.isNaN = true) ∧
    ∃ h γ, (empty 1).offerAll .sequential [⟨[1e195], [1e-200]⟩] = some ([true], h) ∧
      h.scaling .sequential = some γ ∧ γ.isFinite = false := by
  constructor
  · have hoffer : (empty 1).offerAll .laned [⟨[1e200], [1e200]⟩] =
        some ([true], ⟨1, [⟨[(1e200 : Float)], [1e200], 0.0⟩]⟩) := by
      decide +kernel
    have hscaling : Option.map Float.isNaN (scaling .laned
        ⟨1, [⟨[(1e200 : Float)], [1e200], 0.0⟩]⟩) = some true := by
      decide +kernel
    obtain ⟨γ, hγ, hnan⟩ := Option.map_eq_some_iff.mp hscaling
    exact ⟨_, γ, hoffer, rfl, hγ, hnan⟩
  · have hanswer : (empty 1).offerAll .sequential [⟨[(1e195 : Float)], [1e-200]⟩] =
        some ([true], ⟨1, [⟨[1e195], [1e-200], 1.0 / (1e195 * 1e-200)⟩]⟩) := by
      decide +kernel
    have hscaling : Option.map Float.isFinite (scaling .sequential
        ⟨1, [⟨[(1e195 : Float)], [1e-200], 1.0 / (1e195 * 1e-200)⟩]⟩) = some false := by
      decide +kernel
    obtain ⟨γ, hγ, hfinite⟩ := Option.map_eq_some_iff.mp hscaling
    exact ⟨_, γ, hanswer, hγ, hfinite⟩

end History

end QuasiNewton
