import QuasiNewton.Proofs.Exact.InverseHessian
import QuasiNewton.Proofs.History.Offers

/-!
# The secant equation

Along the newest step the estimate of the inverse second derivative agrees with what was observed
there: it takes the newest change of the gradient to the newest step (`History.twoLoop_newest`). The
older pairs and the initial scale have no part in this. The newest pair takes part in the last
update, and this update answers to its own change of the gradient without asking the matrix before
it.
-/

namespace QuasiNewton

open Matrix

variable {K : Type} [Field K] {n : Nat}

/-- Whatever matrix is updated, the result takes the `y` of the pair to its `s`. -/
theorem Pair.update_mulVec_y (H : Matrix (Fin n) (Fin n) K) (p : Pair K)
    (hrho : p.rho * (coords n p.s ⬝ᵥ coords n p.y) = 1) :
    p.update n H *ᵥ coords n p.y = coords n p.s := by
  -- the step down leaves nothing of `y`
  have hr : 0 = H *ᵥ (coords n p.y - (1 : K) • coords n p.y) := by
    rw [one_smul, sub_self, mulVec_zero]
  rw [p.update_mulVec H hrho.symm hr, dotProduct_zero, mul_zero, sub_zero, one_smul, zero_add]

/-- The last update of the matrix of a history is that of the newest pair. -/
theorem History.exists_inverseHessian_eq_update {h : History K} {p : Pair K}
    (hp : h.newest? = some p) : ∃ H, h.inverseHessian n = p.update n H := by
  obtain ⟨older, holder⟩ := List.getLast?_eq_some_iff.mp hp
  refine ⟨older.foldl (fun H q => q.update n H) (h.initialScale n • 1), ?_⟩
  rw [inverseHessian, holder, List.foldl_append, List.foldl_cons, List.foldl_nil]

variable [LinearOrder K] [IsStrictOrderedRing K] {A : Arithmetic K}

theorem Pair.Accepted.rho_mul_dotProduct (hA : A.Exact) {p : Pair K} (hp : p.Accepted A n) :
    p.rho * (coords n p.s ⬝ᵥ coords n p.y) = 1 := by
  rw [(hp.curvature_eq_dotProduct hA).2, one_div_mul_cancel (hp.dotProduct_pos hA).ne']

namespace History

/-- In exact arithmetic, after whatever offers, the two-loop recursion takes the newest change of
the gradient to the newest step. By linearity, what is added to a vector along the former is added
to the result along the latter. -/
theorem twoLoop_newest (hA : A.Standard) {capacity : Nat} {offers : List (Offer K)}
    {answers : List Bool} {h : History K}
    (hoffers : (empty capacity).offerAll A offers = some (answers, h))
    (hlength : ∀ p ∈ h.pairs, p.s.length = n ∧ p.y.length = n) {p : Pair K}
    (hp : h.newest? = some p) :
    h.twoLoop A p.y = some p.s ∧
    ∀ (g : List K) (t : K), g.length = n → ∃ g' r r',
      A.addScaled g p.y t = some g' ∧ h.twoLoop A g = some r ∧
      A.addScaled r p.s t = some r' ∧ h.twoLoop A g' = some r' := by
  have hexact := hA.exact
  have haccepted : ∀ q ∈ h.pairs, q.Accepted A n := fun q hq =>
    accepted_of_offerAll hoffers hq (hlength q hq)
  have hnewest := haccepted p (mem_pairs_of_newest? hp)
  have hn := hnewest.length_pos hexact
  have hs := ofFn_coords hnewest.length_s
  have hy := ofFn_coords hnewest.length_y
  obtain ⟨H, hH⟩ := exists_inverseHessian_eq_update (n := n) hp
  have hsecant : h.inverseHessian n *ᵥ coords n p.y = coords n p.s := by
    rw [hH, p.update_mulVec_y H (hnewest.rho_mul_dotProduct hexact)]
  constructor
  · have htwoLoop := twoLoop_ofFn hexact haccepted (coords n p.y)
    rwa [hsecant, hy, hs] at htwoLoop
  · intro g t hg
    obtain ⟨v, rfl⟩ := exists_eq_ofFn hg
    have hadded := hexact.addScaled_ofFn hn v (coords n p.y) t
    have hresult := hexact.addScaled_ofFn hn (h.inverseHessian n *ᵥ v) (coords n p.s) t
    have htwoLoop := twoLoop_ofFn hexact haccepted (v + t • coords n p.y)
    rw [hy] at hadded
    rw [hs] at hresult
    rw [mulVec_add, mulVec_smul, hsecant] at htwoLoop
    exact ⟨_, _, _, hadded, twoLoop_ofFn hexact haccepted v, hresult, htwoLoop⟩

/-- Three rational pairs, of which the first gives way to the others where there is room for two. -/
def bendingOffers : List (Offer ℚ) :=
  [⟨[1, 0], [1, 0]⟩, ⟨[1 / 2, 1 / 2], [1 / 2, 5]⟩, ⟨[0, 1 / 10], [1, 1]⟩]

theorem twoLoop_newest_bent :
    (empty 2).offerAll .laned bendingOffers = some ([true, true, true], bent) ∧
    (∀ p ∈ bent.pairs, p.s.length = 2 ∧ p.y.length = 2) ∧
    bent.newest? = some ⟨[0, 1 / 10], [1, 1], 10⟩ ∧
    bent.twoLoop .laned [1, 1] = some [0, 1 / 10] ∧
    ∃ r r', bent.twoLoop .laned [3, -2] = some r ∧
      Arithmetic.laned.addScaled r [0, 1 / 10] 4 = some r' ∧
      bent.twoLoop .laned [7, 2] = some r' := by
  have hoffers : (empty 2).offerAll .laned bendingOffers = some ([true, true, true], bent) := by
    decide +kernel
  have hlength : ∀ p ∈ bent.pairs, p.s.length = 2 ∧ p.y.length = 2 := by decide +kernel
  have hnewest : bent.newest? = some ⟨[0, 1 / 10], [1, 1], 10⟩ := rfl
  obtain ⟨hsecant, hlinear⟩ := twoLoop_newest .laned hoffers hlength hnewest
  obtain ⟨g', r, r', hg', hr, hr', htwoLoop⟩ := hlinear [3, -2] 4 rfl
  obtain rfl : [7, 2] = g' := by
    have hsum : Arithmetic.laned.addScaled [(3 : ℚ), -2] [1, 1] 4 = some [7, 2] := by decide +kernel
    exact Option.some.inj (hsum.symm.trans hg')
  exact ⟨hoffers, hlength, hnewest, hsecant, r, r', hr, hr', htwoLoop⟩

end History

end QuasiNewton
