import Mathlib.Data.List.Forall2
import QuasiNewton.Proofs.Double
import QuasiNewton.Proofs.History.Built

/-!
# The history after a sequence of offers

Whatever is offered to a history, one pair after the other, it does the same as to store the pairs
that pass the guard and to pass over the others (`History.offerAll_eq`). So it holds the last of the
accepted pairs, as many as there is room for, from the oldest to the newest
(`History.bounded_fifo`).
-/

namespace QuasiNewton

variable {α : Type}

/-! ### A sequence of pairs -/

namespace History

theorem forall₂_rtake {β γ : Type} {R : β → γ → Prop} {xs : List β} {ys : List γ}
    (h : List.Forall₂ R xs ys) (m : Nat) : List.Forall₂ R (xs.rtake m) (ys.rtake m) := by
  rw [List.rtake, List.rtake, h.length_eq]
  exact List.forall₂_drop _ h

@[simp] theorem capacity_foldl_store (ps : List (Pair α)) (h : History α) :
    (ps.foldl store h).capacity = h.capacity := by
  induction ps generalizing h with
  | nil => rfl
  | cons p later ih => rw [List.foldl_cons, ih, capacity_store]

/-- However many pairs are stored, the last ones stay for which there is room. -/
theorem pairs_foldl_store (ps : List (Pair α)) {h : History α}
    (hroom : h.pairs.length ≤ h.capacity) :
    (ps.foldl store h).pairs = (h.pairs ++ ps).rtake h.capacity := by
  induction ps generalizing h with
  | nil =>
    rw [List.foldl_nil, List.append_nil, List.rtake, Nat.sub_eq_zero_of_le hroom]
    rfl
  | cons p later ih =>
    have hroom' : (h.store p).size ≤ h.capacity := by
      rw [size_store]
      exact Nat.min_le_right _ _
    rw [List.foldl_cons, ih hroom', pairs_store, capacity_store, rtake_append, List.append_assoc,
      List.singleton_append]

theorem size_foldl_store (ps : List (Pair α)) {h : History α}
    (hroom : h.pairs.length ≤ h.capacity) :
    (ps.foldl store h).size = min h.capacity (h.size + ps.length) := by
  rw [size, pairs_foldl_store ps hroom, List.rtake, List.length_drop, List.length_append,
    Nat.sub_sub_eq_min, Nat.min_comm]
  rfl

theorem mem_of_mem_pairs_foldl_store {ps : List (Pair α)} {h : History α} {p : Pair α}
    (hp : p ∈ (ps.foldl store h).pairs) : p ∈ h.pairs ∨ p ∈ ps := by
  induction ps generalizing h with
  | nil => exact Or.inl hp
  | cons q later ih =>
    obtain hp | hp := ih hp
    · obtain hp | rfl := mem_pairs_store hp
      · exact Or.inl hp
      · exact Or.inr List.mem_cons_self
    · exact Or.inr (List.mem_cons_of_mem q hp)

end History

/-! ### Offers -/

/-- A step and the change of the gradient along it, as they are offered. -/
structure Offer (α : Type) where
  s : List α
  y : List α

/-- The offers to which the answer was that the pair is stored. -/
def Offer.accepted (offers : List (Offer α)) (answers : List Bool) : List (Offer α) :=
  ((offers.zip answers).filter (·.2)).map (·.1)

theorem Offer.accepted_map (offers : List (Offer α)) (f : Offer α → Bool) :
    accepted offers (offers.map f) = offers.filter f := by
  induction offers with
  | nil => rfl
  | cons o later ih =>
    rw [accepted] at ih ⊢
    cases hf : f o with
    | false => simp [hf, ih]
    | true => simp [hf, ih]

variable [Scalar α]

/-- The pair that comes of an offer, if the guard lets it pass. -/
def Offer.pair? (A : Arithmetic α) (o : Offer α) : Option (Pair α) := do
  let curvature ← A.inner o.s o.y
  if History.leastCurvature < curvature then some ⟨o.s, o.y, 1.0 / curvature⟩ else none

/-- A pair that consists of the offered vectors and the inverse of their curvature. -/
structure Offer.Becomes (A : Arithmetic α) (o : Offer α) (p : Pair α) : Prop where
  s_eq : p.s = o.s
  y_eq : p.y = o.y
  rho_eq : ∃ c, A.inner o.s o.y = some c ∧ p.rho = 1.0 / c

/-- Make one offer after the other: the answers, and the history after them. -/
def History.offerAll (A : Arithmetic α) (h : History α) :
    List (Offer α) → Option (List Bool × History α)
  | [] => some ([], h)
  | o :: later => do
    let (stored, h) ← h.offer A o.s o.y
    let (answers, h) ← offerAll A h later
    return (stored :: answers, h)

variable {A : Arithmetic α}

theorem Offer.pair?_eq_some_iff {o : Offer α} {p : Pair α} :
    o.pair? A = some p ↔
      ∃ c, A.inner o.s o.y = some c ∧ History.leastCurvature < c ∧ p = ⟨o.s, o.y, 1.0 / c⟩ := by
  rw [pair?]
  cases A.inner o.s o.y with
  | none => simp
  | some c => simp [eq_comm]

theorem Offer.becomes_of_pair? {o : Offer α} {p : Pair α} (hp : o.pair? A = some p) :
    o.Becomes A p := by
  obtain ⟨c, hc, -, rfl⟩ := pair?_eq_some_iff.mp hp
  exact ⟨rfl, rfl, c, hc, rfl⟩

theorem Offer.isSome_pair?_iff {o : Offer α} :
    (o.pair? A).isSome = true ↔ ∃ c, A.inner o.s o.y = some c ∧ History.leastCurvature < c := by
  rw [Option.isSome_iff_exists]
  constructor
  · rintro ⟨p, hp⟩
    obtain ⟨c, hc, hlt, -⟩ := pair?_eq_some_iff.mp hp
    exact ⟨c, hc, hlt⟩
  · rintro ⟨c, hc, hlt⟩
    exact ⟨_, pair?_eq_some_iff.mpr ⟨c, hc, hlt, rfl⟩⟩

namespace History

theorem offer_eq_of_inner {o : Offer α} {c : α} (hc : A.inner o.s o.y = some c) (h : History α) :
    h.offer A o.s o.y = some ((o.pair? A).isSome, (o.pair? A).elim h h.store) := by
  rw [offer, Offer.pair?, hc]
  by_cases hlt : leastCurvature < c
  · simp [hlt]
  · simp [hlt]

/-- The pairs that pass the guard are stored, the others are passed over. -/
theorem offerAll_eq {offers : List (Offer α)} (hfit : ∀ o ∈ offers, ∃ c, A.inner o.s o.y = some c)
    (h : History α) :
    h.offerAll A offers = some (offers.map fun o => (o.pair? A).isSome,
      (offers.filterMap (·.pair? A)).foldl store h) := by
  induction offers generalizing h with
  | nil => rfl
  | cons o later ih =>
    obtain ⟨⟨c, hc⟩, hlater⟩ := List.forall_mem_cons.mp hfit
    simp only [offerAll, offer_eq_of_inner hc, ih hlater, Option.bind_eq_bind, Option.bind_some]
    cases hp : o.pair? A with
    | none => simp [hp]
    | some p => simp [hp]

theorem fit_of_offerAll {offers : List (Offer α)} {h : History α} {answer : List Bool × History α}
    (hoffers : h.offerAll A offers = some answer) :
    ∀ o ∈ offers, ∃ c, A.inner o.s o.y = some c := by
  induction offers generalizing h answer with
  | nil => exact List.forall_mem_nil _
  | cons o later ih =>
    obtain ⟨⟨stored, h'⟩, ho, hrest⟩ := Option.bind_eq_some_iff.mp hoffers
    obtain ⟨_, hlater, -⟩ := Option.bind_eq_some_iff.mp hrest
    obtain ⟨c, hc, -⟩ := offer_eq_some_iff.mp ho
    exact List.forall_mem_cons.mpr ⟨⟨c, hc⟩, ih hlater⟩

/-- What is stored was offered, and passed the guard. -/
theorem exists_offer_of_mem {offers : List (Offer α)} {capacity : Nat} {answers : List Bool}
    {h : History α} (hoffers : (empty capacity).offerAll A offers = some (answers, h)) {p : Pair α}
    (hp : p ∈ h.pairs) : ∃ o ∈ offers, o.pair? A = some p := by
  rw [offerAll_eq (fit_of_offerAll hoffers)] at hoffers
  obtain ⟨-, rfl⟩ := Prod.mk.inj (Option.some.inj hoffers)
  obtain hp | hp := mem_of_mem_pairs_foldl_store hp
  · cases hp
  · exact List.mem_filterMap.mp hp

theorem accepted_of_offerAll {offers : List (Offer α)} {capacity n : Nat} {answers : List Bool}
    {h : History α} (hoffers : (empty capacity).offerAll A offers = some (answers, h)) {p : Pair α}
    (hp : p ∈ h.pairs) (hlength : p.s.length = n ∧ p.y.length = n) : p.Accepted A n := by
  obtain ⟨o, -, ho⟩ := exists_offer_of_mem hoffers hp
  obtain ⟨c, hc, hlt, rfl⟩ := Offer.pair?_eq_some_iff.mp ho
  exact ⟨hlength.1, hlength.2, c, hc, hlt, rfl⟩

/-! ### The offers that are accepted -/

theorem forall₂_becomes (offers : List (Offer α)) :
    List.Forall₂ (Offer.Becomes A) (offers.filter fun o => (o.pair? A).isSome)
      (offers.filterMap (·.pair? A)) := by
  induction offers with
  | nil => exact .nil
  | cons o later ih =>
    cases hp : o.pair? A with
    | none => simpa [hp] using ih
    | some p => simpa [hp] using And.intro (Offer.becomes_of_pair? hp) ih

/-- A history in doubles is a bounded queue. From an empty one, every sequence of offers that fit
goes through. An offer is accepted exactly if its curvature is defined and exceeds the least one,
and a refused one leaves the history as it was. What is stored are the last of the accepted offers,
as many as there is room for, from the oldest to the newest. -/
theorem bounded_fifo {A : Arithmetic Float} (capacity : Nat) {offers : List (Offer Float)}
    (hfit : ∀ o ∈ offers, ∃ c, A.inner o.s o.y = some c) :
    ∃ answers h, (empty capacity).offerAll A offers = some (answers, h) ∧
      List.Forall₂ (fun o answer => answer = true ↔
        ∃ c, A.inner o.s o.y = some c ∧ c.isNaN = false ∧ 1e-10 < c) offers answers ∧
      List.Forall₂ (Offer.Becomes A) ((Offer.accepted offers answers).rtake (max capacity 1))
        h.pairs ∧
      h.size = min (max capacity 1) (answers.count true) ∧ h.capacity = max capacity 1 ∧
      ∀ s y h', h.offer A s y = some (false, h') → h' = h := by
  have hpairs := pairs_foldl_store (offers.filterMap (·.pair? A)) (h := empty capacity)
    (Nat.zero_le _)
  refine ⟨_, _, offerAll_eq hfit _, ?_, ?_, ?_, capacity_foldl_store _ _, ?_⟩
  · rw [List.forall₂_map_right_iff, List.forall₂_same]
    intro o _
    rw [Offer.isSome_pair?_iff]
    constructor
    · rintro ⟨c, hc, hlt⟩
      exact ⟨c, hc, Double.isNaN_eq_false_of_lt hlt, hlt⟩
    · rintro ⟨c, hc, -, hlt⟩
      exact ⟨c, hc, hlt⟩
  · rw [Offer.accepted_map, hpairs]
    exact forall₂_rtake (forall₂_becomes offers) _
  · have hsize := size_foldl_store (offers.filterMap (·.pair? A)) (h := empty capacity)
      (Nat.zero_le _)
    rw [hsize, List.length_filterMap_eq_countP, List.count_eq_countP, List.countP_map]
    simp [empty, size, Function.comp_def]
  · intro s y h' ho
    obtain ⟨c, -, ⟨-, htrue, -⟩ | ⟨-, -, hsame⟩⟩ := offer_eq_some_iff.mp ho
    · cases htrue
    · exact hsame

/-- Offers of which the first, the fourth and the last are accepted. The curvature of the second is
negative, that of the third is undefined, and that of the fifth is too small. -/
def mixedOffers : List (Offer Float) :=
  [⟨[1.0], [2.0]⟩, ⟨[1.0], [-1.0]⟩, ⟨[0.0 / 0.0], [1.0]⟩, ⟨[3.0], [1.0]⟩, ⟨[1e-6], [1e-5]⟩,
    ⟨[0.5], [4.0]⟩]

theorem bounded_fifo_mixed :
    (∀ o ∈ mixedOffers, ∃ c, Arithmetic.laned.inner o.s o.y = some c) ∧
    ∃ answers h, (empty 2).offerAll .laned mixedOffers = some (answers, h) ∧
      answers = [true, false, false, true, false, true] ∧
      List.Forall₂ (Offer.Becomes .laned) [⟨[3.0], [1.0]⟩, ⟨[0.5], [4.0]⟩] h.pairs ∧
      h.size = 2 ∧ h.capacity = 2 := by
  have hfit : ∀ o ∈ mixedOffers, ∃ c, Arithmetic.laned.inner o.s o.y = some c := by
    simp [mixedOffers, Arithmetic.laned]
  obtain ⟨answers, h, hoffers, -, hpairs, hsize, hcapacity, -⟩ := bounded_fifo 2 hfit
  have hanswers : ((empty 2).offerAll .laned mixedOffers).map (·.1) =
      some [true, false, false, true, false, true] := by
    decide +kernel
  rw [hoffers] at hanswers
  obtain rfl : answers = _ := Option.some.inj hanswers
  exact ⟨hfit, _, h, hoffers, rfl, hpairs, hsize, hcapacity⟩

end History

end QuasiNewton
