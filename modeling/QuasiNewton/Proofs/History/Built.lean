import Mathlib.Data.List.DropRight
import QuasiNewton.History
import QuasiNewton.Proofs.Arithmetic

/-!
# Histories built from offers

A history comes from an empty one by offers of vectors of one length. Whatever was offered, each
pair that it holds passed the guard (`Built.accepted`), and what it holds after an offer is the
tail of what it would hold without a bound (`rtake_append`). On vectors of the length of
the offers the two-loop recursion has an answer of that length (`Built.exists_twoLoop`).
-/

namespace QuasiNewton

variable {α : Type}

namespace History

/-! ### Storing -/

@[simp] theorem capacity_store (h : History α) (p : Pair α) :
    (h.store p).capacity = h.capacity := rfl

theorem pairs_store (h : History α) (p : Pair α) :
    (h.store p).pairs = (h.pairs ++ [p]).rtake h.capacity := rfl

theorem size_store (h : History α) (p : Pair α) :
    (h.store p).size = min (h.size + 1) h.capacity := by
  rw [size, pairs_store, List.rtake, List.length_drop, List.length_append, List.length_singleton]
  change h.size + 1 - (h.size + 1 - h.capacity) = _
  omega

/-- Nothing but the pair itself enters a history in which a pair is stored. -/
theorem mem_pairs_store {h : History α} {p q : Pair α} (hq : q ∈ (h.store p).pairs) :
    q ∈ h.pairs ∨ q = p := by
  have hmem := List.mem_of_mem_drop hq
  rwa [List.mem_append, List.mem_singleton] at hmem

theorem mem_pairs_of_newest? {h : History α} {p : Pair α} (hp : h.newest? = some p) :
    p ∈ h.pairs :=
  List.mem_of_getLast? hp

/-- What is dropped before more elements are appended would be dropped after it. -/
theorem rtake_append (l l' : List α) (m : Nat) :
    (l.rtake m ++ l').rtake m = (l ++ l').rtake m := by
  simp only [List.rtake, List.length_append, List.length_drop, List.drop_append, List.drop_drop]
  congr 2 <;> omega

end History

variable [Scalar α] {A : Arithmetic α} {n : Nat}

/-- A pair of vectors of length `n` that passed the guard. -/
structure Pair.Accepted (A : Arithmetic α) (n : Nat) (p : Pair α) : Prop where
  length_s : p.s.length = n
  length_y : p.y.length = n
  curvature : ∃ c, A.inner p.s p.y = some c ∧ History.leastCurvature < c ∧ p.rho = 1.0 / c

namespace History

/-! ### Offers -/

theorem offer_eq_some_iff {h h' : History α} {s y : List α} {stored : Bool} :
    h.offer A s y = some (stored, h') ↔
      ∃ c, A.inner s y = some c ∧
        (leastCurvature < c ∧ stored = true ∧ h' = h.store ⟨s, y, 1.0 / c⟩ ∨
          ¬ leastCurvature < c ∧ stored = false ∧ h' = h) := by
  rw [offer]
  cases hc : A.inner s y with
  | none => simp
  | some c =>
    by_cases hlt : leastCurvature < c
    · simp [hlt, eq_comm]
    · simp [hlt, eq_comm]

theorem offer_of_inner {h : History α} {s y : List α} {c : α} (hc : A.inner s y = some c) :
    h.offer A s y =
      some (if leastCurvature < c then (true, h.store ⟨s, y, 1.0 / c⟩) else (false, h)) := by
  rw [offer, hc]
  simp only [Option.bind_eq_bind, Option.bind_some]
  split <;> rfl

theorem exists_offer (hA : A.Lawful) (h : History α) {s y : List α} (hlength : s.length = y.length) :
    ∃ answer, h.offer A s y = some answer := by
  obtain ⟨c, hc⟩ := hA.exists_inner hlength
  rw [offer, hc]
  simp only [Option.bind_eq_bind, Option.bind_some]
  split
  · exact ⟨_, rfl⟩
  · exact ⟨_, rfl⟩

theorem capacity_of_offer_eq_some {h h' : History α} {s y : List α} {stored : Bool}
    (ho : h.offer A s y = some (stored, h')) : h'.capacity = h.capacity := by
  obtain ⟨c, -, ⟨-, -, rfl⟩ | ⟨-, -, rfl⟩⟩ := offer_eq_some_iff.mp ho
  · exact capacity_store h _
  · rfl

/-- A history to which nothing but vectors of length `n` was offered. -/
inductive Built (A : Arithmetic α) (n : Nat) : History α → Prop where
  | empty (capacity : Nat) : Built A n (.empty capacity)
  | offer {h h' : History α} {s y : List α} {stored : Bool} (hb : Built A n h)
      (hs : s.length = n) (hy : y.length = n) (ho : h.offer A s y = some (stored, h')) :
      Built A n h'

namespace Built

variable {h : History α}

/-- A pair enters a history only through the guard. -/
theorem accepted (hb : Built A n h) : ∀ p ∈ h.pairs, p.Accepted A n := by
  induction hb with
  | empty _ => intro p hp; cases hp
  | offer _ hs hy ho ih =>
    obtain ⟨c, hc, ⟨hlt, -, rfl⟩ | ⟨-, -, rfl⟩⟩ := offer_eq_some_iff.mp ho
    · intro p hp
      obtain hp | rfl := mem_pairs_store hp
      · exact ih p hp
      · exact ⟨hs, hy, c, hc, hlt, rfl⟩
    · exact ih

end Built

/-! ### The two-loop recursion -/

/-- Between vectors of one length the sweep never meets a misfit. -/
theorem exists_sweep (hA : A.Lawful) (hn : 0 < n) (γ : α) {ps : List (Pair α)}
    (hps : ∀ p ∈ ps, p.Accepted A n) {q : List α} (hq : q.length = n) :
    ∃ r, sweep A γ ps q = some r ∧ r.length = n := by
  induction ps generalizing q with
  | nil => exact ⟨scale q γ, rfl, (length_scale q γ).trans hq⟩
  | cons p older ih =>
    have hp := hps p List.mem_cons_self
    obtain ⟨c, hc⟩ := hA.exists_inner (hp.length_s.trans hq.symm)
    obtain ⟨q', hq', hlen'⟩ := hA.exists_sub hn hq
      ((length_scale p.y (p.rho * c)).trans hp.length_y)
    obtain ⟨r, hr, hlenr⟩ := ih (fun p hp => hps p (List.mem_cons_of_mem _ hp)) hlen'
    obtain ⟨d, hd⟩ := hA.exists_inner (hp.length_y.trans hlenr.symm)
    obtain ⟨z, hz, hlenz⟩ := hA.exists_add hn hlenr
      ((length_scale p.s (p.rho * c - p.rho * d)).trans hp.length_s)
    refine ⟨z, ?_, hlenz⟩
    simp only [sweep, hc, hq', hr, hd, hz, Option.bind_eq_bind, Option.bind_some]

theorem exists_scaling (hA : A.Lawful) {h : History α} (hps : ∀ p ∈ h.pairs, p.Accepted A n) :
    ∃ γ, h.scaling A = some γ := by
  rw [scaling]
  cases hp : h.newest? with
  | none => exact ⟨1.0, rfl⟩
  | some p =>
    have hacc := hps p (mem_pairs_of_newest? hp)
    obtain ⟨c, hc⟩ := hA.exists_inner (hacc.length_s.trans hacc.length_y.symm)
    obtain ⟨d, hd⟩ := hA.exists_inner (x := p.y) (y := p.y) rfl
    exact ⟨c / d, by simp only [hc, hd, Option.bind_eq_bind, Option.bind_some, Option.pure_def]⟩

theorem Built.exists_twoLoop (hA : A.Lawful) (hn : 0 < n) {h : History α} (hb : Built A n h)
    {g : List α} (hg : g.length = n) : ∃ r, h.twoLoop A g = some r ∧ r.length = n := by
  obtain ⟨γ, hγ⟩ := exists_scaling hA hb.accepted
  obtain ⟨r, hr, hlen⟩ := exists_sweep hA hn γ
    (fun p hp => hb.accepted p (List.mem_reverse.mp hp)) hg
  refine ⟨r, ?_, hlen⟩
  rw [twoLoop, hγ, Option.bind_eq_bind, Option.bind_some, hr]

end History

end QuasiNewton
