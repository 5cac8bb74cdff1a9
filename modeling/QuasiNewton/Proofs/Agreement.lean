import QuasiNewton.LineSearch.Search
import QuasiNewton.Proofs.Oracle

/-!
# Runs that agree

Two runs agree when, from journals that a relation ties together, they end with the same answer or
the same reason to stop, and leave journals that are tied together again. Agreement says nothing
where the first run meets a misfit: an arithmetic may refuse operands that another one accepts.

Whatever the relation on journals is, two line searches agree if their functions agree and if the
first arithmetic knows no other answers than the second (`LineSearch.agrees_search`).
-/

namespace QuasiNewton

variable {α β γ : Type}

/-! ### Runs -/

namespace Run

/-- From related journals both runs end alike, in related journals, unless the first one stops at
a misfit. -/
def Agrees (J : Journal α → Journal α → Prop) (r r' : Run α β) : Prop :=
  ∀ j j', J j j' →
    (r.perform j).1 = .error .misfit ∨
      ((r.perform j).1 = (r'.perform j').1 ∧ J (r.perform j).2 (r'.perform j').2)

/-- Journals stay related when the same record is made in both. -/
def Recording (J : Journal α → Journal α → Prop) : Prop :=
  ∀ (r : Record α) j j', J j j' → J (j.push (.noted r)) (j'.push (.noted r))

section

variable {J : Journal α → Journal α → Prop}

theorem agrees_pure (b : β) : (pure b : Run α β).Agrees J (pure b) :=
  fun _ _ hj => Or.inr ⟨rfl, hj⟩

theorem agrees_amend {f : Journal α → Journal α} (hf : ∀ j j', J j j' → J (f j) (f j')) :
    (amend f).Agrees J (amend f) :=
  fun _ _ hj => Or.inr ⟨rfl, hf _ _ hj⟩

theorem agrees_note (hJ : Recording J) (r : Record α) : (note r).Agrees J (note r) :=
  fun _ _ hj => Or.inr ⟨rfl, hJ r _ _ hj⟩

theorem agrees_ofExcept (e : Except (Fault α) β) : (ofExcept e).Agrees J (ofExcept e) := by
  intro j j' hj
  right
  cases e <;> exact ⟨rfl, hj⟩

/-- An answer that the first run has is also the answer of the second. -/
theorem agrees_ofOption {o o' : Option β} (h : ∀ b, o = some b → o' = some b) :
    (ofOption o : Run α β).Agrees J (ofOption o') := by
  intro j j' hj
  cases o with
  | none => exact Or.inl rfl
  | some b =>
    rw [h b rfl]
    exact Or.inr ⟨rfl, hj⟩

theorem Agrees.bind {r r' : Run α β} {k k' : β → Run α γ} (hr : r.Agrees J r')
    (hk : ∀ b, (k b).Agrees J (k' b)) : (r >>= k).Agrees J (r' >>= k') := by
  intro j j' hj
  have h := hr j j' hj
  rw [perform_bind, perform_bind]
  revert h
  rcases r.perform j with ⟨stop | b, j₁⟩ <;> rcases r'.perform j' with ⟨stop' | b', j₁'⟩ <;>
    rintro (h | ⟨h, hj₁⟩) <;> cases h
  · exact Or.inl rfl
  · exact Or.inr ⟨rfl, hj₁⟩
  · exact Or.inl rfl
  · exact hk b j₁ j₁' hj₁

theorem Agrees.attempt {r r' : Run α β} (hr : r.Agrees J r') :
    r.attempt.Agrees J r'.attempt := by
  intro j j' hj
  have h := hr j j' hj
  rw [perform_attempt, perform_attempt]
  revert h
  rcases r.perform j with ⟨(f | _ | _) | b, j₁⟩ <;>
    rcases r'.perform j' with ⟨(f' | _ | _) | b', j₁'⟩ <;>
    rintro (h | ⟨h, hj₁⟩) <;> cases h
  all_goals first
    | exact Or.inl rfl
    | exact Or.inr ⟨rfl, hj₁⟩

theorem Agrees.ite {p : Prop} [Decidable p] {r r' k k' : Run α β} (hr : r.Agrees J r')
    (hk : k.Agrees J k') : (if p then r else k).Agrees J (if p then r' else k') := by
  split
  · exact hr
  · exact hk

/-- A record that is only made under a condition. -/
theorem Agrees.ite_note {p : Prop} [Decidable p] {k k' : Unit → Run α β} (hJ : Recording J)
    (hk : (k ()).Agrees J (k' ())) (r : Record α) :
    (if p then note r >>= k else k ()).Agrees J (if p then note r >>= k' else k' ()) :=
  ((agrees_note hJ r).bind fun _ => hk).ite hk

/-- An answer of the first run is given by the second, too. -/
theorem Agrees.exists_ok {r r' : Run α β} (hr : r.Agrees J r') {j j' k : Journal α} {b : β}
    (h : r.perform j = (.ok b, j')) (hj : J j k) :
    ∃ k', r'.perform k = (.ok b, k') ∧ J j' k' := by
  have hagrees := hr j k hj
  rw [h] at hagrees
  obtain hmisfit | ⟨hanswer, hj'⟩ := hagrees
  · cases hmisfit
  · exact ⟨(r'.perform k).2, Prod.ext hanswer.symm rfl, hj'⟩

end

theorem agrees_refl (r : Run α β) : r.Agrees Eq r := by
  rintro j _ rfl
  exact Or.inr ⟨rfl, rfl⟩

theorem recording_eq : Recording (Eq : Journal α → Journal α → Prop) := by
  rintro r j _ rfl
  rfl

/-- A run that agrees with itself from all journals has the same answer from all of them. -/
theorem Agrees.answer_eq {r : Run α β} (hr : r.Agrees (fun _ _ => True) r) (j j' : Journal α) :
    (r.perform j).1 = (r.perform j').1 := by
  rcases hr j j' trivial with hmisfit | ⟨h, -⟩
  · rcases hr j' j trivial with hmisfit' | ⟨h', -⟩
    · rw [hmisfit, hmisfit']
    · exact h'.symm
  · exact h

/-- A run that meets no misfit does what the run does that agrees with it from each journal. -/
theorem Agrees.perform_eq {r r' : Run α β} (hr : r.Agrees Eq r') {j : Journal α}
    (hj : (r.perform j).1 ≠ .error .misfit) : r.perform j = r'.perform j := by
  rcases hr j j rfl with hmisfit | ⟨hanswer, hjournal⟩
  · exact absurd hmisfit hj
  · exact Prod.ext hanswer hjournal

end Run

/-! ### Oracles -/

/-- Two oracles that agree on every question. -/
structure Oracle.Agrees (J : Journal α → Journal α → Prop) (o o' : Oracle α) : Prop where
  value : ∀ x, (o.value x).Agrees J (o'.value x)
  gradient : ∀ x, (o.gradient x).Agrees J (o'.gradient x)

theorem Oracle.agrees_refl (o : Oracle α) : o.Agrees Eq o where
  value _ := Run.agrees_refl _
  gradient _ := Run.agrees_refl _

/-- An oracle that answers a question in the same way whenever it is asked. -/
def Oracle.Steady (o : Oracle α) : Prop :=
  o.Agrees (fun _ _ => True) o

theorem Problem.steady_oracle (p : Problem α) : p.oracle.Steady where
  value x := by
    intro j j' _
    rw [perform_value, perform_value]
    exact Or.inr ⟨rfl, trivial⟩
  gradient x := by
    intro j j' _
    rw [perform_gradient, perform_gradient]
    exact Or.inr ⟨rfl, trivial⟩

variable [Scalar α]

theorem Oracle.Steady.checked {o : Oracle α} (ho : o.Steady) (n : Nat) :
    (o.checked n).Steady where
  value x := by
    apply (Run.agrees_amend fun _ _ _ => trivial).bind
    intro _
    apply (ho.value x).bind
    intro v
    apply (Run.agrees_ofExcept _).bind
    intro _
    exact Run.agrees_pure v
  gradient x := by
    apply (Run.agrees_amend fun _ _ _ => trivial).bind
    intro _
    apply (ho.gradient x).bind
    intro g
    apply (Run.agrees_ofExcept _).bind
    intro _
    exact Run.agrees_pure g

/-! ### Arithmetics -/

/-- All answers of the first arithmetic are answers of the second. -/
structure Arithmetic.Within (A B : Arithmetic α) : Prop where
  add : ∀ {x y z}, A.add x y = some z → B.add x y = some z
  sub : ∀ {x y z}, A.sub x y = some z → B.sub x y = some z
  inner : ∀ {x y c}, A.inner x y = some c → B.inner x y = some c

namespace Arithmetic.Within

variable {A B : Arithmetic α}

omit [Scalar α] in
theorem refl (A : Arithmetic α) : A.Within A :=
  ⟨id, id, id⟩

theorem addScaled (h : A.Within B) {x d z : List α} {s : α} (hz : A.addScaled x d s = some z) :
    B.addScaled x d s = some z :=
  h.add hz

end Arithmetic.Within

/-! ### The line search -/

namespace LineSearch

variable {A B : Arithmetic α} {J : Journal α → Journal α → Prop} {o o' : Oracle α}
  (h : A.Within B) (ho : o.Agrees J o')
include ho

theorem agrees_trialValue (trial : List α) : (trialValue o trial).Agrees J (trialValue o' trial) := by
  apply (ho.value trial).attempt.bind
  rintro (f | value)
  · cases f with
    | nonFiniteValue _ => exact Run.agrees_pure _
    | _ => exact Run.agrees_ofExcept _
  · exact Run.agrees_pure _

include h

theorem agrees_trialSlope (trial direction : List α) :
    (trialSlope A o trial direction).Agrees J (trialSlope B o' trial direction) := by
  apply (ho.gradient trial).attempt.bind
  rintro (f | gradient)
  · cases f with
    | invalidGradient _ _ _ => exact Run.agrees_pure _
    | _ => exact Run.agrees_ofExcept _
  · apply (Run.agrees_ofOption fun _ => h.inner).bind
    intro slope
    exact Run.agrees_pure _

theorem agrees_judge (opts : Options α) (l : Line α) (step : α) :
    (l.judge A opts o step).Agrees J (l.judge B opts o' step) := by
  apply (Run.agrees_ofOption fun _ => h.addScaled).bind
  intro trial
  apply (agrees_trialValue ho trial).bind
  rintro (_ | value)
  · exact Run.agrees_pure _
  · dsimp only
    split
    · apply (agrees_trialSlope h ho trial l.direction).bind
      intro slope
      exact Run.agrees_pure _
    · exact Run.agrees_pure _

theorem agrees_seek (opts : Options α) (l : Line α) (left : Nat) (b : Bracket α) :
    (l.seek A opts o left b).Agrees J (l.seek B opts o' left b) := by
  induction left generalizing b with
  | zero => exact Run.agrees_pure _
  | succ left ih =>
    rw [Line.seek_succ, Line.seek_succ]
    apply (agrees_judge h ho opts l b.step).bind
    intro verdict
    split
    · exact Run.agrees_pure _
    · split
      · exact Run.agrees_pure _
      · exact ih _

theorem agrees_search (opts : Options α) (x direction gradient : List α) :
    (search A opts o x direction gradient).Agrees J (search B opts o' x direction gradient) := by
  apply (Run.agrees_ofOption fun _ => h.inner).bind
  intro slope
  dsimp only
  split
  · exact Run.agrees_pure _
  · apply (ho.value x).bind
    intro value
    exact agrees_seek h ho opts _ _ _

end LineSearch

end QuasiNewton
