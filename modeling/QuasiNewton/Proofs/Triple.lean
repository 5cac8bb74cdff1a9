import QuasiNewton.Run

/-!
# Triples

What holds after a run from a given journal, both when it answers and when it stops. There is one
rule for each step of a run, and triples along the steps compose (`Triple.bind`).
-/

namespace QuasiNewton.Run

variable {α β γ : Type} {j : Journal α} {Q : β → Journal α → Prop} {R : γ → Journal α → Prop}
  {E : Stop α → Journal α → Prop}

/-- From the journal `j` the run answers so that `Q` holds, or it stops so that `E` holds. -/
def Triple (r : Run α β) (j : Journal α) (Q : β → Journal α → Prop)
    (E : Stop α → Journal α → Prop) : Prop :=
  match r.perform j with
  | (.ok b, j') => Q b j'
  | (.error stop, j') => E stop j'

theorem Triple.of_ok {r : Run α β} {b : β} {j' : Journal α} (hr : r.Triple j Q E)
    (h : r.perform j = (.ok b, j')) : Q b j' := by
  rwa [Triple, h] at hr

theorem Triple.of_error {r : Run α β} {stop : Stop α} {j' : Journal α} (hr : r.Triple j Q E)
    (h : r.perform j = (.error stop, j')) : E stop j' := by
  rwa [Triple, h] at hr

/-- What is said of the answer and of the reason to stop alike. -/
theorem Triple.result {r : Run α β} {C : Except (Stop α) β → Journal α → Prop}
    (hr : r.Triple j (fun b => C (.ok b)) (fun stop => C (.error stop))) :
    C (r.perform j).1 (r.perform j).2 := by
  unfold Triple at hr
  rcases h : r.perform j with ⟨stop | b, j'⟩ <;> rwa [h] at hr

/-- What the journal shows, however the run ends. -/
theorem triple_of_journal {r : Run α β} {C : Journal α → Prop} (h : C (r.perform j).2) :
    r.Triple j (fun _ => C) (fun _ => C) := by
  unfold Triple
  rcases hr : r.perform j with ⟨stop | b, j'⟩ <;> rwa [hr] at h

/-- The journal after the run is the one that the run leaves. -/
theorem Triple.and_journal {r : Run α β} (hr : r.Triple j Q E) :
    r.Triple j (fun b j' => Q b j' ∧ j' = (r.perform j).2)
      (fun stop j' => E stop j' ∧ j' = (r.perform j).2) := by
  unfold Triple at hr ⊢
  rcases h : r.perform j with ⟨stop | b, j'⟩
  · rw [h] at hr
    exact ⟨hr, rfl⟩
  · rw [h] at hr
    exact ⟨hr, rfl⟩

theorem triple_pure {b : β} (h : Q b j) : (pure b : Run α β).Triple j Q E :=
  h

theorem triple_amend {f : Journal α → Journal α} {Q : Unit → Journal α → Prop}
    (h : Q () (f j)) : (amend f).Triple j Q E :=
  h

theorem triple_note {r : Record α} {Q : Unit → Journal α → Prop}
    (h : Q () (j.push (.noted r))) : (note r).Triple j Q E :=
  h

theorem triple_tally {Q : Tally → Journal α → Prop} (h : Q j.tally j) :
    (tally : Run α Tally).Triple j Q E :=
  h

theorem triple_ofExcept {e : Except (Fault α) β} (hok : ∀ b, e = .ok b → Q b j)
    (herror : ∀ f, e = .error f → E (.fault f) j) : (ofExcept e).Triple j Q E := by
  cases e with
  | ok b => exact hok b rfl
  | error f => exact herror f rfl

/-- An operation that has an answer. -/
theorem triple_ofOption_bind {o : Option β} {b : β} {k : β → Run α γ} (ho : o = some b)
    (hk : (k b).Triple j R E) : (ofOption o >>= k).Triple j R E := by
  subst ho
  exact hk

theorem Triple.bind {r : Run α β} {k : β → Run α γ} (hr : r.Triple j Q E)
    (hk : ∀ b j', Q b j' → (k b).Triple j' R E) : (r >>= k).Triple j R E := by
  unfold Triple at hr ⊢
  rw [perform_bind]
  rcases h : r.perform j with ⟨stop | b, j'⟩
  · rw [h] at hr
    exact hr
  · rw [h] at hr
    exact hk b j' hr

/-- A run that is caught where it would stop at a fault. -/
theorem Triple.attempt {r : Run α β} (hr : r.Triple j Q E) :
    r.attempt.Triple j
      (fun e j' => match e with
        | .ok b => Q b j'
        | .error f => E (.fault f) j')
      E := by
  unfold Triple at hr ⊢
  rw [perform_attempt]
  rcases h : r.perform j with ⟨(f | _ | _) | b, j'⟩ <;> rw [h] at hr <;> exact hr

theorem Triple.mono {r : Run α β} {Q' : β → Journal α → Prop} {E' : Stop α → Journal α → Prop}
    (hr : r.Triple j Q E) (hQ : ∀ b j', Q b j' → Q' b j')
    (hE : ∀ stop j', E stop j' → E' stop j') : r.Triple j Q' E' := by
  unfold Triple at hr ⊢
  rcases h : r.perform j with ⟨stop | b, j'⟩
  · rw [h] at hr
    exact hE stop j' hr
  · rw [h] at hr
    exact hQ b j' hr

/-- A record that is only made under a condition. -/
theorem triple_ite_note {p : Prop} [Decidable p] {I : Journal α → Prop} {r : Record α}
    {k : Unit → Run α β} (hj : I j) (hnote : I (j.push (.noted r)))
    (hk : ∀ j', I j' → (k ()).Triple j' Q E) :
    (if p then note r >>= k else k ()).Triple j Q E := by
  split
  · exact hk _ hnote
  · exact hk _ hj

end QuasiNewton.Run
