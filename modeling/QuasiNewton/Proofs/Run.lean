import QuasiNewton.Run

/-!
# Inversion of runs

A run that has an answer went through all its steps. Each lemma takes one step off the front of
such a run: an answer that had to be there, a check that had to pass, or a record that may have
been made.
-/

namespace QuasiNewton

namespace Run

variable {α β γ : Type} {b : β} {c : γ} {j j' : Journal α}

theorem exists_perform_of_isOk {r : Run α β} (h : (r.perform j).1.isOk = true) :
    ∃ b j', r.perform j = (.ok b, j') := by
  rcases hr : r.perform j with ⟨_ | b, j'⟩
  · rw [hr] at h
    cases h
  · exact ⟨b, j', rfl⟩

/-- A run of which something is known that only its answer can tell. -/
theorem exists_perform_of_map_eq_some {r : Run α β} {f : β → γ}
    (h : (r.perform j).1.toOption.map f = some c) :
    ∃ b j', r.perform j = (.ok b, j') ∧ f b = c := by
  rcases hr : r.perform j with ⟨_ | b, j'⟩
  · rw [hr] at h
    cases h
  · rw [hr] at h
    exact ⟨b, j', rfl, Option.some.inj h⟩

theorem perform_ofExcept_eq_ok_iff {e : Except (Fault α) β} :
    (ofExcept e).perform j = (.ok b, j') ↔ e = .ok b ∧ j' = j := by
  cases e with
  | ok c => simp [eq_comm]
  | error f => simp

theorem perform_ofExcept_bind_eq_ok_iff {e : Except (Fault α) β} {k : β → Run α γ} :
    (ofExcept e >>= k).perform j = (.ok c, j') ↔
      ∃ b, e = .ok b ∧ (k b).perform j = (.ok c, j') := by
  rw [perform_bind]
  cases e with
  | ok b => simp
  | error f => simp

theorem perform_ofOption_bind_eq_ok_iff {o : Option β} {k : β → Run α γ} :
    (ofOption o >>= k).perform j = (.ok c, j') ↔
      ∃ b, o = some b ∧ (k b).perform j = (.ok c, j') := by
  rw [perform_bind]
  cases o with
  | some b => simp
  | none => simp

theorem perform_reserve_eq_ok_iff {o : Option β} :
    (reserve o : Run α β).perform j = (.ok b, j') ↔ o = some b ∧ j' = j := by
  cases o with
  | some c => simp [eq_comm]
  | none => simp

theorem perform_attempt_eq_ok_ok_iff {r : Run α β} :
    r.attempt.perform j = (.ok (.ok b), j') ↔ r.perform j = (.ok b, j') := by
  rw [perform_attempt]
  rcases r.perform j with ⟨(f | _ | _) | c, j₁⟩
  · simp
  · simp
  · simp
  · simp

/-- An answer that is checked before it is passed on. -/
theorem perform_amend_check_eq_ok_iff {r : Run α β} {f : Journal α → Journal α}
    {check : β → Except (Fault α) Unit} :
    (do amend f; let b ← r; ofExcept (check b); pure b : Run α β).perform j = (.ok b, j') ↔
      r.perform (f j) = (.ok b, j') ∧ check b = .ok () := by
  rw [perform_bind, perform_amend]
  constructor
  · intro h
    obtain ⟨c, j₁, hr, hrest⟩ := perform_bind_eq_ok_iff.mp h
    obtain ⟨⟨⟩, hcheck, hpure⟩ := perform_ofExcept_bind_eq_ok_iff.mp hrest
    rw [perform_pure] at hpure
    cases hpure
    exact ⟨hr, hcheck⟩
  · rintro ⟨hr, hcheck⟩
    exact perform_bind_eq_ok_iff.mpr
      ⟨b, j', hr, perform_ofExcept_bind_eq_ok_iff.mpr ⟨(), hcheck, rfl⟩⟩

/-- A check turns an answer into the fault that it finds, and leaves the journal alone. -/
theorem perform_amend_check {r : Run α β} {f : Journal α → Journal α}
    {check : β → Except (Fault α) Unit} {e : Except (Fault α) β}
    (h : r.perform (f j) = (e.mapError .fault, j')) :
    (do amend f; let b ← r; ofExcept (check b); pure b : Run α β).perform j =
      ((do let b ← e; check b; return b : Except (Fault α) β).mapError .fault, j') := by
  rw [perform_bind, perform_amend]
  dsimp only
  rw [perform_bind, h]
  rcases e with fault | b
  · rfl
  · change (ofExcept (check b) >>= fun _ => pure b : Run α β).perform j' =
      ((check b >>= fun _ => pure b : Except (Fault α) β).mapError .fault, j')
    rw [perform_bind]
    cases check b with
    | error fault => rfl
    | ok _ => rfl

/-- A record that is only made under a condition. -/
theorem perform_ite_note {p : Prop} [Decidable p] (r : Record α) (k : Unit → Run α β)
    (j : Journal α) :
    (if p then note r >>= k else k ()).perform j =
      (k ()).perform (if p then j.push (.noted r) else j) := by
  by_cases hp : p
  · rw [if_pos hp, if_pos hp, perform_bind, perform_note]
  · rw [if_neg hp, if_neg hp]

end Run

end QuasiNewton
