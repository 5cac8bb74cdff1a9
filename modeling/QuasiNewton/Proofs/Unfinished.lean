import QuasiNewton.Proofs.Provenance

/-!
# Unfinished runs

The record that a run is over is the last thing that happens before its outcome is made. So the
records of a run do not hold it as long as the loop goes on (`Method.triple_loop_unfinished`), and a
run that stops because its last evaluation fails never makes it (`Method.Follows.unfinished`).
-/

namespace QuasiNewton

variable {α : Type}

theorem Record.headline_eq_terminated_iff {r : Record α} :
    r.headline = "terminated" ↔ r.severity = .info := by
  cases r <;> simp [headline, severity]

/-- The records of a run that is not over: after the earlier ones, none says that it is. -/
def Unfinished (past rs : List (Record α)) : Prop :=
  ∃ later, rs = past ++ later ∧ ∀ r ∈ later, r.headline ≠ "terminated"

theorem Unfinished.refl (past : List (Record α)) : Unfinished past past :=
  ⟨[], (List.append_nil past).symm, List.forall_mem_nil _⟩

theorem Unfinished.note {past : List (Record α)} {j : Journal α} (h : Unfinished past j.records)
    {r : Record α} (hr : r.severity ≠ .info) : Unfinished past (j.push (.noted r)).records := by
  obtain ⟨later, hrecords, hlater⟩ := h
  refine ⟨later ++ [r], ?_, ?_⟩
  · rw [Journal.records_push_noted, hrecords, List.append_assoc]
  · rw [List.forall_mem_append, List.forall_mem_singleton]
    exact ⟨hlater, mt Record.headline_eq_terminated_iff.mp hr⟩

namespace Method

variable [Scalar α] {σ : Type} {m : Method α σ} {S : σ → Prop} {A : Arithmetic α}
  {opts : LineSearch.Options α} {direction : σ → Option (List α)} {f : Responder α}
  {limits : Stopping α} {x₀ : List α} {j : Journal α}

theorem Follows.triple_advance_unfinished {n : Nat} (hm : m.Follows A opts direction n S)
    (hA : A.Lawful) (hn : 0 < n) {past : List (Record α)} {s : σ} (hs : S s)
    (hj : Unfinished past j.records) :
    (m.advance (f.oracle.checked n) s).Triple j (fun p j' => S p.1 ∧ Unfinished past j'.records)
      (fun _ j' => Unfinished past j'.records) := by
  have ho := f.keepsTrials_records n (Unfinished past)
  obtain ⟨d, hd, hdlen⟩ := hm.exists_direction hs
  refine hm.advance hs hd (Q := fun _ j' => Unfinished past j'.records)
    (R := fun _ _ j' => Unfinished past j'.records) fun j₁ hwarned => ⟨?_, ?_, ?_⟩
  · have hj₁ : Unfinished past j₁.records := by
      obtain rfl | ⟨r, hr, rfl⟩ := hwarned
      · exact hj
      · exact hj.note (by rw [hr]; exact nofun)
    exact LineSearch.triple_search ho hA hn opts (hm.length_point hs) hdlen (hm.length_gradient hs)
      hj₁
  · intro step point j₂ _ hlength hj₂
    exact ho.gradient hlength hj₂
  · intro step point j₂ r hr hj₂
    exact hj₂.note (by rw [hr]; exact nofun)

theorem triple_loop_unfinished (hm : 0 < x₀.length → m.Follows A opts direction x₀.length S)
    (hA : A.Lawful) (limits : Stopping α) (j : Journal α) :
    (m.loop limits f.oracle x₀).Triple j (fun _ j' => Unfinished j.records j'.records)
      (fun _ j' => Unfinished j.records j'.records) := by
  have ho := f.keepsTrials_records x₀.length (Unfinished j.records)
  refine (m.triple_opening (fun _ _ => .refl _) (ho.gradient rfl (.refl j.records))
    fun _ hj' _ => hj'.2).bind ?_
  rintro s₀ j₁ ⟨hn, g₀, hs₀, hg₀, hj₁⟩
  refine (triple_descend_visits (I := fun j' => Unfinished j.records j'.records) ?_
    ((hm hn).start rfl hg₀ hs₀) hj₁).mono (fun _ _ h => h.2) (fun _ _ h => h)
  intro v _ hs hj
  exact ((hm hn).triple_advance_unfinished hA hn hs hj).mono
    (fun _ _ h => ⟨h.1, h.2.note nofun⟩) (fun _ _ h => h)

/-- A run whose last evaluation fails makes no last record. -/
theorem Follows.unfinished (hm : 0 < x₀.length → m.Follows A opts direction x₀.length S)
    (hA : A.Lawful) {fault : Fault α} {stop : Stop α} {j' : Journal α}
    (h : (m.minimize limits f.oracle x₀).perform j = (.error stop, j'))
    (hfailed : FailedAtLast f x₀.length fault j j') : Unfinished j.records j'.records := by
  have hrun : (m.minimize limits f.oracle x₀).Triple j (fun _ _ => True)
      (fun _ j' => Unfinished j.records j'.records ∨
        ∃ asked q, j'.queries = asked ++ [q] ∧ f.failure? x₀.length asked q = none) := by
    rw [minimize_eq_loop_bind]
    refine ((triple_loop_unfinished hm hA limits j).mono (fun _ _ h => h)
      (fun _ _ h => Or.inl h)).bind ?_
    rintro ⟨t, s⟩ j₁ hj₁
    refine triple_conclude (V := fun _ j₂ => j₂.queries =
        j₁.queries ++ [.value (m.iterate s).point] ∧
      f.failure? x₀.length j₁.queries (.value (m.iterate s).point) = none) ?_ ?_
    · refine Responder.triple_checked_value
        (fun v hv => ⟨Journal.queries_push_asked _ _, by rw [Responder.failure?, hv]⟩)
        (fun fault _ => Or.inl ?_)
      exact (Journal.records_push_asked _ _).symm ▸ hj₁
    · rintro value j₂ ⟨hqueries, hsucceeds⟩ tally r
      rw [← Journal.queries_push_noted j₂ r] at hqueries
      exact ⟨fun _ _ => trivial, fun _ _ => Or.inr ⟨_, _, hqueries, hsucceeds⟩⟩
  obtain hunfinished | ⟨asked, q, hqueries, hsucceeds⟩ := hrun.of_error h
  · exact hunfinished
  · obtain ⟨before, q', -, hqueries', hfailure⟩ := hfailed
    obtain ⟨rfl, hlast⟩ := List.append_inj' (hqueries.symm.trans hqueries') rfl
    obtain rfl := List.singleton_inj.mp hlast
    cases hsucceeds.symm.trans hfailure

end Method

end QuasiNewton
