import QuasiNewton.Proofs.Visits

/-!
# Runs that are images of runs

Two programs may do the same up to a change of what they handle: of the points at which they ask, or
of the states through which they go. The second run is then the image of the first one
(`Run.transport`): its answer and its journal are images, and where the first run stops the second
one stops for the same reason. Images of single steps make up images of whole runs
(`Method.transport_minimize`).
-/

namespace QuasiNewton

variable {α β γ δ ε : Type}

namespace Run

/-- The image of what a run ends with. A stop is its own image. -/
def transport (φ : Journal α → Journal α) (F : β → γ) (x : Except (Stop α) β × Journal α) :
    Except (Stop α) γ × Journal α :=
  (x.1.map F, φ x.2)

variable {φ : Journal α → Journal α} {F : β → γ} {G : δ → ε}

@[simp] theorem transport_ok (φ : Journal α → Journal α) (F : β → γ) (b : β) (j : Journal α) :
    transport φ F (.ok b, j) = (.ok (F b), φ j) := rfl

@[simp] theorem transport_error (φ : Journal α → Journal α) (F : β → γ) (stop : Stop α)
    (j : Journal α) : transport φ F (.error stop, j) = (.error stop, φ j) := rfl

section

variable {r : Run α β} {r' : Run α γ} {k : β → Run α δ} {k' : γ → Run α ε} {j j' : Journal α}

theorem transport_bind (hr : r'.perform j' = transport φ F (r.perform j))
    (hk : ∀ b j₁, r.perform j = (.ok b, j₁) →
      (k' (F b)).perform (φ j₁) = transport φ G ((k b).perform j₁)) :
    (r' >>= k').perform j' = transport φ G ((r >>= k).perform j) := by
  rw [perform_bind, perform_bind, hr]
  rcases h : r.perform j with ⟨stop | b, j₁⟩
  · rfl
  · exact hk b j₁ h

theorem transport_ofOption_bind {o : Option β} {o' : Option γ} (ho : o' = o.map F)
    (hk : ∀ b, o = some b → (k' (F b)).perform (φ j) = transport φ G ((k b).perform j)) :
    (ofOption o' >>= k').perform (φ j) = transport φ G ((ofOption o >>= k).perform j) := by
  subst ho
  cases o with
  | none => rfl
  | some b => exact hk b rfl

/-- A check with the same verdict in both runs. -/
theorem transport_ofExcept_congr_bind {e e' : Except (Fault α) β} {k : β → Run α δ}
    {k' : β → Run α ε} (he : e' = e)
    (hk : ∀ b, e = .ok b → (k' b).perform (φ j) = transport φ G ((k b).perform j)) :
    (ofExcept e' >>= k').perform (φ j) = transport φ G ((ofExcept e >>= k).perform j) := by
  subst he
  cases e' with
  | error f => rfl
  | ok b => exact hk b rfl

/-- A vector operation with the same answer in both runs. -/
theorem transport_ofOption_congr_bind {o o' : Option β} {k : β → Run α δ} {k' : β → Run α ε}
    (ho : o' = o)
    (hk : ∀ b, o = some b → (k' b).perform (φ j) = transport φ G ((k b).perform j)) :
    (ofOption o' >>= k').perform (φ j) = transport φ G ((ofOption o >>= k).perform j) :=
  transport_ofOption_bind (ho.trans Option.map_id_apply.symm) hk

/-- What is caught has the same image as what is not. -/
theorem transport_attempt (hr : r'.perform j' = transport φ F (r.perform j)) :
    r'.attempt.perform j' = transport φ (Except.map F) (r.attempt.perform j) := by
  rw [perform_attempt, perform_attempt, hr]
  rcases r.perform j with ⟨(f | _ | _) | b, j₁⟩ <;> rfl

end

theorem transport_ofExcept {e : Except (Fault α) β} {e' : Except (Fault α) γ} (he : e' = e.map F)
    (j : Journal α) : (ofExcept e').perform (φ j) = transport φ F ((ofExcept e).perform j) := by
  subst he
  cases e with
  | error f => rfl
  | ok b => rfl

theorem transport_note (hφ : ∀ j r, φ (j.push (.noted r)) = (φ j).push (.noted r)) (r : Record α)
    (j : Journal α) : (note r).perform (φ j) = transport φ id ((note r).perform j) :=
  congrArg (Prod.mk _) (hφ j r).symm

/-- A record that is only made under a condition. -/
theorem transport_ite_note (hφ : ∀ j r, φ (j.push (.noted r)) = (φ j).push (.noted r))
    {p : Prop} [Decidable p] {k : Unit → Run α β} {k' : Unit → Run α γ} {j : Journal α}
    (r : Record α) (hk : ∀ j, (k' ()).perform (φ j) = transport φ F ((k ()).perform j)) :
    (if p then note r >>= k' else k' ()).perform (φ j) =
      transport φ F ((if p then note r >>= k else k ()).perform j) := by
  rw [perform_ite_note, perform_ite_note, ← hk]
  split
  · rw [hφ]
  · rfl

end Run

/-! ### The loop of a method -/

namespace Method

variable [Scalar α] {σ τ : Type}

/-- A state looks to the loop like its image. -/
structure Image (m : Method α σ) (m' : Method α τ) (F : σ → τ) : Prop where
  name_eq : m'.name = m.name
  gradNorm_eq : ∀ s, m'.gradNorm (F s) = m.gradNorm s
  iteration_eq : ∀ s, (m'.iterate (F s)).iteration = (m.iterate s).iteration
  stored_eq : ∀ s, m'.stored (F s) = m.stored s

variable {m : Method α σ} {m' : Method α τ} {F : σ → τ} {φ : Journal α → Journal α}
  {o o' : Oracle α}

theorem Image.iterationRecord_eq (h : m.Image m' F) (s : σ) (step : α) :
    m'.iterationRecord (F s) step = m.iterationRecord s step := by
  rw [iterationRecord, iterationRecord, h.name_eq, h.gradNorm_eq, h.iteration_eq, h.stored_eq]

/-- If the iterations that the loop makes have images, the loop has. -/
theorem transport_descend (h : m.Image m' F)
    (hφ : ∀ j r, φ (j.push (.noted r)) = (φ j).push (.noted r)) {tolerance : α} {left : Nat}
    {s : σ} {j : Journal α}
    (hadvance : ∀ v ∈ (m.visits tolerance o left s j).take left, ¬ m.gradNorm v.1 < tolerance →
      (m'.advance o' (F v.1)).perform (φ v.2) =
        Run.transport φ (Prod.map F id) ((m.advance o v.1).perform v.2)) :
    (m'.descend tolerance o' left (F s)).perform (φ j) =
      Run.transport φ (Prod.map id F) ((m.descend tolerance o left s).perform j) := by
  induction left generalizing s j with
  | zero =>
    rw [descend, descend, h.gradNorm_eq]
    split <;> rfl
  | succ left ih =>
    by_cases hlt : m.gradNorm s < tolerance
    · rw [descend_of_lt hlt, descend_of_lt ((h.gradNorm_eq s).symm ▸ hlt)]
      rfl
    · rw [descend, descend, h.gradNorm_eq, if_neg hlt, if_neg hlt]
      refine Run.transport_bind (hadvance (s, j) (m.mem_take_visits ..) hlt) ?_
      rintro ⟨s₁, step⟩ j₁ hok
      rw [visits_succ_of_ok hlt hok, List.take_succ_cons] at hadvance
      change (m'.descend tolerance o' left (F s₁)).perform
        ((φ j₁).push (.noted (m'.iterationRecord (F s₁) step))) = _
      rw [h.iterationRecord_eq, ← hφ]
      exact ih fun v hv => hadvance v (List.mem_cons_of_mem _ hv)

/-- The first state has an image if the gradient has one, and if there is room for the first state
in both runs or in none. -/
theorem transport_opening {x₀ x₀' : List α} {j j' : Journal α} {V : List α → List α}
    (hopening : (o'.opening x₀').perform j' = Run.transport φ V ((o.opening x₀).perform j))
    (hstart : ∀ g, m'.start x₀' (V g) = (m.start x₀ g).map F) :
    (m'.opening o' x₀').perform j' = Run.transport φ F ((m.opening o x₀).perform j) := by
  refine Run.transport_bind hopening fun g₀ j₁ _ => ?_
  rw [hstart]
  cases m.start x₀ g₀ with
  | none => rfl
  | some s₀ => rfl

/-- If the opening, the iterations that the run makes and its conclusion have images, the run has
one. -/
theorem transport_minimize (h : m.Image m' F)
    (hφ : ∀ j r, φ (j.push (.noted r)) = (φ j).push (.noted r)) {limits : Stopping α}
    {x₀ x₀' : List α} {j j' : Journal α} {G : Outcome α → Outcome α}
    (hopening : (m'.opening o' x₀').perform j' = Run.transport φ F ((m.opening o x₀).perform j))
    (hadvance : ∀ v ∈ (m.itinerary limits o x₀ j).take limits.budget,
      ¬ m.gradNorm v.1 < limits.tolerance →
      (m'.advance (o'.checked x₀'.length) (F v.1)).perform (φ v.2) =
        Run.transport φ (Prod.map F id) ((m.advance (o.checked x₀.length) v.1).perform v.2))
    (hconclude : ∀ t s j₁, (m.loop limits o x₀).perform j = (.ok (t, s), j₁) →
      (m'.conclude (o'.checked x₀'.length) t (F s)).perform (φ j₁) =
        Run.transport φ G ((m.conclude (o.checked x₀.length) t s).perform j₁)) :
    (m'.minimize limits o' x₀').perform j' =
      Run.transport φ G ((m.minimize limits o x₀).perform j) := by
  rw [minimize_eq_loop_bind, minimize_eq_loop_bind]
  refine Run.transport_bind (F := Prod.map id F) (Run.transport_bind hopening ?_) ?_
  · intro s₀ j₁ hok
    rw [itinerary_eq hok] at hadvance
    exact transport_descend h hφ hadvance
  · rintro ⟨t, s⟩ j₁ hloop
    exact hconclude t s j₁ hloop

end Method

end QuasiNewton
