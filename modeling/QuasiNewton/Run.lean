import QuasiNewton.Fault.Basic
import QuasiNewton.Journal

/-!
# Runs

A computation that asks the caller's functions and keeps a journal. It ends with an answer or
stops, and the journal is there in both cases. A run stops at a fault, where two vectors meet whose
lengths do not fit, or where room is asked for that cannot be reserved. Only a fault can be caught.
-/

namespace QuasiNewton

/-- Why a run stops without an answer. -/
inductive Stop (α : Type) where
  /-- A fault that nobody caught. -/
  | fault (f : Fault α)
  /-- Two vectors do not fit together. -/
  | misfit
  /-- There cannot be as much room as is asked for. -/
  | noRoom
deriving DecidableEq, Repr

/-- A computation with a journal that may stop. -/
abbrev Run (α : Type) : Type → Type :=
  ExceptT (Stop α) (StateM (Journal α))

namespace Run

variable {α β : Type}

/-- Run from a journal; the answer or the reason of the stop, and the journal afterwards. -/
def perform (r : Run α β) (j : Journal α) : Except (Stop α) β × Journal α :=
  StateT.run (ExceptT.run r) j

/-- Run from an empty journal. -/
def start (r : Run α β) : Except (Stop α) β × Journal α :=
  r.perform {}

def amend (f : Journal α → Journal α) : Run α Unit :=
  modify f

def tally : Run α Tally := do
  return (← get).tally

/-- Go on with the answer of a check, or stop at its fault. -/
def ofExcept : Except (Fault α) β → Run α β
  | .ok b => pure b
  | .error f => throw (.fault f)

/-- Go on with the answer of a vector operation, or stop if there is none. -/
def ofOption : Option β → Run α β
  | some b => pure b
  | none => throw .misfit

/-- Go on with what room was reserved for, or stop if there is none. -/
def reserve : Option β → Run α β
  | some b => pure b
  | none => throw .noRoom

def ask (q : Query α) : Run α Unit :=
  amend (·.push (.asked q))

def note (r : Record α) : Run α Unit :=
  amend (·.push (.noted r))

/-- Catch a fault and go on; what was done before it stays in the journal. -/
def attempt (r : Run α β) : Run α (Except (Fault α) β) :=
  ExceptT.mk do
    match ← r.run with
    | .ok b => pure (.ok (.ok b))
    | .error (.fault f) => pure (.ok (.error f))
    | .error .misfit => pure (.error .misfit)
    | .error .noRoom => pure (.error .noRoom)

/-! ### What each step does -/

@[simp] theorem perform_pure (b : β) (j : Journal α) :
    perform (pure b : Run α β) j = (.ok b, j) := rfl

@[simp] theorem perform_amend (f : Journal α → Journal α) (j : Journal α) :
    (amend f).perform j = (.ok (), f j) := rfl

@[simp] theorem perform_tally (j : Journal α) : (tally : Run α Tally).perform j = (.ok j.tally, j) :=
  rfl

@[simp] theorem perform_ask (q : Query α) (j : Journal α) :
    (ask q).perform j = (.ok (), j.push (.asked q)) := rfl

@[simp] theorem perform_note (r : Record α) (j : Journal α) :
    (note r).perform j = (.ok (), j.push (.noted r)) := rfl

@[simp] theorem perform_ofExcept_ok (b : β) (j : Journal α) :
    (ofExcept (.ok b) : Run α β).perform j = (.ok b, j) := rfl

@[simp] theorem perform_ofExcept_error (f : Fault α) (j : Journal α) :
    (ofExcept (.error f) : Run α β).perform j = (.error (.fault f), j) := rfl

@[simp] theorem perform_ofOption_some (b : β) (j : Journal α) :
    (ofOption (some b) : Run α β).perform j = (.ok b, j) := rfl

@[simp] theorem perform_ofOption_none (j : Journal α) :
    (ofOption none : Run α β).perform j = (.error .misfit, j) := rfl

@[simp] theorem perform_reserve_some (b : β) (j : Journal α) :
    (reserve (some b) : Run α β).perform j = (.ok b, j) := rfl

@[simp] theorem perform_reserve_none (j : Journal α) :
    (reserve none : Run α β).perform j = (.error .noRoom, j) := rfl

theorem perform_bind {γ : Type} (r : Run α β) (k : β → Run α γ) (j : Journal α) :
    (r >>= k).perform j =
      match r.perform j with
      | (.ok b, j') => (k b).perform j'
      | (.error s, j') => (.error s, j') := by
  simp only [perform, ExceptT.run_bind, StateT.run_bind]
  rcases StateT.run (ExceptT.run r) j with ⟨_ | _, _⟩ <;> rfl

theorem perform_bind_eq_ok_iff {γ : Type} {r : Run α β} {k : β → Run α γ} {j j'' : Journal α}
    {c : γ} :
    (r >>= k).perform j = (.ok c, j'') ↔
      ∃ b j', r.perform j = (.ok b, j') ∧ (k b).perform j' = (.ok c, j'') := by
  rw [perform_bind]
  rcases r.perform j with ⟨_ | b, j'⟩
  · simp
  · constructor
    · intro h
      exact ⟨b, j', rfl, h⟩
    · rintro ⟨_, _, h, hk⟩
      obtain ⟨rfl, rfl⟩ : b = _ ∧ j' = _ := by simpa using h
      exact hk

theorem perform_attempt (r : Run α β) (j : Journal α) :
    r.attempt.perform j =
      match r.perform j with
      | (.ok b, j') => (.ok (.ok b), j')
      | (.error (.fault f), j') => (.ok (.error f), j')
      | (.error .misfit, j') => (.error .misfit, j')
      | (.error .noRoom, j') => (.error .noRoom, j') := by
  unfold attempt perform
  simp only [ExceptT.run_mk, StateT.run_bind]
  rcases StateT.run (ExceptT.run r) j with ⟨(_ | _ | _) | _, _⟩ <;> rfl

end Run

end QuasiNewton
