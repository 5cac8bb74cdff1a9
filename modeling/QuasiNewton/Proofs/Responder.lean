import QuasiNewton.Proofs.Oracle
import QuasiNewton.Proofs.Triple
import QuasiNewton.Responder

/-!
# Evaluations

What happens when a checked oracle puts a question to a responder: the question is counted and
entered into the journal, and the answer is passed on if it is admissible. Otherwise the
evaluation fails, with a fault of the functions or one of the check (`triple_checked_value`,
`triple_checked_gradient`).
-/

namespace QuasiNewton

variable {α : Type}

/-- An answer that passes its check. -/
theorem check_bind_eq_ok_iff {β : Type} {e : Except (Fault α) β}
    {check : β → Except (Fault α) Unit} {b : β} :
    (do let c ← e; check c; return c : Except (Fault α) β) = .ok b ↔
      e = .ok b ∧ check b = .ok () := by
  rcases e with f | c
  · simp [bind, Except.bind]
  · rcases h : check c with f | ⟨⟩
    · simp only [bind, Except.bind, h, reduceCtorEq, Except.ok.injEq, false_iff]
      rintro ⟨rfl, hc⟩
      rw [h] at hc
      cases hc
    · simp only [bind, Except.bind, h, pure, Except.pure, Except.ok.injEq]
      constructor
      · rintro rfl
        exact ⟨rfl, h⟩
      · rintro ⟨rfl, -⟩
        rfl

namespace Responder

variable [Scalar α] {f : Responder α} {n : Nat} {asked : List (Query α)} {x : List α}

/-- The answer to a question for the value, if it is admissible. -/
def admissibleValue (f : Responder α) (asked : List (Query α)) (x : List α) :
    Except (Fault α) α := do
  let v ← f.value asked x
  checkValue v
  return v

/-- The answer to a question for the gradient, if it is admissible. -/
def admissibleGradient (f : Responder α) (n : Nat) (asked : List (Query α)) (x : List α) :
    Except (Fault α) (List α) := do
  let g ← f.gradient asked x
  checkGradient n g
  return g

theorem admissibleValue_eq_ok_iff {v : α} :
    f.admissibleValue asked x = .ok v ↔
      f.value asked x = .ok v ∧ Scalar.isFinite v = true := by
  rw [admissibleValue, check_bind_eq_ok_iff, checkValue_eq_ok_iff]

/-- The check lets every answer through. -/
theorem admissibleValue_eq_of_finite (f : Responder α)
    (h : ∀ v, f.value asked x = .ok v → Scalar.isFinite v = true) :
    f.admissibleValue asked x = f.value asked x := by
  rcases hv : f.value asked x with fault | v
  · rw [admissibleValue, hv]
    rfl
  · exact admissibleValue_eq_ok_iff.mpr ⟨hv, h v hv⟩

theorem admissibleGradient_eq_ok_iff {g : List α} :
    f.admissibleGradient n asked x = .ok g ↔
      f.gradient asked x = .ok g ∧ g.length = n ∧ ∀ a ∈ g, Scalar.isFinite a = true := by
  rw [admissibleGradient, check_bind_eq_ok_iff, checkGradient_eq_ok_iff]

/-- A gradient of another length is refused whatever its entries are. -/
theorem admissibleGradient_of_length_ne {g : List α} (hg : f.gradient asked x = .ok g)
    (hlength : g.length ≠ n) :
    f.admissibleGradient n asked x = .error (.gradientLength n g.length) := by
  have hcheck : checkGradient n g = .error (.gradientLength n g.length) := if_neg hlength
  rw [admissibleGradient, hg]
  change (do checkGradient n g; return g : Except (Fault α) (List α)) = _
  rw [hcheck]
  rfl

theorem perform_checked_value (f : Responder α) (n : Nat) (x : List α) (j : Journal α) :
    ((f.oracle.checked n).value x).perform j =
      ((f.admissibleValue j.queries x).mapError .fault,
        j.countValue.push (.asked (.value x))) :=
  Run.perform_amend_check (f.perform_value x j.countValue)

theorem perform_checked_gradient (f : Responder α) (n : Nat) (x : List α) (j : Journal α) :
    ((f.oracle.checked n).gradient x).perform j =
      ((f.admissibleGradient n j.queries x).mapError .fault,
        j.countGradient.push (.asked (.gradient x))) :=
  Run.perform_amend_check (f.perform_gradient x j.countGradient)

variable {j : Journal α} {E : Stop α → Journal α → Prop}

theorem triple_checked_value {Q : α → Journal α → Prop}
    (hok : ∀ v, f.admissibleValue j.queries x = .ok v →
      Q v (j.countValue.push (.asked (.value x))))
    (herror : ∀ fault, f.admissibleValue j.queries x = .error fault →
      E (.fault fault) (j.countValue.push (.asked (.value x)))) :
    ((f.oracle.checked n).value x).Triple j Q E := by
  rw [Run.Triple, perform_checked_value]
  cases h : f.admissibleValue j.queries x with
  | ok v => exact hok v h
  | error fault => exact herror fault h

theorem triple_checked_gradient {Q : List α → Journal α → Prop}
    (hok : ∀ g, f.admissibleGradient n j.queries x = .ok g →
      Q g (j.countGradient.push (.asked (.gradient x))))
    (herror : ∀ fault, f.admissibleGradient n j.queries x = .error fault →
      E (.fault fault) (j.countGradient.push (.asked (.gradient x)))) :
    ((f.oracle.checked n).gradient x).Triple j Q E := by
  rw [Run.Triple, perform_checked_gradient]
  cases h : f.admissibleGradient n j.queries x with
  | ok g => exact hok g h
  | error fault => exact herror fault h

/-- A question for the value is entered, and no record is made. -/
theorem triple_value_entered (f : Responder α) (n : Nat) (x : List α) (j : Journal α) :
    ((f.oracle.checked n).value x).Triple j
      (fun _ j' => j'.queries = j.queries ++ [.value x] ∧ j'.records = j.records)
      (fun _ j' => j'.queries = j.queries ++ [.value x] ∧ j'.records = j.records) :=
  triple_checked_value (fun _ _ => ⟨Journal.queries_push_asked _ _, Journal.records_push_asked _ _⟩)
    (fun _ _ => ⟨Journal.queries_push_asked _ _, Journal.records_push_asked _ _⟩)

/-- A question for the gradient is entered, and no record is made; the gradient has the length that
it should have. -/
theorem triple_gradient_entered (f : Responder α) (n : Nat) (x : List α) (j : Journal α) :
    ((f.oracle.checked n).gradient x).Triple j
      (fun g j' => g.length = n ∧ j'.queries = j.queries ++ [.gradient x] ∧
        j'.records = j.records)
      (fun _ j' => j'.queries = j.queries ++ [.gradient x] ∧ j'.records = j.records) :=
  triple_checked_gradient
    (fun _ hg => ⟨(admissibleGradient_eq_ok_iff.mp hg).2.1, Journal.queries_push_asked _ _,
      Journal.records_push_asked _ _⟩)
    (fun _ _ => ⟨Journal.queries_push_asked _ _, Journal.records_push_asked _ _⟩)

end Responder

end QuasiNewton
