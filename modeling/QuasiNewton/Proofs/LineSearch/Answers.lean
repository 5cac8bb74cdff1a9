import QuasiNewton.LineSearch.Search
import QuasiNewton.Proofs.Run

/-!
# What a trial reads off an answer

A trial makes something of an answer of the functions: a number that is finite, nothing at all, or a
reason to stop. It does so in the same way wherever the answer comes from (`perform_trialValue`,
`perform_trialSlope`).
-/

namespace QuasiNewton.LineSearch

variable {α : Type} [Scalar α]

/-- The value if it is finite. The failure of a value that is not finite counts as such a value. -/
def readValue : Except (Fault α) α → Except (Fault α) (Option α)
  | .ok v => .ok (if Scalar.isFinite v then some v else none)
  | .error (.nonFiniteValue _) => .ok none
  | .error fault => .error fault

/-- The slope along `d` if it is finite. The failure of a gradient that is not finite counts as such
a slope. -/
def readSlope (A : Arithmetic α) (d : List α) :
    Except (Fault α) (List α) → Except (Stop α) (Option α)
  | .ok g =>
    match A.inner g d with
    | some s => .ok (if Scalar.isFinite s then some s else none)
    | none => .error .misfit
  | .error (.invalidGradient ..) => .ok none
  | .error fault => .error (.fault fault)

/-- No finite value is in the answer: the value is not finite, or the failure says so. -/
def NoValue (answer : Except (Fault α) α) : Prop :=
  (∃ v, answer = .ok v ∧ Scalar.isFinite v = false) ∨ ∃ v, answer = .error (.nonFiniteValue v)

/-- No finite slope along `d` is in the answer: the slope is not finite, or the failure says of the
gradient that it is not. -/
def NoSlope (A : Arithmetic α) (d : List α) (answer : Except (Fault α) (List α)) : Prop :=
  (∃ g s, answer = .ok g ∧ A.inner g d = some s ∧ Scalar.isFinite s = false) ∨
    ∃ index a reason, answer = .error (.invalidGradient index a reason)

variable {A : Arithmetic α} {o : Oracle α} {x d : List α} {j j' : Journal α}

theorem readValue_of_noValue {answer : Except (Fault α) α} (h : NoValue answer) :
    readValue answer = .ok none := by
  obtain ⟨v, rfl, hfinite⟩ | ⟨v, rfl⟩ := h
  · rw [readValue, hfinite]
    rfl
  · rfl

theorem readSlope_of_noSlope {answer : Except (Fault α) (List α)} (h : NoSlope A d answer) :
    readSlope A d answer = .ok none := by
  obtain ⟨g, s, rfl, hs, hfinite⟩ | ⟨index, a, reason, rfl⟩ := h
  · simp [readSlope, hs, hfinite]
  · rfl

/-- A trial stops at any other failure. -/
theorem readValue_eq_error_iff {answer : Except (Fault α) α} {fault : Fault α} :
    readValue answer = .error fault ↔ answer = .error fault ∧ ∀ v, fault ≠ .nonFiniteValue v := by
  constructor
  · intro h
    cases answer with
    | ok v => cases h
    | error fault' =>
      have hne : ∀ v, fault' ≠ .nonFiniteValue v := by
        rintro v rfl
        cases h
      cases (readValue.eq_3 fault' hne).symm.trans h
      exact ⟨rfl, hne⟩
  · rintro ⟨rfl, hne⟩
    exact readValue.eq_3 fault hne

/-- A trial stops at any other failure. -/
theorem readSlope_eq_error_iff {answer : Except (Fault α) (List α)} {stop : Stop α}
    (hinner : ∀ g, answer = .ok g → ∃ s, A.inner g d = some s) :
    readSlope A d answer = .error stop ↔
      ∃ fault, stop = .fault fault ∧ answer = .error fault ∧
        ∀ index a reason, fault ≠ .invalidGradient index a reason := by
  constructor
  · intro h
    cases answer with
    | ok g =>
      obtain ⟨s, hs⟩ := hinner g rfl
      rw [readSlope, hs] at h
      cases h
    | error fault' =>
      have hne : ∀ index a reason, fault' ≠ .invalidGradient index a reason := by
        rintro index a reason rfl
        cases h
      cases (readSlope.eq_3 A d fault' hne).symm.trans h
      exact ⟨fault', rfl, rfl, hne⟩
  · rintro ⟨fault, rfl, rfl, hne⟩
    exact readSlope.eq_3 A d fault hne

theorem perform_trialValue {answer : Except (Fault α) α}
    (h : (o.value x).perform j = (answer.mapError .fault, j')) :
    (trialValue o x).perform j = ((readValue answer).mapError .fault, j') := by
  rw [trialValue, Run.perform_bind, Run.perform_attempt, h]
  cases answer with
  | error fault => cases fault <;> rfl
  | ok v => rfl

theorem perform_trialSlope {answer : Except (Fault α) (List α)}
    (h : (o.gradient x).perform j = (answer.mapError .fault, j')) :
    (trialSlope A o x d).perform j = (readSlope A d answer, j') := by
  rw [trialSlope, Run.perform_bind, Run.perform_attempt, h]
  cases answer with
  | error fault => cases fault <;> rfl
  | ok g =>
    change (Run.ofOption (A.inner g d) >>= _).perform j' = _
    rw [Run.perform_bind, readSlope]
    cases A.inner g d <;> rfl

theorem perform_trialValue_of_ok {v : α} (h : (o.value x).perform j = (.ok v, j'))
    (hfinite : Scalar.isFinite v = true) :
    (trialValue o x).perform j = (.ok (some v), j') := by
  have hanswer : (o.value x).perform j =
      ((.ok v : Except (Fault α) α).mapError .fault, j') := h
  rw [perform_trialValue hanswer, readValue, if_pos hfinite]
  rfl

theorem perform_trialSlope_of_ok {g : List α} {s : α}
    (h : (o.gradient x).perform j = (.ok g, j')) (hs : A.inner g d = some s)
    (hfinite : Scalar.isFinite s = true) :
    (trialSlope A o x d).perform j = (.ok (some s), j') := by
  have hanswer : (o.gradient x).perform j =
      ((.ok g : Except (Fault α) (List α)).mapError .fault, j') := h
  rw [perform_trialSlope hanswer, readSlope, hs]
  dsimp only
  rw [if_pos hfinite]

end QuasiNewton.LineSearch
