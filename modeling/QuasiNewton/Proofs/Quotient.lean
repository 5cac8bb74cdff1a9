import QuasiNewton.Proofs.Halving

/-!
# Quotients of doubles

Where a quotient overflows. The exact quotient is cut off at the exponent that belongs to it
(`Cut`), its mantissa is rounded to even, and a carry raises the exponent. What comes of this is
infinite exactly if the exact quotient is at least half a unit beyond the largest double
(`Cut.lt_overflow_iff`). A numerator above `1e-10` leaves no room for an underflow, so that the
quotient is finite and positive unless an operand is infinite or the quotient overflows
(`isFinite_div_and_pos_iff`).
-/

namespace QuasiNewton.Double

open Float.Model
open UnpackedFloat (Sign ExtendedMantissa Accuracy)

/-! ### Mantissas in half units -/

/-- The mantissa with its round bit. The bits below take part in rounding only to break ties. -/
def halves (em : ExtendedMantissa) : ℕ :=
  2 * em.mantissa + em.roundBit.toNat

theorem halves_div_two (em : ExtendedMantissa) : halves em / 2 = em.mantissa := by
  have hbit := em.roundBit.toNat_lt
  rw [halves]
  omega

theorem halves_shiftRightOne (em : ExtendedMantissa) :
    halves em.shiftRightOne = halves em / 2 := by
  rw [halves_div_two, halves, ExtendedMantissa.shiftRightOne]
  rcases Nat.mod_two_eq_zero_or_one em.mantissa with h | h
  · simp [h]
    omega
  · simp [h]
    omega

theorem halves_shiftRight (em : ExtendedMantissa) (k : ℕ) :
    halves (em >>> k) = halves em / 2 ^ k := by
  change halves (k.repeat ExtendedMantissa.shiftRightOne em) = _
  induction k with
  | zero => simp [Nat.repeat]
  | succ k ih =>
    rw [Nat.repeat, halves_shiftRightOne, ih, Nat.div_div_eq_div_mul, Nat.pow_succ]

/-- What is shifted out is less than one of the half units that are left. -/
theorem halves_shiftRight_bounds (em : ExtendedMantissa) (k : ℕ) :
    (halves (em >>> k) : ℚ) * 2 ^ k ≤ halves em ∧
      (halves em + 1 : ℚ) ≤ (halves (em >>> k) + 1) * 2 ^ k := by
  rw [halves_shiftRight]
  constructor
  · exact_mod_cast Nat.div_mul_le_self (halves em) (2 ^ k)
  · exact_mod_cast Nat.lt_mul_of_div_lt (Nat.lt_succ_self _) (Nat.two_pow_pos k)

theorem mantissa_ofMantissaAndAccuracy (m : ℕ) (acc : Accuracy) :
    (ExtendedMantissa.ofMantissaAndAccuracy m acc).mantissa = m := by
  rcases acc with _ | _ | _ | _ <;> rfl

theorem roundedMantissa_bounds (em : ExtendedMantissa) :
    em.mantissa ≤ em.roundedMantissa ∧ em.roundedMantissa ≤ em.mantissa + 1 := by
  rcases em with ⟨m, _ | _, _ | _⟩
  · exact ⟨le_rfl, Nat.le_succ m⟩
  · exact ⟨le_rfl, Nat.le_succ m⟩
  · have hmod : m % 2 ≤ 1 := Nat.le_of_lt_succ (m.mod_lt Nat.two_pos)
    exact ⟨Nat.le_add_right m (m % 2), Nat.add_le_add_left hmod m⟩
  · exact ⟨Nat.le_succ m, le_rfl⟩

/-- Ties are rounded to even, so an even number is reached from half a unit below it. -/
theorem le_roundedMantissa_iff (em : ExtendedMantissa) {N : ℕ} (hN : Even N) :
    N ≤ em.roundedMantissa ↔ 2 * N ≤ halves em + 1 := by
  obtain ⟨n, rfl⟩ := hN
  rcases em with ⟨m, _ | _, _ | _⟩
  · change n + n ≤ m ↔ 2 * (n + n) ≤ 2 * m + 0 + 1
    omega
  · change n + n ≤ m ↔ 2 * (n + n) ≤ 2 * m + 0 + 1
    omega
  · change n + n ≤ m + m % 2 ↔ 2 * (n + n) ≤ 2 * m + 1 + 1
    omega
  · change n + n ≤ m + 1 ↔ 2 * (n + n) ≤ 2 * m + 1 + 1
    omega

/-! ### Cutting off and rounding -/

/-- An exact number cut off at an exponent. The mantissa has its full width, unless the exponent is
the least one, and it is not zero. -/
structure Cut (x : ℚ) (em : ExtendedMantissa) (t : ℤ) : Prop where
  least_le : -1074 ≤ t
  mantissa_pos : 0 < em.mantissa
  mantissa_lt : em.mantissa < 2 ^ 53
  full : t = -1074 ∨ 2 ^ 52 ≤ em.mantissa
  le : halves em * (2 : ℚ) ^ (t - 1) ≤ x
  lt : x < (halves em + 1) * (2 : ℚ) ^ (t - 1)

/-- The width of a mantissa that is shifted to its exponent. -/
theorem shifted_bounds {m k : ℕ} {e : ℤ} (hm : 0 < m)
    (hk : e + k = Format.binary64.targetExponent (totalExponent m e))
    (hleast : -1074 < totalExponent m e) :
    0 < m / 2 ^ k ∧ m / 2 ^ k < 2 ^ 53 ∧ (e + k = -1074 ∨ 2 ^ 52 ≤ m / 2 ^ k) := by
  have htarget : e + (k : ℤ) = max ((m.log2 : ℤ) + 1 + e - 53) (-1074) := hk
  have htotal : -1074 < (m.log2 : ℤ) + 1 + e := hleast
  obtain ⟨hle, hlt⟩ := (Nat.log2_eq_iff hm.ne').mp rfl
  have hwide {w : ℕ} (hw : w ≤ m.log2) : 2 ^ w ≤ m :=
    (Nat.pow_le_pow_right Nat.two_pos hw).trans hle
  refine ⟨?_, ?_, ?_⟩
  · exact Nat.div_pos (hwide (by omega)) (Nat.two_pow_pos k)
  · rw [Nat.div_lt_iff_lt_mul (Nat.two_pow_pos k), ← Nat.pow_add]
    exact hlt.trans_le (Nat.pow_le_pow_right Nat.two_pos (by omega))
  · by_cases hbottom : e + (k : ℤ) = -1074
    · exact Or.inl hbottom
    · rw [Nat.le_div_iff_mul_le (Nat.two_pow_pos k), ← Nat.pow_add]
      exact Or.inr (hwide (by omega))

/-- The first shift of a rounding cuts off at the exponent that belongs to the number. -/
theorem exists_cut {m : ℕ} {e : ℤ} {acc : Accuracy} {x : ℚ} (hm : 0 < m)
    (he : e ≤ Format.binary64.targetExponent (totalExponent m e))
    (hleast : -1074 < totalExponent m e)
    (hle : halves (.ofMantissaAndAccuracy m acc) * (2 : ℚ) ^ (e - 1) ≤ x)
    (hlt : x < (halves (.ofMantissaAndAccuracy m acc) + 1) * (2 : ℚ) ^ (e - 1)) :
    ∃ em t, UnpackedFloat.shiftToTargetExponent .binary64 m e acc = (em, t) ∧ Cut x em t := by
  obtain ⟨k, hk⟩ := Int.le.dest he
  obtain ⟨em, hem⟩ : ∃ em, em = ExtendedMantissa.ofMantissaAndAccuracy m acc := ⟨_, rfl⟩
  rw [← hem] at hle hlt
  have hshift : UnpackedFloat.shiftToTargetExponent .binary64 m e acc = (em >>> k, e + k) := by
    rw [UnpackedFloat.shiftToTargetExponent, ← hk, UnpackedFloat.shiftToExponent, hem,
      add_sub_cancel_left, Int.toNat_natCast]
  have hmantissa : (em >>> k).mantissa = m / 2 ^ k := by
    rw [← halves_div_two, halves_shiftRight, Nat.div_right_comm, halves_div_two, hem,
      mantissa_ofMantissaAndAccuracy]
  have hpow : (2 : ℚ) ^ (e + k - 1) = 2 ^ k * 2 ^ (e - 1) := by
    rw [← zpow_natCast, ← zpow_add₀ two_ne_zero]
    congr 1
    omega
  obtain ⟨hpos, hwidth, hfull⟩ := shifted_bounds hm hk hleast
  obtain ⟨hfloor, hceil⟩ := halves_shiftRight_bounds em k
  rw [← hmantissa] at hpos hwidth hfull
  refine ⟨_, _, hshift, hk ▸ le_max_right _ _, hpos, hwidth, hfull, ?_, ?_⟩
  · calc _ = (halves (em >>> k) : ℚ) * 2 ^ k * 2 ^ (e - 1) := by rw [hpow, mul_assoc]
      _ ≤ halves em * 2 ^ (e - 1) := by gcongr
      _ ≤ x := hle
  · calc x < (halves em + 1) * (2 : ℚ) ^ (e - 1) := hlt
      _ ≤ (halves (em >>> k) + 1) * 2 ^ k * 2 ^ (e - 1) := by gcongr
      _ = _ := by rw [hpow, mul_assoc]

/-- Half a unit beyond the largest double, midway between this and `2 ^ 1024`. -/
def overflow : ℚ :=
  (2 ^ 54 - 1) * 2 ^ (970 : ℤ)

theorem overflow_pos : 0 < overflow := by
  rw [overflow]
  positivity

namespace Cut

variable {x : ℚ} {em : ExtendedMantissa} {t : ℤ}

theorem lt_overflow_of_lt (h : Cut x em t) (ht : t < 971) : x < overflow := by
  have hpow : (2 : ℚ) ^ (t - 1) ≤ 2 ^ (969 : ℤ) := zpow_le_zpow_right₀ one_le_two (by omega)
  have hwidth : (halves em + 1 : ℚ) ≤ 2 ^ 54 := by
    have hlt := h.mantissa_lt
    rw [← halves_div_two] at hlt
    exact_mod_cast (show halves em + 1 ≤ 2 ^ 54 by omega)
  calc x < (halves em + 1) * (2 : ℚ) ^ (t - 1) := h.lt
    _ ≤ 2 ^ 54 * 2 ^ (969 : ℤ) := by gcongr
    _ ≤ (2 ^ 54 - 1) * 2 * 2 ^ (969 : ℤ) := by
      gcongr
      norm_num
    _ = overflow := by
      rw [mul_assoc, ← zpow_one_add₀ two_ne_zero]
      rfl

theorem overflow_le_of_lt (h : Cut x em t) (ht : 971 < t) : overflow ≤ x := by
  have hpow : (2 : ℚ) ^ (971 : ℤ) ≤ 2 ^ (t - 1) := zpow_le_zpow_right₀ one_le_two (by omega)
  have hfull : (2 ^ 53 : ℚ) ≤ halves em := by
    have hmantissa := h.full
    rw [← halves_div_two] at hmantissa
    exact_mod_cast (show 2 ^ 53 ≤ halves em by omega)
  calc overflow ≤ 2 ^ 53 * 2 * 2 ^ (970 : ℤ) := by
        rw [overflow]
        gcongr
        norm_num
    _ = 2 ^ 53 * 2 ^ (971 : ℤ) := by
      rw [mul_assoc, ← zpow_one_add₀ two_ne_zero]
      rfl
    _ ≤ halves em * 2 ^ (t - 1) := by gcongr
    _ ≤ x := h.le

/-- At the exponent of the largest double it is the rounded mantissa that decides. -/
theorem lt_overflow_iff_of_eq (h : Cut x em 971) :
    x < overflow ↔ em.roundedMantissa < 2 ^ 53 := by
  have hcarry := le_roundedMantissa_iff em (N := 2 ^ 53) (by decide)
  have hle := h.le
  have hlt := h.lt
  rw [overflow, ← not_le, ← not_le, not_iff_not, hcarry]
  constructor
  · intro hx
    have hpow : (0 : ℚ) < 2 ^ (970 : ℤ) := zpow_pos two_pos 970
    have hwidth : (2 ^ 54 - 1 : ℚ) < halves em + 1 :=
      lt_of_mul_lt_mul_right (hx.trans_lt hlt) hpow.le
    rw [sub_lt_iff_lt_add] at hwidth
    have : 2 ^ 54 < halves em + 1 + 1 := by exact_mod_cast hwidth
    omega
  · intro hr
    have hwidth : (2 ^ 54 - 1 : ℚ) ≤ halves em := by
      rw [sub_le_iff_le_add]
      exact_mod_cast hr
    calc _ ≤ halves em * (2 : ℚ) ^ (970 : ℤ) := by gcongr
      _ ≤ x := hle

theorem lt_overflow_iff (h : Cut x em t) :
    x < overflow ↔ t < 971 ∨ t = 971 ∧ em.roundedMantissa < 2 ^ 53 := by
  rcases lt_trichotomy t 971 with ht | rfl | ht
  · exact iff_of_true (h.lt_overflow_of_lt ht) (Or.inl ht)
  · rw [h.lt_overflow_iff_of_eq]
    simp
  · exact iff_of_false (not_lt.mpr (h.overflow_le_of_lt ht)) (by omega)

variable {m : ℕ} {e : ℤ} {acc : Accuracy}

theorem round_of_lt (h : Cut x em t)
    (hcut : UnpackedFloat.shiftToTargetExponent .binary64 m e acc = (em, t))
    (hr : em.roundedMantissa < 2 ^ 53) (s : Sign) :
    UnpackedFloat.roundWithAccuracy .binary64 s m e acc =
      .finite s em.roundedMantissa t (h.mantissa_pos.trans_le (roundedMantissa_bounds em).1) := by
  have hpos := h.mantissa_pos.trans_le (roundedMantissa_bounds em).1
  rw [UnpackedFloat.roundWithAccuracy, hcut]
  simp only [shiftToTargetExponent_of_lt hr h.least_le, hpos.ne', dite_false]

/-- A mantissa that is rounded up to the next power of two raises the exponent. -/
theorem round_of_carry (h : Cut x em t)
    (hcut : UnpackedFloat.shiftToTargetExponent .binary64 m e acc = (em, t))
    (hr : ¬ em.roundedMantissa < 2 ^ 53) (s : Sign) :
    UnpackedFloat.roundWithAccuracy .binary64 s m e acc =
      .finite s (2 ^ 52) (t + 1) (Nat.two_pow_pos 52) := by
  have hleast := h.least_le
  have heq : em.roundedMantissa = 2 ^ 52 * 2 ^ 1 := by
    have hle := (roundedMantissa_bounds em).2
    have hlt := h.mantissa_lt
    omega
  have htarget : Format.binary64.targetExponent (totalExponent (2 ^ 52) (t + 1)) = t + 1 := by
    change max (((2 ^ 52).log2 : ℤ) + 1 + (t + 1) - 53) (-1074) = t + 1
    rw [Nat.log2_two_pow]
    omega
  have hshift := shiftToTargetExponent_mul_two_pow htarget (Nat.two_pow_pos 52) 1
  rw [Nat.cast_one, add_sub_cancel_right, ← heq] at hshift
  rw [UnpackedFloat.roundWithAccuracy, hcut]
  simp only [hshift, (Nat.two_pow_pos 52).ne', dite_false]

/-- The number that was cut off, rounded and packed: finite, or infinite, but never zero. -/
theorem unpack_pack_round (h : Cut x em t)
    (hcut : UnpackedFloat.shiftToTargetExponent .binary64 m e acc = (em, t)) (s : Sign) :
    x < overflow ∧
      (∃ m' e' hm', (pack (UnpackedFloat.roundWithAccuracy .binary64 s m e acc)).unpack =
        .finite s m' e' hm') ∨
    overflow ≤ x ∧
      (pack (UnpackedFloat.roundWithAccuracy .binary64 s m e acc)).unpack = .infinity s := by
  have hfull := h.full
  have hleast := h.least_le
  have hle := (roundedMantissa_bounds em).1
  have hpos := h.mantissa_pos.trans_le hle
  rw [← not_lt, h.lt_overflow_iff]
  by_cases hr : em.roundedMantissa < 2 ^ 53
  · rw [h.round_of_lt hcut hr]
    by_cases ht : t ≤ 971
    · have hlog : em.roundedMantissa.log2 < 53 := (Nat.log2_lt hpos.ne').mpr hr
      refine Or.inl ⟨by omega, _, _, hpos, unpack_pack hpos ?_ ht s⟩
      rcases hfull with rfl | hwide
      · omega
      · have hnormal := (Nat.le_log2 hpos.ne').mpr (hwide.trans hle)
        omega
    · exact Or.inr ⟨by omega, unpack_pack_of_lt hpos (not_le.mp ht) s⟩
  · rw [h.round_of_carry hcut hr]
    by_cases ht : t + 1 ≤ 971
    · refine Or.inl ⟨by omega, _, _, Nat.two_pow_pos 52, unpack_pack _ ?_ ht s⟩
      rw [Nat.log2_two_pow]
      omega
    · exact Or.inr ⟨by omega, unpack_pack_of_lt _ (not_le.mp ht) s⟩

end Cut

/-! ### Quotients -/

theorem log2_le_log2_div (m : ℕ) {d : ℕ} (hd : 0 < d) : m.log2 ≤ (m / d).log2 + d.log2 + 1 := by
  obtain rfl | hm := Nat.eq_zero_or_pos m
  · simp
  have hlt : m < 2 ^ ((m / d).log2 + 1 + (d.log2 + 1)) := by
    calc m < (m / d + 1) * d := Nat.lt_mul_of_div_lt (Nat.lt_succ_self _) hd
      _ ≤ 2 ^ ((m / d).log2 + 1) * 2 ^ (d.log2 + 1) := by
        gcongr
        · exact Nat.lt_log2_self
        · exact Nat.lt_log2_self.le
      _ = _ := (Nat.pow_add ..).symm
  have hlog := (Nat.log2_lt hm.ne').mpr hlt
  omega

theorem div_pos_of_log2_lt {m d : ℕ} (hd : 0 < d) (h : d.log2 < m.log2) : 0 < m / d := by
  have hm : m ≠ 0 := by
    rintro rfl
    exact Nat.not_lt_zero _ h
  have hlt : d < m := by
    calc d < 2 ^ (d.log2 + 1) := Nat.lt_log2_self
      _ ≤ 2 ^ m.log2 := Nat.pow_le_pow_right Nat.two_pos h
      _ ≤ m := Nat.log2_self_le hm
  exact Nat.div_pos hlt.le hd

/-- The quotient with the bit that tells whether the remainder is at least half the divisor. -/
theorem halves_ofMantissaAndAccuracy_div (m : ℕ) {d : ℕ} (hd : 0 < d) :
    halves (.ofMantissaAndAccuracy (m / d) (UnpackedFloat.accuracyOfFraction (m % d) d)) =
      2 * m / d := by
  have hquotient : 2 * m / d = 2 * (m / d) + 2 * (m % d) / d := by
    rw [← Nat.mul_add_div hd, Nat.mul_left_comm, ← Nat.mul_add, Nat.div_add_mod]
  have hbit : 2 * (m % d) / d = if d ≤ 2 * (m % d) then 1 else 0 := by
    have hmod := Nat.mod_lt m hd
    split
    · exact Nat.div_eq_of_lt_le (by omega) (by omega)
    · exact Nat.div_eq_of_lt (by omega)
  rw [hquotient, hbit, UnpackedFloat.accuracyOfFraction]
  split
  · rw [if_neg (by omega)]
    rfl
  · rcases h : compare (2 * (m % d)) d with _ | _ | _
    · rw [if_neg (by grind [Nat.compare_eq_lt])]
      rfl
    · rw [if_pos (by grind [Nat.compare_eq_eq])]
      rfl
    · rw [if_pos (by grind [Nat.compare_eq_gt])]
      rfl

theorem halves_div_bounds (m : ℕ) {d : ℕ} (hd : 0 < d) {h : ℕ} (hh : h = 2 * m / d) :
    (h : ℚ) ≤ 2 * m / d ∧ (2 * m / d : ℚ) < h + 1 := by
  have hfloor : ⌊(2 * m / d : ℚ)⌋₊ = h := by
    rw [hh]
    exact_mod_cast Nat.floor_div_eq_div (K := ℚ) (2 * m) d
  rw [← hfloor]
  exact ⟨Nat.floor_le (by positivity), Nat.lt_floor_add_one _⟩

/-- A numerator that is shifted to the left lowers the exponent of the quotient. -/
theorem shifted_div_eq (m₁ : ℕ) {m₂ k : ℕ} {e₁ e₂ e : ℤ} (h₂ : 0 < m₂) (hk : e + k = e₁ - e₂) :
    (2 * (m₁ * 2 ^ k : ℕ) / m₂ : ℚ) * 2 ^ (e - 1) = m₁ * 2 ^ e₁ / (m₂ * 2 ^ e₂) := by
  have hpow : (2 : ℚ) * 2 ^ k * 2 ^ (e - 1) * 2 ^ e₂ = 2 ^ e₁ := by
    rw [← zpow_natCast, ← zpow_one_add₀ two_ne_zero, ← zpow_add₀ two_ne_zero,
      ← zpow_add₀ two_ne_zero]
    congr 1
    omega
  have hm₂ : (m₂ : ℚ) ≠ 0 := Nat.cast_ne_zero.mpr h₂.ne'
  rw [div_mul_eq_mul_div, div_eq_div_iff hm₂ (by positivity)]
  push_cast
  linear_combination (m₁ * m₂ : ℚ) * hpow

/-- A quotient that is not too small, cut off where division cuts it off. -/
theorem exists_cut_div {m₁ m₂ : ℕ} {e₁ e₂ : ℤ} (h₁ : 0 < m₁) (h₂ : 0 < m₂)
    (hleast : -1074 < totalExponent m₁ e₁ - totalExponent m₂ e₂) :
    ∃ m e acc em t, UnpackedFloat.divCore .binary64 m₁ e₁ m₂ e₂ = (m, e, acc) ∧
      UnpackedFloat.shiftToTargetExponent .binary64 m e acc = (em, t) ∧
      Cut (m₁ * 2 ^ e₁ / (m₂ * 2 ^ e₂)) em t := by
  obtain ⟨e, he⟩ : ∃ e, e = min (e₁ - e₂) (Format.binary64.targetExponent
    (totalExponent m₁ e₁ - totalExponent m₂ e₂)) := ⟨_, rfl⟩
  obtain ⟨k, hk⟩ := Int.le.dest (he.trans_le (min_le_left _ _))
  have hexact := shifted_div_eq m₁ h₂ hk
  have hlog : (m₁ * 2 ^ k).log2 = m₁.log2 + k := log2_mul_two_pow h₁ k
  have hcore : UnpackedFloat.divCore .binary64 m₁ e₁ m₂ e₂ = (m₁ * 2 ^ k / m₂, e,
      UnpackedFloat.accuracyOfFraction (m₁ * 2 ^ k % m₂) m₂) := by
    rw [UnpackedFloat.divCore, ← he, ← hk, add_sub_cancel_left, Int.toNat_natCast,
      Nat.shiftLeft_eq]
  generalize m₁ * 2 ^ k = m at hexact hlog hcore
  have htarget : e ≤ max ((m₁.log2 : ℤ) + 1 + e₁ - (m₂.log2 + 1 + e₂) - 53) (-1074) :=
    he.trans_le (min_le_right _ _)
  have htotal : -1074 < (m₁.log2 : ℤ) + 1 + e₁ - (m₂.log2 + 1 + e₂) := hleast
  have hpos : 0 < m / m₂ := div_pos_of_log2_lt h₂ (by omega)
  -- a quotient has at most one bit less than the exponents promise
  have hbits := log2_le_log2_div m h₂
  have hready : e ≤ max (((m / m₂).log2 : ℤ) + 1 + e - 53) (-1074) := by omega
  have hlarge : -1074 < ((m / m₂).log2 : ℤ) + 1 + e := by omega
  obtain ⟨hle, hlt⟩ := halves_div_bounds m h₂ (halves_ofMantissaAndAccuracy_div m h₂)
  obtain ⟨em, t, hcut, h⟩ := exists_cut hpos hready hlarge
    (mul_le_mul_of_nonneg_right hle (by positivity)) (mul_lt_mul_of_pos_right hlt (by positivity))
  rw [hexact] at h
  exact ⟨_, _, _, em, t, hcore, hcut, h⟩

/-- A finite number as it is, and zero for the others. -/
def value (x : Float) : ℚ :=
  match x.toModel.unpack with
  | .finite s m e _ => s.apply m * 2 ^ e
  | _ => 0

theorem value_eq {c : Float} {m : ℕ} {e : ℤ} {hm : 0 < m}
    (hc : c.toModel.unpack = .finite .positive m e hm) : value c = m * 2 ^ e := by
  rw [value, hc]
  rfl

theorem value_pos {c : Float} {m : ℕ} {e : ℤ} {hm : 0 < m}
    (hc : c.toModel.unpack = .finite .positive m e hm) : 0 < value c := by
  rw [value_eq hc]
  positivity

theorem isFinite_and_pos_iff {a : Float} :
    a.isFinite = true ∧ 0.0 < a ↔ ∃ m e h, a.toModel.unpack = .finite .positive m e h := by
  constructor
  · rintro ⟨hfinite, hpos⟩
    exact exists_unpack_of_pos hpos hfinite
  · rintro ⟨m, e, hm, ha⟩
    change a.toModel.unpack.isFinite = true ∧ _
    rw [lt_iff, ha]
    exact ⟨rfl, _, _, rfl, rfl, by simp [Prod.Lex.toLex_lt_toLex]⟩

/-- What exceeds the least curvature is infinite, or has a mantissa of full width. -/
theorem unpack_of_lt {c : Float} (hc : 1e-10 < c) :
    c.toModel.unpack = .infinity .positive ∨
      ∃ m e h, c.toModel.unpack = .finite .positive m e h ∧ m.log2 = 52 ∧ -86 ≤ e := by
  have hleast : (1e-10 : Float).toModel.unpack =
    .finite .positive 7737125245533627 (-86) (by decide) := rfl
  obtain ⟨a, b, ha, hb, hab⟩ := lt_iff.mp hc
  rw [hleast] at ha
  obtain rfl := Option.some.inj ha
  rcases h : c.toModel.unpack with ⟨_ | _⟩ | _ | _ | ⟨_ | _, m, e, hm⟩ <;> rw [h] at hb
  case infinity.positive => exact Or.inl rfl
  case finite.positive =>
    obtain rfl := Option.some.inj hb
    have hlog := log2_mantissa h
    have he : -86 ≤ e := by
      simp only [Prod.Lex.toLex_lt_toLex] at hab
      omega
    exact Or.inr ⟨m, e, hm, rfl, by omega, he⟩
  all_goals
    cases hb <;> simp [Prod.Lex.toLex_lt_toLex] at hab

/-- Division by a finite number, where the quotient is not too small. -/
theorem unpack_div {c q : Float} {s : Sign} {m₁ m₂ : ℕ} {e₁ e₂ : ℤ} {h₁ : 0 < m₁} {h₂ : 0 < m₂}
    (hc : c.toModel.unpack = .finite .positive m₁ e₁ h₁)
    (hq : q.toModel.unpack = .finite s m₂ e₂ h₂)
    (hleast : -1074 < totalExponent m₁ e₁ - totalExponent m₂ e₂) :
    m₁ * 2 ^ e₁ / (m₂ * 2 ^ e₂) < overflow ∧
      (∃ m e h, (c / q).toModel.unpack = .finite s m e h) ∨
    overflow ≤ m₁ * 2 ^ e₁ / (m₂ * 2 ^ e₂) ∧ (c / q).toModel.unpack = .infinity s := by
  obtain ⟨m, e, acc, em, t, hcore, hcut, h⟩ := exists_cut_div h₁ h₂ hleast
  have hsign : Sign.positive / s = s := by cases s <;> rfl
  have hdiv : (c / q).toModel.unpack =
      (pack (UnpackedFloat.roundWithAccuracy .binary64 s m e acc)).unpack := by
    change (pack (c.toModel.unpack.div .binary64 q.toModel.unpack)).unpack = _
    rw [hc, hq, UnpackedFloat.div, hcore, hsign]
  rw [hdiv]
  exact h.unpack_pack_round hcut s

theorem unpack_pack_infinity (s : Sign) : (pack (.infinity s)).unpack = .infinity s := by
  cases s <;> rfl

theorem unpack_pack_zero (s : Sign) : (pack (.zero s)).unpack = .zero s := by
  cases s <;> rfl

theorem unpack_pack_notANumber : (pack .notANumber).unpack = .notANumber := rfl

/-- The quotient of two finite numbers, where it is not too small, is finite and positive exactly if
the divisor is positive and the exact quotient does not overflow. -/
theorem exists_unpack_div_iff {c q : Float} {s : Sign} {m₁ m₂ : ℕ} {e₁ e₂ : ℤ} {h₁ : 0 < m₁}
    {h₂ : 0 < m₂} (hc : c.toModel.unpack = .finite .positive m₁ e₁ h₁)
    (hq : q.toModel.unpack = .finite s m₂ e₂ h₂)
    (hleast : -1074 < totalExponent m₁ e₁ - totalExponent m₂ e₂) :
    (∃ m e h, (c / q).toModel.unpack = .finite .positive m e h) ↔
      value c < overflow * value q := by
  have hcases := unpack_div hc hq hleast
  cases s with
  | negative =>
    have hneg : value q ≤ 0 := by
      rw [value, hq]
      change ((-(m₂ : ℤ) : ℤ) : ℚ) * 2 ^ e₂ ≤ 0
      rw [Int.cast_neg, neg_mul, neg_nonpos]
      positivity
    have hle : overflow * value q ≤ 0 := mul_nonpos_of_nonneg_of_nonpos overflow_pos.le hneg
    refine iff_of_false ?_ (hle.trans (value_pos hc).le).not_gt
    rintro ⟨m, e, hm, h⟩
    obtain ⟨-, _, _, _, h'⟩ | ⟨-, h'⟩ := hcases <;> cases h.symm.trans h'
  | positive =>
    have hpos := value_pos hq
    rw [← value_eq hc, ← value_eq hq, div_lt_iff₀ hpos, le_div_iff₀ hpos] at hcases
    obtain ⟨hlt, h⟩ | ⟨hle, h⟩ := hcases
    · exact iff_of_true h hlt
    · refine iff_of_false ?_ hle.not_gt
      rintro ⟨m, e, hm, h'⟩
      cases h.symm.trans h'

/-- A numerator that exceeds the least curvature has a quotient that is finite and positive, unless
an operand is infinite or undefined or the exact quotient overflows. -/
theorem isFinite_div_and_pos_iff {c q : Float} (hc : 1e-10 < c) :
    (c / q).isFinite = true ∧ 0.0 < c / q ↔
      c.isFinite = true ∧ q.isFinite = true ∧ value c < overflow * value q := by
  have hdiv : (c / q).toModel.unpack =
      (pack (c.toModel.unpack.div .binary64 q.toModel.unpack)).unpack := rfl
  have hfinite (x : Float) : x.isFinite = true ↔ x.toModel.unpack.isFinite = true := Iff.rfl
  rw [isFinite_and_pos_iff, hfinite c, hfinite q]
  obtain hc' | ⟨m₁, e₁, h₁, hc', hlog, he⟩ := unpack_of_lt hc
  · rw [hdiv, hc']
    cases q.toModel.unpack <;>
      simp [UnpackedFloat.div, UnpackedFloat.isFinite, unpack_pack_infinity, unpack_pack_notANumber]
  · cases hq : q.toModel.unpack with
    | infinity s =>
      rw [hdiv, hc', hq]
      simp [UnpackedFloat.div, UnpackedFloat.isFinite, unpack_pack_zero]
    | notANumber =>
      rw [hdiv, hc', hq]
      simp [UnpackedFloat.div, UnpackedFloat.isFinite, unpack_pack_notANumber]
    | zero s =>
      have hzero : value q = 0 := by rw [value, hq]
      rw [hdiv, hc', hq, hzero, mul_zero]
      simp [UnpackedFloat.div, unpack_pack_infinity, (value_pos hc').le]
    | finite s m₂ e₂ h₂ =>
      have hlog₂ := log2_mantissa hq
      have he₂ := exponent_le hq
      have hleast : -1074 < totalExponent m₁ e₁ - totalExponent m₂ e₂ := by
        rw [totalExponent, totalExponent]
        omega
      rw [exists_unpack_div_iff hc' hq hleast, hc']
      simp [UnpackedFloat.isFinite]

theorem one_lt_overflow_mul {m : ℕ} {e : ℤ} (hm : 0 < m) (he : -86 ≤ e) :
    1 < overflow * (m * 2 ^ e) := by
  have hm' : (1 : ℚ) ≤ m := Nat.one_le_cast.mpr hm
  have he' : (2 : ℚ) ^ (-86 : ℤ) ≤ 2 ^ e := zpow_le_zpow_right₀ one_le_two he
  calc (1 : ℚ) < 2 ^ (884 : ℤ) := one_lt_zpow₀ one_lt_two (by decide)
    _ = 1 * 2 ^ (970 : ℤ) * (1 * 2 ^ (-86 : ℤ)) := by
      rw [one_mul, one_mul, ← zpow_add₀ two_ne_zero]
      rfl
    _ ≤ overflow * (m * 2 ^ e) := by
      rw [overflow]
      gcongr
      norm_num

/-- The inverse of a number that exceeds the least curvature is positive, or the zero that comes of
infinity. -/
theorem one_div_of_lt {c : Float} (hc : 1e-10 < c) :
    (1.0 / c).isFinite = true ∧ (c.isFinite = true ∧ 0.0 < 1.0 / c ∨
      c.isFinite = false ∧ 1.0 / c = 0.0) := by
  have hfinite : c.isFinite = c.toModel.unpack.isFinite := rfl
  obtain hc' | ⟨m, e, hm, hc', -, he⟩ := unpack_of_lt hc
  · have hzero : 1.0 / c = 0.0 := by
      change Float.ofModel (pack ((1.0 : Float).toModel.unpack.div .binary64 c.toModel.unpack)) = _
      rw [hc']
      rfl
    rw [hfinite, hc', hzero]
    exact ⟨rfl, Or.inr ⟨rfl, rfl⟩⟩
  · have hone : value 1.0 = 1 := by
      rw [value, show (1.0 : Float).toModel.unpack = .finite .positive (2 ^ 52) (-52) (by decide)
        from rfl]
      norm_num [Sign.apply]
    have hlt : value 1.0 < overflow * value c := by
      rw [hone, value_eq hc']
      exact one_lt_overflow_mul hm he
    have hc'' : c.isFinite = true := by rw [hfinite, hc']; rfl
    obtain ⟨h, hpos⟩ := (isFinite_div_and_pos_iff (by decide +kernel)).mpr ⟨rfl, hc'', hlt⟩
    exact ⟨h, Or.inl ⟨hc'', hpos⟩⟩

end QuasiNewton.Double
