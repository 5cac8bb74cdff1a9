import QuasiNewton.Proofs.Double

/-!
# Halves of doubles

Half of a positive number that is finite lies strictly below it (`half_lt`). Where the mantissa has
its leading bit, and the exponent is not the least one, halving lowers the exponent and is exact;
among the least numbers the mantissa is halved and rounded to even, which may be zero but is not the
mantissa itself.
-/

namespace QuasiNewton.Double

open Float.Model
open UnpackedFloat (Sign ExtendedMantissa)

/-! ### Packing -/

/-- The leading bit is not packed, and is put back. -/
theorem toNat_leading_append {m : ℕ} (hm : 0 < m) (hlog : m.log2 = 52) :
    (1#1 ++ BitVec.ofNat 52 m).toNat = m := by
  obtain ⟨hle, hlt⟩ := (Nat.log2_eq_iff hm.ne').mp hlog
  rw [BitVec.toNat_append, ← Nat.shiftLeft_add_eq_or_of_lt (BitVec.isLt _), BitVec.toNat_ofNat,
    Nat.shiftLeft_eq]
  change 1 * 2 ^ 52 + m % 2 ^ 52 = m
  omega

/-- A number whose fields are those of a double is found again when it is packed. -/
theorem unpack_pack {m : ℕ} {e : ℤ} (hm : 0 < m)
    (hlog : m.log2 < 52 ∧ e = -1074 ∨ m.log2 = 52 ∧ -1074 ≤ e) (he : e ≤ 971) (s : Sign) :
    (pack (.finite s m e hm)).unpack = .finite s m e hm := by
  change UnpackedFloat.unpack .binary64 (UnpackedFloat.pack .binary64 (.finite s m e hm)) = _
  have hbias : Format.binary64.exponentBias = 1023 := rfl
  have hbits : Format.binary64.mantissaBits = 53 := rfl
  rcases hlog with ⟨hlog, rfl⟩ | ⟨hlog, hle⟩
  · have hmantissa : (BitVec.ofNat 52 m).toNat = m :=
      Nat.mod_eq_of_lt ((Nat.log2_lt hm.ne').mp hlog)
    have hne : BitVec.ofNat 52 m ≠ 0#52 := by
      intro h
      rw [h] at hmantissa
      exact hm.ne hmantissa
    have hsubnormal : ¬ m.log2 + 1 = 53 := by omega
    simp [UnpackedFloat.pack, UnpackedFloat.unpack, hbits, hbias, hsubnormal, hne, hmantissa]
  · obtain ⟨b, hb⟩ : ∃ b, (e + 1023 + 52).toNat = b := ⟨_, rfl⟩
    have hfits : ¬ 2047 ≤ b := by omega
    have hexponent : (BitVec.ofNat 11 b).toNat = b := Nat.mod_eq_of_lt (by omega)
    have hones : BitVec.ofNat 11 b ≠ 2047#11 := by
      intro h
      rw [h] at hexponent
      change 2047 = b at hexponent
      omega
    have hzero : BitVec.ofNat 11 b ≠ 0#11 := by
      intro h
      rw [h] at hexponent
      change 0 = b at hexponent
      omega
    have hnormal : m.log2 + 1 = 53 := by omega
    simp [UnpackedFloat.pack, UnpackedFloat.unpack, hbits, hbias, hnormal, hb, hfits, hones, hzero,
      hexponent, toNat_leading_append hm hlog]
    omega

/-- Beyond the exponent of the largest double there is only infinity. -/
theorem unpack_pack_of_lt {m : ℕ} {e : ℤ} (hm : 0 < m) (he : 971 < e) (s : Sign) :
    (pack (.finite s m e hm)).unpack = .infinity s := by
  have hbias : Format.binary64.exponentBias = 1023 := rfl
  have hbeyond : 2047 ≤ (e + 1023 + 52).toNat := by omega
  have hinfinity : pack (.finite s m e hm) = pack (.infinity s) := by
    simp [pack, UnpackedFloat.pack, hbias, hbeyond]
  rw [hinfinity]
  cases s <;> rfl

/-- The exponent of a finite number is at most that of the largest one. -/
theorem exponent_le {b : BitVec Format.binary64.numBits} {s : Sign} {m : ℕ} {e : ℤ} {h : 0 < m}
    (hb : UnpackedFloat.unpack .binary64 b = .finite s m e h) : e ≤ 971 := by
  rw [UnpackedFloat.unpack] at hb
  split at hb
  · split at hb <;> cases hb
  · rename_i hones
    split at hb
    · rename_i hzero
      split at hb <;> cases hb
      rw [hzero]
      decide
    · cases hb
      have hlt : (UnpackedFloat.unpackExponent b).toNat < 2048 := BitVec.isLt _
      have hne : (UnpackedFloat.unpackExponent b).toNat ≠ 2047 := fun h =>
        hones (BitVec.toNat_inj.mp h)
      change (_ : ℤ) - 1075 ≤ 971
      omega

/-! ### Rounding among the least numbers -/

/-- A mantissa of at most the full width is not shifted. -/
theorem shiftToTargetExponent_of_lt {r : ℕ} {e : ℤ} (hr : r < 2 ^ 53) (he : -1074 ≤ e) :
    UnpackedFloat.shiftToTargetExponent .binary64 r e .exact = (⟨r, false, false⟩, e) := by
  have hlog : r.log2 ≤ 52 := by
    obtain rfl | hpos := r.eq_zero_or_pos
    · decide
    · exact Nat.le_of_lt_succ ((Nat.log2_lt hpos.ne').mpr hr)
  have htarget : Format.binary64.targetExponent (totalExponent r e) ≤ e := by
    change max ((r.log2 : ℤ) + 1 + e - 53) (-1074) ≤ e
    omega
  have hshift : (Format.binary64.targetExponent (totalExponent r e) - e).toNat = 0 := by omega
  rw [UnpackedFloat.shiftToTargetExponent, UnpackedFloat.shiftToExponent, hshift]
  exact Prod.ext rfl (add_zero e)

/-- The mantissa, halved and rounded to even. -/
def halfMantissa (m : ℕ) : ℕ :=
  (⟨m / 2, m % 2 != 0, false⟩ : ExtendedMantissa).roundedMantissa

theorem halfMantissa_of_even {m : ℕ} (h : m % 2 = 0) : halfMantissa m = m / 2 := by
  simp [halfMantissa, h]
  rfl

theorem halfMantissa_of_odd {m : ℕ} (h : m % 2 = 1) : halfMantissa m = m / 2 + m / 2 % 2 := by
  simp [halfMantissa, h]
  rfl

theorem halfMantissa_lt {m : ℕ} (hm : 0 < m) : halfMantissa m < m := by
  rcases Nat.mod_two_eq_zero_or_one m with h | h
  · rw [halfMantissa_of_even h]
    omega
  · rw [halfMantissa_of_odd h]
    omega

theorem eq_one_of_halfMantissa_eq_zero {m : ℕ} (hm : 0 < m) (hzero : halfMantissa m = 0) :
    m = 1 := by
  rcases Nat.mod_two_eq_zero_or_one m with h | h
  · rw [halfMantissa_of_even h] at hzero
    omega
  · rw [halfMantissa_of_odd h] at hzero
    omega

theorem round_half_least {m : ℕ} (hm : 0 < m) (hlt : m < 2 ^ 53) (s : Sign) :
    UnpackedFloat.roundWithAccuracy .binary64 s (m * 2 ^ 52) (-1074 - 53) .exact =
      if h : halfMantissa m = 0 then .zero s
      else .finite s (halfMantissa m) (-1074) (Nat.pos_of_ne_zero h) := by
  have hshift : (⟨m * 2 ^ 52, false, false⟩ : ExtendedMantissa) >>> 53 =
      ⟨m / 2, m % 2 != 0, false⟩ := by
    change ((⟨m * 2 ^ 52, false, false⟩ : ExtendedMantissa) >>> 52).shiftRightOne = _
    rw [shiftRight_mul_two_pow]
    rfl
  have hfirst : UnpackedFloat.shiftToTargetExponent .binary64 (m * 2 ^ 52) (-1074 - 53) .exact =
      (⟨m / 2, m % 2 != 0, false⟩, -1074) := by
    have hlog : (m * 2 ^ 52).log2 ≤ 104 := by
      rw [log2_mul_two_pow hm]
      exact Nat.add_le_add_right (Nat.le_of_lt_succ ((Nat.log2_lt hm.ne').mpr hlt)) 52
    have htarget : Format.binary64.targetExponent (totalExponent (m * 2 ^ 52) (-1074 - 53)) =
        -1074 := by
      change max (((m * 2 ^ 52).log2 : ℤ) + 1 + (-1074 - 53) - 53) (-1074) = -1074
      omega
    rw [UnpackedFloat.shiftToTargetExponent, htarget]
    exact Prod.ext hshift rfl
  have hhalf := shiftToTargetExponent_of_lt ((halfMantissa_lt hm).trans hlt) le_rfl
  have hrounded : (⟨m / 2, m % 2 != 0, false⟩ : ExtendedMantissa).roundedMantissa =
      halfMantissa m := rfl
  rw [UnpackedFloat.roundWithAccuracy, hfirst]
  simp only [hrounded, hhalf]

/-! ### Half of a number -/

/-- A positive number that is finite, by its fields. -/
theorem exists_unpack_of_pos {a : Float} (hpos : 0.0 < a) (hfinite : a.isFinite = true) :
    ∃ m e h, a.toModel.unpack = .finite .positive m e h := by
  obtain ⟨x, y, hx, hy, hlt⟩ := lt_iff.mp hpos
  obtain rfl : toLex (0, toLex (0, 0)) = x := Option.some.inj hx
  change a.toModel.unpack.isFinite = true at hfinite
  rcases h : a.toModel.unpack with s | _ | s | ⟨_ | _, m, e, hm⟩ <;> rw [h] at hfinite hy
  · cases hfinite
  · cases hfinite
  · obtain rfl := Option.some.inj hy
    simp at hlt
  · obtain rfl := Option.some.inj hy
    simp [Prod.Lex.toLex_lt_toLex] at hlt
  · exact ⟨m, e, hm, rfl⟩

theorem zero_add_of_pos {a : Float} (hpos : 0.0 < a) (hfinite : a.isFinite = true) :
    0.0 + a = a := by
  obtain ⟨m, e, hm, ha⟩ := exists_unpack_of_pos hpos hfinite
  have hzero : (0.0 : Float).toModel.unpack = .zero .positive := rfl
  change Float.ofModel (pack ((0.0 : Float).toModel.unpack.add .binary64 a.toModel.unpack)) = a
  rw [hzero, ha]
  change Float.ofModel (pack (.finite .positive m e hm)) = a
  rw [← ha, pack_unpack]

/-- The half of a positive finite number, unpacked: zero if the number is the least one, or a number
of smaller fields. -/
theorem unpack_half {a : Float} {m : ℕ} {e : ℤ} {hm : 0 < m}
    (ha : a.toModel.unpack = .finite .positive m e hm) :
    (0.5 * a).toModel.unpack = .zero .positive ∧ m = 1 ∧ e = -1074 ∨
      ∃ m' e' h, (0.5 * a).toModel.unpack = .finite .positive m' e' h ∧
        toLex (e', (m' : ℤ)) < toLex (e, (m : ℤ)) := by
  have hhalf : (0.5 : Float).toModel.unpack = .finite .positive (2 ^ 52) (-53) (by decide) := rfl
  have hmul : (0.5 * a).toModel.unpack =
      (pack (UnpackedFloat.roundWithAccuracy .binary64 .positive (m * 2 ^ 52) (e - 53)
        .exact)).unpack := by
    change (pack ((0.5 : Float).toModel.unpack.mul .binary64 a.toModel.unpack)).unpack = _
    rw [hhalf, ha, Nat.mul_comm m, sub_eq_neg_add]
    rfl
  have hlog := log2_mantissa ha
  have he := exponent_le ha
  rw [hmul]
  by_cases hleast : e = -1074
  · subst hleast
    have hlt : m < 2 ^ 53 := (Nat.log2_lt hm.ne').mp (by omega)
    have hhalf := halfMantissa_lt hm
    rw [round_half_least hm hlt]
    by_cases hr : halfMantissa m = 0
    · rw [dif_pos hr]
      exact Or.inl ⟨rfl, eq_one_of_halfMantissa_eq_zero hm hr, rfl⟩
    · rw [dif_neg hr]
      have hpos := Nat.pos_of_ne_zero hr
      have hlog' := (Nat.log2_lt hr).mpr (hhalf.trans hlt)
      refine Or.inr ⟨_, _, hpos, unpack_pack hpos (by omega) (by decide) _, ?_⟩
      simpa [Prod.Lex.toLex_lt_toLex] using hhalf
  · have htarget : Format.binary64.targetExponent (totalExponent m (e - 1)) = e - 1 := by
      change max ((m.log2 : ℤ) + 1 + (e - 1) - 53) (-1074) = e - 1
      omega
    have hround := round_mul_two_pow hm htarget .positive 52
    have hsub : e - 1 - (52 : ℕ) = e - 53 := by omega
    rw [hsub] at hround
    rw [hround]
    refine Or.inr ⟨_, _, hm, unpack_pack hm (by omega) (by omega) _, ?_⟩
    simp [Prod.Lex.toLex_lt_toLex]

theorem half_lt {a : Float} (hpos : 0.0 < a) (hfinite : a.isFinite = true) :
    0.5 * (0.0 + a) < a := by
  obtain ⟨m, e, hm, ha⟩ := exists_unpack_of_pos hpos hfinite
  rw [zero_add_of_pos hpos hfinite, lt_iff, ha]
  obtain ⟨h, -⟩ | ⟨m', e', hm', h, hlt⟩ := unpack_half ha
  · rw [h]
    exact ⟨_, _, rfl, rfl, by simp [Prod.Lex.toLex_lt_toLex]⟩
  · rw [h]
    exact ⟨_, _, rfl, rfl, by simpa [Prod.Lex.toLex_lt_toLex] using hlt⟩

/-- A number is found from its fields. -/
theorem eq_of_unpack_eq {a : Float} {u : UnpackedFloat} (h : a.toModel.unpack = u) :
    a = Float.ofModel (pack u) := by
  rw [← h, pack_unpack]

/-- The least positive number. -/
theorem pack_least : Float.ofModel (pack (.finite .positive 1 (-1074) Nat.one_pos)) = 5e-324 := by
  decide +kernel

/-- Half of the least positive number is zero, and of no other one. -/
theorem half_pos_or_eq_zero {a : Float} (hpos : 0.0 < a) (hfinite : a.isFinite = true) :
    (0.5 * (0.0 + a)).isFinite = true ∧
      (0.0 < 0.5 * (0.0 + a) ∨ 0.5 * (0.0 + a) = 0.0 ∧ a = 5e-324) := by
  obtain ⟨m, e, hm, ha⟩ := exists_unpack_of_pos hpos hfinite
  rw [zero_add_of_pos hpos hfinite]
  change (0.5 * a).toModel.unpack.isFinite = true ∧ _
  obtain ⟨h, rfl, rfl⟩ | ⟨m', e', hm', h, -⟩ := unpack_half ha
  · rw [h]
    exact ⟨rfl, Or.inr ⟨eq_of_unpack_eq h, (eq_of_unpack_eq ha).trans pack_least⟩⟩
  · rw [lt_iff, h]
    exact ⟨rfl, Or.inl ⟨_, _, rfl, rfl, by simp [Prod.Lex.toLex_lt_toLex]⟩⟩

/-! ### Numbers between others -/

theorem lt_trans {x y z : Float} (hxy : x < y) (hyz : y < z) : x < z := by
  obtain ⟨a, b, ha, hb, hab⟩ := lt_iff.mp hxy
  obtain ⟨b', c, hb', hc, hbc⟩ := lt_iff.mp hyz
  cases hb.symm.trans hb'
  exact lt_iff.mpr ⟨a, c, ha, hc, hab.trans hbc⟩

/-- The ranks of the infinities are the extreme ones. -/
theorem rank_bounds {x : UnpackedFloat} {a : ℤ ×ₗ ℤ ×ₗ ℤ} (h : rank x = some a) :
    toLex (-2, toLex (0, 0)) ≤ a ∧ a ≤ toLex (2, toLex (0, 0)) := by
  rcases x with ⟨_ | _⟩ | _ | _ | ⟨_ | _, m, e, hm⟩ <;> cases h <;>
    simp [Prod.Lex.toLex_le_toLex]

/-- A number strictly between two others is finite. -/
theorem isFinite_of_lt_of_lt {x y z : Float} (hxy : x < y) (hyz : y < z) :
    y.isFinite = true := by
  obtain ⟨a, b, ha, hb, hab⟩ := lt_iff.mp hxy
  obtain ⟨b', c, hb', hc, hbc⟩ := lt_iff.mp hyz
  cases hb.symm.trans hb'
  change y.toModel.unpack.isFinite = true
  rcases h : y.toModel.unpack with ⟨_ | _⟩ | _ | _ | _ <;> rw [h] at hb
  · cases hb
    exact ((hab.trans_le (rank_bounds ha).1).ne rfl).elim
  · cases hb
    exact ((hbc.trans_le (rank_bounds hc).2).ne rfl).elim
  · cases hb
  · rfl
  · rfl

theorem isNaN_mul_left {x y : Float} (hx : x.isNaN = true) : (x * y).isNaN = true := by
  have h : x.toModel.unpack.mul .binary64 y.toModel.unpack = .notANumber := by
    rw [unpack_eq_of_isNaN hx]
    rfl
  change (Float.ofModel (pack (x.toModel.unpack.mul .binary64 y.toModel.unpack))).isNaN = true
  rw [h]
  rfl

end QuasiNewton.Double
