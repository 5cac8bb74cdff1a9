import Mathlib
import QuasiNewton.Scalar

/-!
# Doubles

What is used of rounded numbers, read off their fields. They are ordered as the triples of sign,
exponent and mantissa are (`compare_eq`), except for a number that is undefined, which is neither
below nor above any other (`lt_or_le_or_isNaN`). Being undefined is passed on by sums and products.
A number is determined by its fields (`pack_unpack`), and its product with one rounds to the number
itself, down to the sign of a zero (`mul_one`).
-/

namespace QuasiNewton.Double

open Float.Model
open UnpackedFloat (Sign ExtendedMantissa)

/-! ### Order -/

/-- Where a number lies: minus infinity below everything, then the negative numbers. -/
def rank : UnpackedFloat → Option (ℤ ×ₗ ℤ ×ₗ ℤ)
  | .notANumber => none
  | .infinity .negative => some (toLex (-2, toLex (0, 0)))
  | .finite .negative m e _ => some (toLex (-1, toLex (-e, -(m : ℤ))))
  | .zero _ => some (toLex (0, toLex (0, 0)))
  | .finite .positive m e _ => some (toLex (1, toLex (e, (m : ℤ))))
  | .infinity .positive => some (toLex (2, toLex (0, 0)))

theorem compare_neg_neg (a b : ℤ) : compare (-a) (-b) = compare b a := by
  have hanti : StrictAnti (- · : ℤ → ℤ) := fun _ _ => Int.neg_lt_neg
  rw [← cmp_eq_compare, ← cmp_eq_compare]
  exact hanti.cmp_map_eq a b

theorem compare_natCast (a b : ℕ) : compare (a : ℤ) (b : ℤ) = compare a b := by
  rw [← cmp_eq_compare, ← cmp_eq_compare]
  exact Nat.strictMono_cast.cmp_map_eq a b

theorem compare_eq (x y : UnpackedFloat) :
    x.compare y = (rank x).bind fun a => (rank y).map fun b => compare a b := by
  rcases x with ⟨_ | _⟩ | _ | _ | ⟨_ | _, m₁, e₁, h₁⟩ <;>
    rcases y with ⟨_ | _⟩ | _ | _ | ⟨_ | _, m₂, e₂, h₂⟩ <;> try rfl
  -- what is left are two finite numbers of one sign
  · simp [rank, UnpackedFloat.compare, Prod.Lex.compare_def, compareLex, compareOn,
      compare_neg_neg, compare_natCast, Int.compare_swap, Nat.compare_swap, Ordering.swap_then]
  · simp [rank, UnpackedFloat.compare, Prod.Lex.compare_def, compareLex, compareOn,
      compare_natCast]

theorem lt_iff {x y : Float} :
    x < y ↔ ∃ a b, rank x.toModel.unpack = some a ∧ rank y.toModel.unpack = some b ∧ a < b := by
  have h : x < y ↔ x.toModel.unpack.lt y.toModel.unpack = true := by
    change Float.lt x y = true ↔ _
    unfold Float.lt
    exact decide_eq_true_iff
  rw [h, UnpackedFloat.lt, compare_eq]
  rcases rank x.toModel.unpack with _ | a <;> rcases rank y.toModel.unpack with _ | b
  case some.some => simpa using compare_lt_iff_lt
  all_goals simp

theorem le_iff {x y : Float} :
    x ≤ y ↔ ∃ a b, rank x.toModel.unpack = some a ∧ rank y.toModel.unpack = some b ∧ a ≤ b := by
  have h : x ≤ y ↔ x.toModel.unpack.le y.toModel.unpack = true := by
    change Float.le x y = true ↔ _
    unfold Float.le
    exact decide_eq_true_iff
  rw [h, UnpackedFloat.le, compare_eq]
  rcases rank x.toModel.unpack with _ | a <;> rcases rank y.toModel.unpack with _ | b
  case some.some => simpa [Ordering.isLE_iff_ne_gt] using compare_le_iff_le
  all_goals simp

theorem rank_eq_none_iff {x : Float} : rank x.toModel.unpack = none ↔ x.isNaN = true := by
  change _ ↔ x.toModel.unpack.isNaN = true
  rcases x.toModel.unpack with ⟨_ | _⟩ | _ | _ | ⟨_ | _, _, _, _⟩ <;>
    simp [rank, UnpackedFloat.isNaN]

theorem unpack_eq_of_isNaN {x : Float} (hx : x.isNaN = true) : x.toModel.unpack = .notANumber :=
  UnpackedFloat.isNaN_iff.mp hx

theorem lt_of_lt_of_le {x y z : Float} (hxy : x < y) (hyz : y ≤ z) : x < z := by
  obtain ⟨a, b, ha, hb, hab⟩ := lt_iff.mp hxy
  obtain ⟨b', c, hb', hc, hbc⟩ := le_iff.mp hyz
  cases hb.symm.trans hb'
  exact lt_iff.mpr ⟨a, c, ha, hc, hab.trans_le hbc⟩

theorem le_of_lt {x y : Float} (h : x < y) : x ≤ y := by
  obtain ⟨a, b, ha, hb, hab⟩ := lt_iff.mp h
  exact le_iff.mpr ⟨a, b, ha, hb, hab.le⟩

theorem lt_irrefl (x : Float) : ¬ x < x := by
  intro h
  obtain ⟨a, b, ha, hb, hab⟩ := lt_iff.mp h
  cases ha.symm.trans hb
  exact hab.ne rfl

theorem lt_or_le_or_isNaN (x y : Float) :
    x < y ∨ y ≤ x ∨ x.isNaN = true ∨ y.isNaN = true := by
  rw [← rank_eq_none_iff, ← rank_eq_none_iff]
  rcases hx : rank x.toModel.unpack with _ | a
  · exact Or.inr (Or.inr (Or.inl rfl))
  · rcases hy : rank y.toModel.unpack with _ | b
    · exact Or.inr (Or.inr (Or.inr rfl))
    · rcases lt_or_ge a b with h | h
      · exact Or.inl (lt_iff.mpr ⟨a, b, hx, hy, h⟩)
      · exact Or.inr (Or.inl (le_iff.mpr ⟨b, a, hy, hx, h⟩))

/-! ### Undefined numbers -/

theorem not_le_of_isNaN {x y : Float} (hy : y.isNaN = true) : ¬ x ≤ y := by
  intro h
  obtain ⟨-, b, -, hb, -⟩ := le_iff.mp h
  rw [rank_eq_none_iff.mpr hy] at hb
  cases hb

theorem not_lt_of_isNaN {x y : Float} (hx : x.isNaN = true) : ¬ x < y := by
  intro h
  obtain ⟨a, -, ha, -, -⟩ := lt_iff.mp h
  rw [rank_eq_none_iff.mpr hx] at ha
  cases ha

theorem isNaN_eq_false_of_lt {x y : Float} (h : x < y) : y.isNaN = false := by
  obtain ⟨-, b, -, hb, -⟩ := lt_iff.mp h
  rw [← Bool.not_eq_true, ← rank_eq_none_iff, hb]
  exact Option.some_ne_none b

theorem isNaN_mul {x y : Float} (hy : y.isNaN = true) : (x * y).isNaN = true := by
  have h : x.toModel.unpack.mul .binary64 y.toModel.unpack = .notANumber := by
    rw [unpack_eq_of_isNaN hy]
    cases x.toModel.unpack <;> rfl
  change (Float.ofModel (pack (x.toModel.unpack.mul .binary64 y.toModel.unpack))).isNaN = true
  rw [h]
  rfl

theorem isNaN_add {x y : Float} (hy : y.isNaN = true) : (x + y).isNaN = true := by
  have h : x.toModel.unpack.add .binary64 y.toModel.unpack = .notANumber := by
    rw [unpack_eq_of_isNaN hy]
    cases x.toModel.unpack <;> rfl
  change (Float.ofModel (pack (x.toModel.unpack.add .binary64 y.toModel.unpack))).isNaN = true
  rw [h]
  rfl

/-! ### The fields of a number -/

theorem pack_unpack (x : Float.Model) : pack x.unpack = x := by
  obtain ⟨⟨bits⟩, hvalid⟩ := x
  simp only [pack, unpack, UnpackedFloat.pack_unpack_of_valid hvalid]

/-- The mantissa of a finite number has its leading bit, unless the exponent is the least one. -/
theorem log2_mantissa {b : BitVec Format.binary64.numBits} {s : Sign} {m : ℕ} {e : ℤ} {h : 0 < m}
    (hb : UnpackedFloat.unpack .binary64 b = .finite s m e h) :
    m.log2 < 52 ∧ e = -1074 ∨ m.log2 = 52 ∧ -1074 ≤ e := by
  rw [UnpackedFloat.unpack] at hb
  split at hb
  · split at hb <;> cases hb
  · split at hb
    · rename_i hzero
      split at hb <;> cases hb
      refine Or.inl ⟨(Nat.log2_lt h.ne').mpr (BitVec.isLt _), ?_⟩
      rw [hzero]
      rfl
    · rename_i hzero
      cases hb
      refine Or.inr ⟨?_, ?_⟩
      · rw [Nat.log2_eq_iff h.ne']
        refine ⟨?_, BitVec.isLt _⟩
        rw [BitVec.toNat_append]
        exact Nat.left_le_or
      · have hpos : (UnpackedFloat.unpackExponent b).toNat ≠ 0 := fun h =>
          hzero (BitVec.toNat_inj.mp h)
        change -1074 ≤ (_ : ℤ) - 1075
        omega

/-- A number that was unpacked has the exponent to which its mantissa would be rounded. -/
theorem targetExponent_eq {b : BitVec Format.binary64.numBits} {s : Sign} {m : ℕ} {e : ℤ}
    {h : 0 < m} (hb : UnpackedFloat.unpack .binary64 b = .finite s m e h) :
    Format.binary64.targetExponent (totalExponent m e) = e := by
  change max ((m.log2 : ℤ) + 1 + e - 53) (-1074) = e
  have hlog := log2_mantissa hb
  omega

/-! ### Multiplication by one -/

/-- Shifting to the right undoes a multiplication by a power of two, and nothing is lost. -/
theorem shiftRight_mul_two_pow (m k : ℕ) :
    (⟨m * 2 ^ k, false, false⟩ : ExtendedMantissa) >>> k = ⟨m, false, false⟩ := by
  change k.repeat ExtendedMantissa.shiftRightOne _ = _
  induction k generalizing m with
  | zero => simp [Nat.repeat]
  | succ k ih =>
    rw [Nat.repeat, Nat.pow_succ', ← Nat.mul_assoc, ih]
    simp [ExtendedMantissa.shiftRightOne]

theorem log2_mul_two_pow {m : ℕ} (hm : 0 < m) (k : ℕ) : (m * 2 ^ k).log2 = m.log2 + k := by
  induction k with
  | zero => simp
  | succ k ih =>
    have hpos : m * 2 ^ k ≠ 0 := Nat.mul_ne_zero hm.ne' (Nat.two_pow_pos k).ne'
    rw [Nat.pow_succ', Nat.mul_left_comm, Nat.log2_two_mul hpos, ih]
    rfl

section

variable {m : ℕ} {e : ℤ} (hm : 0 < m)
  (he : Format.binary64.targetExponent (totalExponent m e) = e)
include he

theorem shiftToTargetExponent_mul_two_pow (hm : 0 < m) (k : ℕ) :
    UnpackedFloat.shiftToTargetExponent .binary64 (m * 2 ^ k) (e - k) .exact =
      (⟨m, false, false⟩, e) := by
  have htotal : totalExponent (m * 2 ^ k) (e - k) = totalExponent m e := by
    rw [totalExponent, totalExponent, log2_mul_two_pow hm]
    omega
  have hk : (e - (e - (k : ℤ))).toNat = k := by omega
  rw [UnpackedFloat.shiftToTargetExponent, htotal, he, UnpackedFloat.shiftToExponent, hk]
  exact Prod.ext (shiftRight_mul_two_pow m k) (Int.sub_add_cancel e k)

/-- A finite number is found again when trailing zeros of its mantissa are rounded away. -/
theorem round_mul_two_pow (s : Sign) (k : ℕ) :
    UnpackedFloat.roundWithAccuracy .binary64 s (m * 2 ^ k) (e - k) .exact = .finite s m e hm := by
  -- rounding is followed by a second shift, which finds nothing more to do
  have hagain := shiftToTargetExponent_mul_two_pow he hm 0
  simp only [Nat.pow_zero, Nat.mul_one, Int.ofNat_zero, Int.sub_zero] at hagain
  have hrounded : (⟨m, false, false⟩ : ExtendedMantissa).roundedMantissa = m := rfl
  rw [UnpackedFloat.roundWithAccuracy, shiftToTargetExponent_mul_two_pow he hm]
  simp only [hrounded, hagain, hm.ne', dite_false]

end

theorem mul_one (x : Float) : x * 1.0 = x := by
  have hone : (1.0 : Float).toModel.unpack = .finite .positive (2 ^ 52) (-52) (by decide) := rfl
  suffices h : x.toModel.unpack.mul .binary64 (1.0 : Float).toModel.unpack = x.toModel.unpack by
    change Float.ofModel (pack (x.toModel.unpack.mul .binary64 (1.0 : Float).toModel.unpack)) = x
    rw [h, pack_unpack]
  have hsign (s : Sign) : s * .positive = s := by cases s <;> rfl
  rw [hone]
  cases hx : x.toModel.unpack with
  | notANumber => rfl
  | infinity s => rw [UnpackedFloat.mul, hsign]
  | zero s => rw [UnpackedFloat.mul, hsign]
  | finite s m e hm =>
    rw [UnpackedFloat.mul, hsign]
    exact round_mul_two_pow hm (targetExponent_eq hx) s 52

end QuasiNewton.Double
