import Reckoner.Proofs.Number.Packing

/-!
# Whole numbers above zero stay above zero

A whole number that becomes a float is rounded.  Rounding drops bits at the end of a mantissa and
never its first one, so that what was above zero does not become zero.

* `Fits`, `shiftToTargetExponent_fits` — a mantissa that is shifted to its exponent stays above
  zero.
* `IsAboveZero`, `isAboveZero_roundWithAccuracy` — unpacked floats above zero; rounding gives one.
* `isAboveZero_unpack_pack`, `isAboveZero_ofNat` — packing keeps one, and so does a whole number.
* `gt_zero_iff`, `pos_of_isAboveZero` — floats that compare as greater than zero.
* `isFinite_and_pos_of_ofInt` — a whole number above zero that is not too large for a float is a
  finite float above zero.
-/

namespace Reckoner.Number

open Float.Model Float.Model.UnpackedFloat

/-! ### Mantissas that are shifted -/

/-- A mantissa and an exponent that a float can have, and that are not those of zero. -/
structure Fits (mantissa : Nat) (exponent : Int) : Prop where
  pos : 0 < mantissa
  lt : mantissa < 2 ^ 53
  le : -1074 ≤ exponent

/-- **A mantissa that is shifted to its exponent fits**, if its first bit is not below all bits of a
    float. -/
theorem shiftToTargetExponent_fits {m : Nat} {e : Int} (hm : 0 < m) (he : -1074 ≤ e + m.log2)
    (a : Accuracy) :
    Fits (shiftToTargetExponent .binary64 m e a).1.mantissa
      (shiftToTargetExponent .binary64 m e a).2 := by
  have hlow : 2 ^ m.log2 ≤ m := Nat.log2_self_le hm.ne'
  have hhigh : m < 2 ^ (m.log2 + 1) := Nat.lt_log2_self
  unfold shiftToTargetExponent shiftToExponent totalExponent
  rw [targetExponent_binary64]
  simp only [mantissa_shiftRight, mantissa_ofMantissaAndAccuracy]
  generalize m.log2 = l at *
  generalize hk : (max ((l : Int) + 1 + e - 53) (-1074) - e).toNat = k
  -- The first bit is not dropped, and at most 53 bits are left.
  have hkl : k ≤ l := by omega
  have hlk : l + 1 ≤ 53 + k := by omega
  refine ⟨?_, ?_, by omega⟩
  · exact Nat.div_pos ((Nat.pow_le_pow_right (by decide) hkl).trans hlow) (Nat.two_pow_pos k)
  · rw [Nat.div_lt_iff_lt_mul (Nat.two_pow_pos k), ← Nat.pow_add]
    exact hhigh.trans_le (Nat.pow_le_pow_right (by decide) hlk)

/-! ### Floats above zero -/

/-- The unpacked floats above zero. -/
def IsAboveZero (u : UnpackedFloat) : Prop :=
  u = .infinity .positive ∨ ∃ m e h, u = .finite .positive m e h ∧ Fits m e

/-- **Rounding keeps a mantissa above zero.** -/
theorem isAboveZero_roundWithAccuracy {m : Nat} {e : Int} (hm : 0 < m)
    (he : -1074 ≤ e + m.log2) (a : Accuracy) :
    IsAboveZero (roundWithAccuracy .binary64 .positive m e a) := by
  have hfirst := shiftToTargetExponent_fits hm he a
  generalize hshift : shiftToTargetExponent .binary64 m e a = first at hfirst
  have hrounded : 0 < first.1.roundedMantissa := hfirst.pos.trans_le (le_roundedMantissa first.1)
  have hexponent := hfirst.le
  -- A carry may have made the mantissa longer by one bit, and then it is shifted once more.
  have hsecond := shiftToTargetExponent_fits (e := first.2) hrounded (by omega) .exact
  exact .inr ⟨_, _, _, roundWithAccuracy_eq_finite hshift rfl hsecond.pos, hsecond⟩

/-- What is packed from its parts with the sign of a positive number is above zero, if the parts are
    neither those of zero nor those of no number. -/
theorem isAboveZero_packComponents {e : BitVec 11} {m : BitVec 52} (he : e ≠ -1#_)
    (h : e ≠ 0#_ ∨ m ≠ 0#_) :
    IsAboveZero (UnpackedFloat.unpack .binary64 (packComponents .binary64 .positive e m)) := by
  obtain ⟨hzero, hm, -⟩ | ⟨-, hpos, hunpack⟩ | ⟨hnonzero, hpos, hunpack⟩ :=
    unpack_packComponents .positive m he
  · exact absurd hm (h.resolve_left (not_not_intro hzero))
  · exact .inr ⟨_, _, _, hunpack, hpos, m.isLt.trans (by decide), by omega⟩
  · have hexponent : 0 < e.toNat := BitVec.toNat_pos_of_ne_zero hnonzero
    exact .inr ⟨_, _, _, hunpack, hpos, (1#1 ++ m).isLt, by omega⟩

/-- **Packing keeps a float above zero.** -/
theorem isAboveZero_unpack_pack {u : UnpackedFloat} (hu : IsAboveZero u) :
    IsAboveZero (Float.Model.pack u).unpack := by
  obtain rfl | ⟨m, e, h, rfl, hpos, hlt, hle⟩ := hu
  · exact .inl rfl
  · show IsAboveZero (UnpackedFloat.unpack .binary64 (UnpackedFloat.pack .binary64 _))
    rw [pack_finite]
    generalize hb : (e + 1023 + (52 : Nat)).toNat = b
    split
    · exact .inl rfl
    · -- The exponent of a float is neither that of zero nor that of infinity.
      next hexponent =>
      split
      · apply isAboveZero_packComponents
        · exact ofNat_ne_ones (by omega)
        · exact .inl (ofNat_ne_ofNat (by omega) (by decide) (by omega))
      · next hbits =>
        -- The mantissa is short, since its first bit is not the implicit one.
        have hlog : m.log2 < 53 := (Nat.log2_lt hpos.ne').mpr hlt
        have hshort : m < 2 ^ 52 := (Nat.log2_lt hpos.ne').mp (by omega)
        apply isAboveZero_packComponents
        · decide
        · exact .inr (ofNat_ne_ofNat hshort (by decide) hpos.ne')

/-! ### Whole numbers -/

/-- A mantissa above zero may be written with more bits before it is rounded. -/
theorem isAboveZero_round {m : Nat} {e : Int} (hm : 0 < m) (he : -1074 ≤ e) :
    IsAboveZero (UnpackedFloat.round .binary64 .positive m e) := by
  rw [round_eq rfl, targetExponent_binary64]
  exact isAboveZero_roundWithAccuracy (Nat.mul_pos hm (Nat.two_pow_pos _)) (by omega) .exact

/-- A product of floats above zero is above zero, if it is not too small. -/
theorem isAboveZero_mul {m₁ m₂ : Nat} {e₁ e₂ : Int} (h₁ : 0 < m₁) (h₂ : 0 < m₂)
    (he : -1074 ≤ e₁ + e₂ + (m₁ * m₂).log2) :
    IsAboveZero (UnpackedFloat.mul .binary64 (.finite .positive m₁ e₁ h₁)
      (.finite .positive m₂ e₂ h₂)) :=
  isAboveZero_roundWithAccuracy (Nat.mul_pos h₁ h₂) he .exact

/-- The product of a float above zero and one is above zero. -/
theorem isAboveZero_mul_one {u : UnpackedFloat} (hu : IsAboveZero u) :
    IsAboveZero (UnpackedFloat.mul .binary64 u (.finite .positive (2 ^ 52) (-52) (by decide))) := by
  obtain rfl | ⟨m, e, h, rfl, hpos, -, hle⟩ := hu
  · exact .inl rfl
  · have hlog : 52 ≤ (m * 2 ^ 52).log2 := (Nat.le_log2 (by omega)).mpr (by omega)
    exact isAboveZero_mul h (by decide) (by omega)

/-- A machine word above zero becomes a float by one rounding. -/
theorem ofUInt64_eq_round {n : UInt64} (hn : 0 < n.toNat) :
    UnpackedFloat.ofUInt64 .binary64 n = UnpackedFloat.round .binary64 .positive n.toNat 0 := by
  have hcompare : compare (n.toNat : Int) 0 = .gt := Int.compare_eq_gt.mpr (by omega)
  unfold UnpackedFloat.ofUInt64 UnpackedFloat.ofNat UnpackedFloat.ofInt UnpackedFloat.normalize
  rw [hcompare]
  rfl

/-- A whole number above zero that is not too long for a machine word. -/
theorem isAboveZero_toFloat {n : UInt64} (hn : 0 < n.toNat) :
    IsAboveZero n.toFloat.toModel.unpack := by
  show IsAboveZero (Float.Model.pack (UnpackedFloat.ofUInt64 .binary64 n)).unpack
  rw [ofUInt64_eq_round hn]
  exact isAboveZero_unpack_pack (isAboveZero_round hn (by decide))

/-- **A whole number above zero is above zero as a float.** -/
theorem isAboveZero_ofNat {n : Nat} (hn : 0 < n) :
    IsAboveZero (Float.ofNat n).toModel.unpack := by
  show IsAboveZero (Float.ofScientific n false 0).toModel.unpack
  unfold Float.ofScientific
  split
  · -- A short number is converted as it is, and multiplied by one.
    next hshort =>
    have hword : 0 < n.toUInt64.toNat := by
      rw [Nat.toUInt64_eq, UInt64.toNat_ofNat', Nat.mod_eq_of_lt (by omega)]
      exact hn
    have hone : Float.exactlyRepresentablePowersOfTen[0].toModel.unpack =
      .finite .positive (2 ^ 52) (-52) (by decide) := rfl
    have hproduct := isAboveZero_mul_one (isAboveZero_toFloat hword)
    rw [← hone] at hproduct
    exact isAboveZero_unpack_pack hproduct
  · -- A long number is rounded once, from a mantissa with many bits.
    show IsAboveZero (Float.Model.pack (UnpackedFloat.ofScientific .binary64 n 0)).unpack
    have hpow : (0 : Int) < 2 ^ Format.binary64.exponentBits := by decide
    unfold UnpackedFloat.ofScientific
    rw [dif_neg hn.ne', if_neg (by decide), if_neg (by omega), if_pos (by decide)]
    refine isAboveZero_unpack_pack (isAboveZero_mul _ _ ?_)
    have hbits : (-Format.binary64.mantissaBits : Int) = -53 := rfl
    omega

/-! ### Floats that compare as greater than zero -/

/-- Floats are compared with zero when they are unpacked. -/
theorem gt_zero_iff (x : Float) :
    x > 0 ↔ UnpackedFloat.lt (.zero .positive) x.toModel.unpack = true :=
  decide_eq_true_iff (p := UnpackedFloat.lt (0 : Float).toModel.unpack x.toModel.unpack = true)

theorem pos_of_isAboveZero {x : Float} (h : IsAboveZero x.toModel.unpack) : x > 0 := by
  rw [gt_zero_iff]
  obtain h | ⟨m, e, hm, h, -⟩ := h <;> rw [h] <;> rfl

/-- **A whole number above zero that is not too large for a float is a finite float above zero.** -/
theorem isFinite_and_pos_of_ofInt {n : Int} (hn : 0 < n) (hinf : (Float.ofInt n).isInf = false) :
    (Float.ofInt n).isFinite = true ∧ Float.ofInt n > 0 := by
  obtain ⟨k, rfl⟩ := Int.eq_ofNat_of_zero_le (Int.le_of_lt hn)
  have habove : IsAboveZero (Float.ofInt k).toModel.unpack := isAboveZero_ofNat (by omega)
  refine ⟨?_, pos_of_isAboveZero habove⟩
  obtain h | ⟨m, e, hm, h, -⟩ := habove
  · have hinf : (Float.ofInt k).toModel.unpack.isInf = false := hinf
    rw [h] at hinf
    cases hinf
  · show (Float.ofInt k).toModel.unpack.isFinite = true
    rw [h]
    rfl

end Reckoner.Number
