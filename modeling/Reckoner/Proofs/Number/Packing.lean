import Mathlib.Algebra.Group.Nat.Defs
import Mathlib.Algebra.Order.SuccPred
import Reckoner.Number.Binary

/-!
# How floats are rounded and packed

The bits of a float are a sign, an exponent and a mantissa without its first bit.  What a number
becomes as a float is read off in three steps: a mantissa is rounded to the bits that a float has,
it is packed into bits, and these are unpacked where the float is used.

* `roundWithAccuracy_eq_finite`, `roundWithAccuracy_eq_zero` — a mantissa that is rounded.
* `round_eq` — a short mantissa that is rounded.
* `unpack_cases` — what bits are as a float.
* `unpack_packComponents` — what is packed from its parts has them again.
* `pack_finite` — the parts that a float is packed from.
-/

namespace Reckoner.Number

open Float.Model Float.Model.UnpackedFloat

/-! ### Rounding -/

/-- Shifting a mantissa is dividing it by a power of two. -/
theorem mantissa_shiftRight (em : ExtendedMantissa) (k : Nat) :
    (em >>> k).mantissa = em.mantissa / 2 ^ k := by
  induction k with
  | zero => exact (Nat.div_one em.mantissa).symm
  | succ k ih =>
    have hstep : (em >>> (k + 1)).mantissa = (em >>> k).mantissa / 2 := rfl
    rw [hstep, ih, Nat.div_div_eq_div_mul, ← Nat.pow_succ]

@[simp] theorem mantissa_ofMantissaAndAccuracy (m : Nat) (a : Accuracy) :
    (ExtendedMantissa.ofMantissaAndAccuracy m a).mantissa = m := by
  cases a with
  | exact => rfl
  | inexact o => cases o <;> rfl

/-- Rounding does not make a mantissa smaller. -/
theorem le_roundedMantissa (em : ExtendedMantissa) : em.mantissa ≤ em.roundedMantissa := by
  unfold ExtendedMantissa.roundedMantissa Accuracy.roundToNearestEven
  split <;> omega

theorem targetExponent_binary64 (e : Int) :
    Format.binary64.targetExponent e = max (e - 53) (-1074) := rfl

/-- **How a mantissa is rounded**: it is shifted to its exponent and rounded to a whole number,
    which is shifted once more, since a carry may have made it longer. -/
theorem roundWithAccuracy_eq_finite {s : Sign} {m : Nat} {e : Int} {a : Accuracy}
    {first second : ExtendedMantissa × Int}
    (hfirst : shiftToTargetExponent .binary64 m e a = first)
    (hsecond : shiftToTargetExponent .binary64 first.1.roundedMantissa first.2 .exact = second)
    (hpos : 0 < second.1.mantissa) :
    roundWithAccuracy .binary64 s m e a = .finite s second.1.mantissa second.2 hpos := by
  subst hfirst hsecond
  exact dif_neg hpos.ne'

@[inherit_doc roundWithAccuracy_eq_finite]
theorem roundWithAccuracy_eq_zero {s : Sign} {m : Nat} {e : Int} {a : Accuracy}
    {first second : ExtendedMantissa × Int}
    (hfirst : shiftToTargetExponent .binary64 m e a = first)
    (hsecond : shiftToTargetExponent .binary64 first.1.roundedMantissa first.2 .exact = second)
    (hzero : second.1.mantissa = 0) :
    roundWithAccuracy .binary64 s m e a = .zero s := by
  subst hfirst hsecond
  exact dif_pos hzero

/-- A short mantissa is written with more bits before it is rounded. -/
theorem round_eq {m k : Nat} {e : Int}
    (hk : (e - Format.binary64.targetExponent (totalExponent m e)).toNat = k) (s : Sign) :
    UnpackedFloat.round .binary64 s m e =
      roundWithAccuracy .binary64 s (m * 2 ^ k) (e - k) .exact := by
  subst hk
  rw [← Nat.shiftLeft_eq]
  rfl

/-! ### Unpacking -/

/-- The mantissa of a float with its implicit first bit. -/
theorem toNat_implicit (m : BitVec 52) : (1#1 ++ m).toNat = 2 ^ 52 + m.toNat := by
  rw [BitVec.toNat_append, ← Nat.shiftLeft_add_eq_or_of_lt m.isLt]
  simp [Nat.shiftLeft_eq]

/-- The sign of what is packed from its parts. -/
theorem unpackSign_packComponents {spec : Format} (s : Sign) (e : BitVec spec.exponentBits)
    (m : BitVec spec.mantissaBitsWithoutImplicit) :
    unpackSign (packComponents spec s e m) = s.toBitVec := by
  ext i hi
  obtain rfl : i = 0 := by omega
  have hnot : ¬ spec.mantissaBitsWithoutImplicit + spec.exponentBits <
      spec.mantissaBitsWithoutImplicit := by omega
  unfold unpackSign packComponents
  simp [BitVec.getLsbD_append, BitVec.getElem_append, hnot]

/-- **What bits are as a float**: exponent bits of ones are infinity or no number, and with others
    the mantissa has the implicit bit, unless they are zeros. -/
theorem unpack_cases (b : BitVec 64) :
    (@unpackExponent .binary64 b = -1#_ ∧
        (UnpackedFloat.unpack .binary64 b = .infinity (.ofBitVec (@unpackSign .binary64 b)) ∨
          UnpackedFloat.unpack .binary64 b = .notANumber)) ∨
      (@unpackExponent .binary64 b = 0#_ ∧ @unpackMantissa .binary64 b = 0#_ ∧
        UnpackedFloat.unpack .binary64 b = .zero (.ofBitVec (@unpackSign .binary64 b))) ∨
      (@unpackExponent .binary64 b = 0#_ ∧ ∃ h, UnpackedFloat.unpack .binary64 b =
        .finite (.ofBitVec (@unpackSign .binary64 b)) (@unpackMantissa .binary64 b).toNat (-1074)
          h) ∨
      (@unpackExponent .binary64 b ≠ -1#_ ∧ @unpackExponent .binary64 b ≠ 0#_ ∧
        ∃ h, UnpackedFloat.unpack .binary64 b =
          .finite (.ofBitVec (@unpackSign .binary64 b)) (1#1 ++ @unpackMantissa .binary64 b).toNat
            ((@unpackExponent .binary64 b).toNat - 1075) h) := by
  unfold UnpackedFloat.unpack
  dsimp only
  -- The exponent bits are looked at first, and the mantissa where they leave a choice.
  by_cases hones : @unpackExponent .binary64 b = -1#_
  · rw [if_pos hones]
    by_cases hm : @unpackMantissa .binary64 b = 0#_
    · exact .inl ⟨hones, .inl (if_pos hm)⟩
    · exact .inl ⟨hones, .inr (if_neg hm)⟩
  · rw [if_neg hones]
    by_cases hzero : @unpackExponent .binary64 b = 0#_
    · rw [if_pos hzero, hzero]
      by_cases hm : @unpackMantissa .binary64 b = 0#_
      · exact .inr (.inl ⟨rfl, hm, dif_pos hm⟩)
      · exact .inr (.inr (.inl ⟨rfl, BitVec.toNat_pos_of_ne_zero hm, dif_neg hm⟩))
    · have hpos : 0 < (1#1 ++ @unpackMantissa .binary64 b).toNat := by
        rw [toNat_implicit]
        omega
      exact .inr (.inr (.inr ⟨hones, hzero, hpos, if_neg hzero⟩))

/-- **What is packed from its parts has them again.** -/
theorem unpack_packComponents (s : Sign) {e : BitVec 11} (m : BitVec 52) (he : e ≠ -1#_) :
    (e = 0#_ ∧ m = 0#_ ∧
        UnpackedFloat.unpack .binary64 (packComponents .binary64 s e m) = .zero s) ∨
      (e = 0#_ ∧ ∃ h, UnpackedFloat.unpack .binary64 (packComponents .binary64 s e m) =
        .finite s m.toNat (-1074) h) ∨
      (e ≠ 0#_ ∧ ∃ h, UnpackedFloat.unpack .binary64 (packComponents .binary64 s e m) =
        .finite s (1#1 ++ m).toNat (e.toNat - 1075) h) := by
  have hmantissa : unpackMantissa (packComponents .binary64 s e m) = m :=
    unpackMantissa_packComponents
  have hexponent : unpackExponent (packComponents .binary64 s e m) = e :=
    unpackExponent_packComponents
  have hsign : Sign.ofBitVec (unpackSign (packComponents .binary64 s e m)) = s := by
    rw [unpackSign_packComponents]
    cases s <;> rfl
  -- A float holds the proof that its mantissa is above zero, so its parts are not rewritten there.
  generalize packComponents .binary64 s e m = b at hmantissa hexponent hsign ⊢
  subst hmantissa hexponent hsign
  obtain ⟨hones, -⟩ | hzero | hlast | ⟨-, hnonzero, hunpack⟩ := unpack_cases b
  · exact absurd hones he
  · exact .inl hzero
  · exact .inr (.inl hlast)
  · exact .inr (.inr ⟨hnonzero, hunpack⟩)

/-! ### Packing -/

/-- Two numbers that are short enough for a bit vector are told apart by it. -/
theorem ofNat_ne_ofNat {w n k : Nat} (hn : n < 2 ^ w) (hk : k < 2 ^ w) (h : n ≠ k) :
    BitVec.ofNat w n ≠ BitVec.ofNat w k := by
  intro heq
  apply h
  rw [← Nat.mod_eq_of_lt hn, ← Nat.mod_eq_of_lt hk, ← BitVec.toNat_ofNat, heq, BitVec.toNat_ofNat]

/-- A number below the last one of 11 bits has a bit of zero. -/
theorem ofNat_ne_ones {n : Nat} (h : n < 2047) : BitVec.ofNat 11 n ≠ -1#_ := by
  have hones : (-1#_ : BitVec 11) = BitVec.ofNat 11 2047 := rfl
  exact hones ▸ ofNat_ne_ofNat (by omega) (by decide) h.ne

/-- **How a float is packed**: without the implicit bit if it has that, and with exponent bits of
    zeros if it does not. -/
theorem pack_finite (s : Sign) (m : Nat) (e : Int) (h : 0 < m) :
    UnpackedFloat.pack .binary64 (.finite s m e h) =
      if 2 ^ 11 ≤ (e + 1023 + (52 : Nat)).toNat + 1 then packedInfinity .binary64 s
      else if m.log2 + 1 = 53 then
        packComponents .binary64 s (BitVec.ofNat 11 (e + 1023 + (52 : Nat)).toNat)
          (BitVec.ofNat 52 m)
      else packComponents .binary64 s 0#_ (BitVec.ofNat 52 m) :=
  rfl

end Reckoner.Number
