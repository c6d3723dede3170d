import Reckoner.Proofs.Number.Order

/-!
# Numbers that become finite floats

A number becomes infinite as a float only where its exponent is too large when it is packed.  This
does not happen to whole numbers of at most 53 bits, which are floats exactly, and it does not
happen to decimal fractions below one.

* `roundWithAccuracy_canonical`, `round_canonical` — bits that are zero are dropped without a
  change.
* `unpack_toFloat`, `unpack_ofNat` — a whole number of at most 53 bits is a float exactly.
* `isFinite_ofInt` — such a number is finite, with either sign.
* `IsPackable`, `isFinite_unpack_pack` — unpacked floats that are packed without an overflow.
* `isPackable_roundWithAccuracy`, `isPackable_div` — rounding and division give such floats.
* `isFinite_ofScientific` — a decimal fraction below one is finite.
* `Propagates`, `Propagates.isFinite` — a result is finite only if the first number is.
-/

namespace Reckoner.Number

open Float.Model Float.Model.UnpackedFloat

/-! ### Exact roundings -/

/-- Zeros at the end of a mantissa are dropped without a trace. -/
theorem shiftRight_exact (m k : Nat) :
    ExtendedMantissa.ofMantissaAndAccuracy (m * 2 ^ k) .exact >>> k =
      ExtendedMantissa.ofMantissaAndAccuracy m .exact := by
  induction k generalizing m with
  | zero =>
    rw [pow_zero, Nat.mul_one]
    rfl
  | succ k ih =>
    have hstep : ∀ em : ExtendedMantissa, em >>> (k + 1) = (em >>> k).shiftRightOne :=
      fun em => rfl
    -- The last bit to be dropped is the zero of an even number.
    rw [hstep, Nat.pow_succ', ← Nat.mul_assoc, ih]
    simp [ExtendedMantissa.shiftRightOne, ExtendedMantissa.ofMantissaAndAccuracy]

/-- A power of two adds its bits. -/
theorem log2_mul_two_pow {m : Nat} (h : m ≠ 0) (k : Nat) : (m * 2 ^ k).log2 = m.log2 + k := by
  have hpos := Nat.two_pow_pos k
  rw [Nat.log2_eq_iff (Nat.mul_ne_zero h hpos.ne'), Nat.pow_add, Nat.add_right_comm, Nat.pow_add]
  exact ⟨Nat.mul_le_mul_right _ (Nat.log2_self_le h),
    Nat.mul_lt_mul_of_pos_right Nat.lt_log2_self hpos⟩

/-- A canonical mantissa is where it should be, so that only zeros behind it are dropped. -/
theorem IsCanonical.shiftToTargetExponent_eq {m : Nat} {e : Int} (h : IsCanonical m e) (k : Nat) :
    shiftToTargetExponent .binary64 (m * 2 ^ k) (e - k) .exact =
      (ExtendedMantissa.ofMantissaAndAccuracy m .exact, e) := by
  have hlog := log2_mul_two_pow h.pos.ne' k
  have hlt : m.log2 < 53 := (Nat.log2_lt h.pos.ne').mpr h.lt
  have htarget : Format.binary64.targetExponent (totalExponent (m * 2 ^ k) (e - k)) = e := by
    rw [targetExponent_binary64, totalExponent, hlog]
    have hle := h.le
    -- The exponent is the least one, or the mantissa has all its bits.
    obtain hlast | hnormal := h.normal
    · omega
    · have hfirst : 52 ≤ m.log2 := (Nat.le_log2 h.pos.ne').mpr hnormal
      omega
  have hshift : (e - (e - k)).toNat = k := by omega
  unfold shiftToTargetExponent shiftToExponent
  rw [htarget]
  simp only [hshift, shiftRight_exact]
  rw [Int.sub_add_cancel]

/-- **Rounding a canonical mantissa gives it back**, also with zeros behind it. -/
theorem roundWithAccuracy_canonical {m : Nat} {e : Int} (h : IsCanonical m e) (s : Sign) (k : Nat) :
    roundWithAccuracy .binary64 s (m * 2 ^ k) (e - k) .exact = .finite s m e h.pos := by
  have hsecond := h.shiftToTargetExponent_eq 0
  rw [pow_zero, Nat.mul_one, Nat.cast_zero, Int.sub_zero] at hsecond
  exact roundWithAccuracy_eq_finite (h.shiftToTargetExponent_eq k) hsecond h.pos

/-- A number whose bits have room in a mantissa is not changed by rounding. -/
theorem round_canonical {m k : Nat} {e : Int}
    (hk : (e - Format.binary64.targetExponent (totalExponent m e)).toNat = k)
    (h : IsCanonical (m * 2 ^ k) (e - k)) (s : Sign) :
    UnpackedFloat.round .binary64 s m e = .finite s (m * 2 ^ k) (e - k) h.pos := by
  have hexact := roundWithAccuracy_canonical h s 0
  rw [pow_zero, Nat.mul_one, Nat.cast_zero, Int.sub_zero] at hexact
  rw [round_eq hk, hexact]

/-! ### Whole numbers -/

/-- The mantissa and the exponent of a whole number of at most 53 bits. -/
theorem isCanonical_of_lt {n : Nat} (hpos : 0 < n) (hlt : n < 2 ^ 53) :
    IsCanonical (n * 2 ^ (52 - n.log2)) (n.log2 - 52) := by
  have hlog : n.log2 < 53 := (Nat.log2_lt hpos.ne').mpr hlt
  have hlow : 2 ^ n.log2 ≤ n := Nat.log2_self_le hpos.ne'
  have hhigh : n < 2 ^ (n.log2 + 1) := Nat.lt_log2_self
  refine ⟨⟨Nat.mul_pos hpos (Nat.two_pow_pos _), ?_, by omega⟩, by omega, .inr ?_⟩
  · calc n * 2 ^ (52 - n.log2) < 2 ^ (n.log2 + 1) * 2 ^ (52 - n.log2) :=
          Nat.mul_lt_mul_of_pos_right hhigh (Nat.two_pow_pos _)
      _ = 2 ^ 53 := by rw [← Nat.pow_add]; congr 1; omega
  · calc 2 ^ 52 = 2 ^ n.log2 * 2 ^ (52 - n.log2) := by rw [← Nat.pow_add]; congr 1; omega
      _ ≤ n * 2 ^ (52 - n.log2) := Nat.mul_le_mul_right _ hlow

/-- A whole number of at most 53 bits is not changed by rounding. -/
theorem round_whole {n : Nat} (hpos : 0 < n) (hlt : n < 2 ^ 53) :
    UnpackedFloat.round .binary64 .positive n 0 = .finite .positive (n * 2 ^ (52 - n.log2))
      (n.log2 - 52) (isCanonical_of_lt hpos hlt).pos := by
  have hlog : n.log2 < 53 := (Nat.log2_lt hpos.ne').mpr hlt
  have htarget : Format.binary64.targetExponent (totalExponent n 0) = n.log2 - 52 := by
    rw [targetExponent_binary64, totalExponent]
    omega
  have hexponent : (0 : Int) - (52 - n.log2 : Nat) = n.log2 - 52 := by omega
  have hcanonical := isCanonical_of_lt hpos hlt
  rw [← hexponent] at hcanonical
  rw [round_canonical (by rw [htarget]; omega) hcanonical, UnpackedFloat.finite.injEq]
  exact ⟨rfl, rfl, hexponent⟩

/-- A machine word of at most 53 bits is a float exactly. -/
theorem unpack_toFloat {w : UInt64} {n : Nat} (hw : w.toNat = n) (hpos : 0 < n) (hlt : n < 2 ^ 53) :
    w.toFloat.toModel.unpack = .finite .positive (n * 2 ^ (52 - n.log2)) (n.log2 - 52)
      (isCanonical_of_lt hpos hlt).pos := by
  subst hw
  show (Float.Model.pack (UnpackedFloat.ofUInt64 .binary64 w)).unpack = _
  rw [ofUInt64_eq_round hpos, round_whole hpos hlt]
  exact unpack_pack_finite _ (isCanonical_of_lt hpos hlt)

/-- Nothing is lost by a multiplication with one. -/
theorem mul_one_canonical {m : Nat} {e : Int} (h : IsCanonical m e) :
    UnpackedFloat.mul .binary64 (.finite .positive m e h.pos)
      (.finite .positive (2 ^ 52) (-52) (by decide)) = .finite .positive m e h.pos :=
  roundWithAccuracy_canonical h .positive 52

/-- **A whole number of at most 53 bits is a float exactly.** -/
theorem unpack_ofNat {n : Nat} (hpos : 0 < n) (hlt : n < 2 ^ 53) :
    (Float.ofNat n).toModel.unpack = .finite .positive (n * 2 ^ (52 - n.log2)) (n.log2 - 52)
      (isCanonical_of_lt hpos hlt).pos := by
  have hcanonical := isCanonical_of_lt hpos hlt
  have hword : n.toUInt64.toNat = n := by
    rw [Nat.toUInt64_eq, UInt64.toNat_ofNat', Nat.mod_eq_of_lt (by omega)]
  have hone : Float.exactlyRepresentablePowersOfTen[0].toModel.unpack =
    .finite .positive (2 ^ 52) (-52) (by decide) := rfl
  -- A short number is converted as it is, and multiplied by one.
  show (Float.ofScientific n false 0).toModel.unpack = _
  unfold Float.ofScientific
  rw [dif_pos ⟨hlt, by decide⟩]
  show (Float.Model.pack (UnpackedFloat.mul .binary64 n.toUInt64.toFloat.toModel.unpack
    Float.exactlyRepresentablePowersOfTen[0].toModel.unpack)).unpack = _
  rw [unpack_toFloat hword hpos hlt, hone, mul_one_canonical hcanonical,
    unpack_pack_finite hcanonical.pos hcanonical]

/-- A finite float is finite with either sign. -/
theorem isFinite_neg {x : Float} (h : x.isFinite = true) : (-x).isFinite = true := by
  have h : x.toModel.unpack.isFinite = true := h
  show (Float.Model.pack x.toModel.unpack.neg).unpack.isFinite = true
  cases hx : x.toModel.unpack with
  | finite s m e hm =>
    show (Float.Model.pack (.finite (-s) m e hm)).unpack.isFinite = true
    rw [unpack_pack_finite hm (isCanonical_of_unpack hx)]
    rfl
  | zero s => cases s <;> rfl
  | infinity s =>
    rw [hx] at h
    cases h
  | notANumber =>
    rw [hx] at h
    cases h

/-- **A whole number of at most 53 bits is a finite float.** -/
theorem isFinite_ofInt {n : Int} (h : n.natAbs < 2 ^ 53) : (Float.ofInt n).isFinite = true := by
  have hnat : ∀ k : Nat, k < 2 ^ 53 → (Float.ofNat k).isFinite = true := by
    intro k hk
    cases k with
    | zero => rfl
    | succ k =>
      show (Float.ofNat (k + 1)).toModel.unpack.isFinite = true
      rw [unpack_ofNat (Nat.succ_pos k) hk]
      rfl
  cases n with
  | ofNat k => exact hnat k h
  | negSucc k => exact isFinite_neg (hnat (k + 1) h)

/-- A finite float is not infinite. -/
theorem isInf_eq_false_of_isFinite {x : Float} (h : x.isFinite = true) : x.isInf = false := by
  have h : x.toModel.unpack.isFinite = true := h
  show x.toModel.unpack.isInf = false
  cases hx : x.toModel.unpack with
  | finite | zero | notANumber => rfl
  | infinity =>
    rw [hx] at h
    cases h

/-! ### Packing without an overflow -/

/-- The unpacked floats that do not become infinite when they are packed. -/
def IsPackable (u : UnpackedFloat) : Prop :=
  (∃ s, u = .zero s) ∨ ∃ s m e h, u = .finite s m e h ∧ e ≤ 971

/-- What is packed from its parts is finite, if the exponent is not that of infinity. -/
theorem isFinite_packComponents {s : Sign} {e : BitVec 11} {m : BitVec 52} (he : e ≠ -1#_) :
    (UnpackedFloat.unpack .binary64 (packComponents .binary64 s e m)).isFinite = true := by
  obtain ⟨-, -, hunpack⟩ | ⟨-, _, hunpack⟩ | ⟨-, _, hunpack⟩ := unpack_packComponents s m he
  all_goals
    rw [hunpack]
    rfl

/-- **Packing such a float gives a finite one.** -/
theorem isFinite_unpack_pack {u : UnpackedFloat} (hu : IsPackable u) :
    (Float.Model.pack u).unpack.isFinite = true := by
  obtain ⟨s, rfl⟩ | ⟨s, m, e, h, rfl, he⟩ := hu
  · cases s <;> rfl
  · show (UnpackedFloat.unpack .binary64 (UnpackedFloat.pack .binary64 _)).isFinite = true
    rw [pack_finite]
    generalize hb : (e + 1023 + (52 : Nat)).toNat = b
    -- The exponent stays below that of infinity, however long the mantissa is.
    rw [if_neg (show ¬ 2 ^ 11 ≤ b + 1 by omega)]
    split
    · exact isFinite_packComponents (ofNat_ne_ones (by omega))
    · exact isFinite_packComponents (by decide)

/-- The exponent that a mantissa is shifted to. -/
theorem snd_shiftToTargetExponent (m : Nat) (e : Int) (a : Accuracy) :
    (shiftToTargetExponent .binary64 m e a).2 = max e (max (m.log2 + e - 52) (-1074)) := by
  unfold shiftToTargetExponent shiftToExponent totalExponent
  rw [targetExponent_binary64]
  dsimp only
  omega

/-- A mantissa that is shifted is divided by a power of two. -/
theorem mantissa_shiftToTargetExponent (m : Nat) (e : Int) (a : Accuracy) :
    (shiftToTargetExponent .binary64 m e a).1.mantissa =
      m / 2 ^ ((shiftToTargetExponent .binary64 m e a).2 - e).toNat := by
  unfold shiftToTargetExponent shiftToExponent
  simp only [mantissa_shiftRight, mantissa_ofMantissaAndAccuracy, add_sub_cancel_left,
    Int.toNat_natCast]

/-- Rounding makes a mantissa greater by one at most. -/
theorem roundedMantissa_le (em : ExtendedMantissa) : em.roundedMantissa ≤ em.mantissa + 1 := by
  unfold ExtendedMantissa.roundedMantissa Accuracy.roundToNearestEven
  split <;> omega

/-- A number that is not above a power of two has no more bits than it. -/
theorem log2_le_of_le {m j : Nat} (h : m ≤ 2 ^ j) : m.log2 ≤ j := by
  obtain rfl | hpos := Nat.eq_zero_or_pos m
  · exact Nat.zero_le j
  · have hlt : m < 2 ^ (j + 1) := h.trans_lt (Nat.pow_lt_pow_succ (by decide))
    exact Nat.lt_succ_iff.mp ((Nat.log2_lt hpos.ne').mpr hlt)

/-- **Rounding gives no overflow** for a number that is not too large. -/
theorem isPackable_roundWithAccuracy {m j : Nat} {e : Int} (hm : m < 2 ^ j) (he : e ≤ 970)
    (hj : e + j ≤ 1023) (s : Sign) (a : Accuracy) :
    IsPackable (roundWithAccuracy .binary64 s m e a) := by
  have hlog : m.log2 ≤ j - 1 := by
    obtain rfl | hpos := Nat.eq_zero_or_pos m
    · exact Nat.zero_le _
    · have hlt : m.log2 < j := (Nat.log2_lt hpos.ne').mpr hm
      omega
  have hexponent := snd_shiftToTargetExponent m e a
  have hmantissa := mantissa_shiftToTargetExponent m e a
  generalize hfirst : shiftToTargetExponent .binary64 m e a = first at hexponent hmantissa
  obtain ⟨k, hk⟩ : ∃ k : Nat, first.2 = e + k := ⟨(first.2 - e).toNat, by omega⟩
  rw [show (first.2 - e).toNat = k by omega] at hmantissa
  -- What is left of the mantissa has so many bits less, and rounding adds one at most.
  have hrounded : first.1.roundedMantissa ≤ 2 ^ (j - k) := by
    have hquotient : m / 2 ^ k < 2 ^ (j - k) := by
      rw [Nat.div_lt_iff_lt_mul (Nat.two_pow_pos k), ← Nat.pow_add]
      exact hm.trans_le (Nat.pow_le_pow_right (by decide) (by omega))
    have hround := roundedMantissa_le first.1
    omega
  have hlog_rounded := log2_le_of_le hrounded
  have hlast := snd_shiftToTargetExponent first.1.roundedMantissa first.2 .exact
  generalize hsecond : shiftToTargetExponent .binary64 first.1.roundedMantissa first.2 .exact =
    second at hlast
  obtain hzero | hpos := Nat.eq_zero_or_pos second.1.mantissa
  · exact .inl ⟨s, roundWithAccuracy_eq_zero hfirst hsecond hzero⟩
  · exact .inr ⟨s, _, _, _, roundWithAccuracy_eq_finite hfirst hsecond hpos, by omega⟩

/-- **A division gives no overflow** if the quotient is not too large. -/
theorem isPackable_div {s₁ s₂ : Sign} {m₁ m₂ j : Nat} {e₁ e₂ : Int} {h₁ : 0 < m₁} {h₂ : 0 < m₂}
    (hm : m₁ < m₂ * 2 ^ j) (he : e₁ - e₂ + j ≤ 970) :
    IsPackable (UnpackedFloat.div .binary64 (.finite s₁ m₁ e₁ h₁) (.finite s₂ m₂ e₂ h₂)) := by
  unfold UnpackedFloat.div divCore
  dsimp only
  generalize htarget : min (e₁ - e₂) (Format.binary64.targetExponent
    (totalExponent m₁ e₁ - totalExponent m₂ e₂)) = target
  generalize hk : (e₁ - e₂ - target).toNat = k
  -- The quotient has as many bits more as the dividend is shifted by.
  have hquotient : (m₁ <<< k) / m₂ < 2 ^ (j + k) := by
    rw [Nat.shiftLeft_eq, Nat.div_lt_iff_lt_mul h₂]
    calc m₁ * 2 ^ k < m₂ * 2 ^ j * 2 ^ k := Nat.mul_lt_mul_of_pos_right hm (Nat.two_pow_pos k)
      _ = 2 ^ (j + k) * m₂ := by rw [Nat.pow_add]; ring
  exact isPackable_roundWithAccuracy hquotient (by omega) (by omega) _ _

/-! ### Decimal fractions -/

/-- The powers of ten that are floats exactly have no bits far behind the point. -/
theorem unpack_powerOfTen (e : Fin 23) :
    ∃ m f h, Float.exactlyRepresentablePowersOfTen[e].toModel.unpack = .finite .positive m f h ∧
      -52 ≤ f := by
  have hchecked : ∀ e : Fin 23,
      (match Float.exactlyRepresentablePowersOfTen[e].toModel.unpack with
        | .finite .positive _ f _ => decide (-52 ≤ f)
        | _ => false) = true := by decide
  have h := hchecked e
  generalize Float.exactlyRepresentablePowersOfTen[e].toModel.unpack = u at h ⊢
  match u, h with
  | .finite .positive m f hm, h => exact ⟨m, f, hm, rfl, of_decide_eq_true h⟩

/-- **A decimal fraction below one is finite as a float.** -/
theorem isFinite_ofScientific {m e : Nat} (h : m < 10 ^ e) :
    (Float.ofScientific m true e).isFinite = true := by
  unfold Float.ofScientific
  split
  · -- A short numerator and a short denominator are divided as floats.
    next hshort =>
    let exponent : Fin 23 := ⟨e, Nat.lt_succ_of_le hshort.2⟩
    obtain ⟨p, f, hp, hpower, hf⟩ := unpack_powerOfTen exponent
    have hword : m.toUInt64.toNat = m := by
      rw [Nat.toUInt64_eq, UInt64.toNat_ofNat', Nat.mod_eq_of_lt (by omega)]
    rw [if_pos rfl]
    apply isFinite_unpack_pack
    show IsPackable (UnpackedFloat.div .binary64 m.toUInt64.toFloat.toModel.unpack
      Float.exactlyRepresentablePowersOfTen[exponent].toModel.unpack)
    rw [hpower]
    obtain rfl | hpos := Nat.eq_zero_or_pos m
    · exact .inl ⟨_, rfl⟩
    · have hcanonical := isCanonical_of_lt hpos hshort.1
      have hlt : m.log2 < 53 := (Nat.log2_lt hpos.ne').mpr hshort.1
      rw [unpack_toFloat hword hpos hshort.1]
      exact isPackable_div (j := 53) (hcanonical.lt.trans_le (Nat.le_mul_of_pos_left _ hp))
        (by omega)
  · -- Others are divided as whole numbers.
    have hpower : Int.negOfNat e = -e := Int.negOfNat_eq
    have hbits : (0 : Int) < 2 ^ Format.binary64.exponentBits := by decide
    apply isFinite_unpack_pack
    show IsPackable (UnpackedFloat.ofScientific .binary64 m (Int.negOfNat e))
    rw [hpower]
    obtain rfl | hpos := Nat.eq_zero_or_pos m
    · exact .inl ⟨_, rfl⟩
    · have he : e ≠ 0 := by
        rintro rfl
        omega
      unfold UnpackedFloat.ofScientific
      rw [dif_neg hpos.ne', if_neg (by omega)]
      by_cases hsmall : -(e : Int) < -(2 ^ Format.binary64.exponentBits + m.log2)
      · rw [if_pos hsmall]
        exact .inl ⟨_, rfl⟩
      · rw [if_neg hsmall, if_neg (by omega)]
        exact isPackable_div (j := 0) (by simpa using h) (by omega)

/-! ### Operations that give nothing finite -/

/-- The operation gives nothing finite where its first number is not finite. -/
def Propagates (op : UnpackedFloat → UnpackedFloat → UnpackedFloat) : Prop :=
  ∀ u v, u.isFinite = false → (op u v).isFinite = false

/-- A sum is finite only if its first number is. -/
theorem propagates_add : Propagates (add .binary64) := by
  intro u v hu
  cases u with
  | finite | zero => cases hu
  | notANumber => rfl
  | infinity s =>
    cases v with
    | finite | zero | notANumber => rfl
    | infinity t => cases s <;> cases t <;> rfl

/-- So is a difference. -/
theorem propagates_sub : Propagates (sub .binary64) := by
  intro u v hu
  cases u with
  | finite | zero => cases hu
  | notANumber => rfl
  | infinity s =>
    cases v with
    | finite | zero | notANumber => rfl
    | infinity t => cases s <;> cases t <;> rfl

/-- So is a product. -/
theorem propagates_mul : Propagates (mul .binary64) := by
  intro u v hu
  cases u with
  | finite | zero => cases hu
  | notANumber => rfl
  | infinity s => cases v <;> rfl

/-- So is a quotient. -/
theorem propagates_div : Propagates (div .binary64) := by
  intro u v hu
  cases u with
  | finite | zero => cases hu
  | notANumber => rfl
  | infinity s => cases v <;> rfl

/-- **A result is finite only if the first number is.** -/
theorem Propagates.isFinite {op : UnpackedFloat → UnpackedFloat → UnpackedFloat}
    (hop : Propagates op) {x : Float} {v : UnpackedFloat}
    (h : (Float.Model.pack (op x.toModel.unpack v)).unpack.isFinite = true) :
    x.isFinite = true := by
  by_contra hx
  have hresult := hop x.toModel.unpack v (Bool.eq_false_iff.mpr hx)
  cases hu : op x.toModel.unpack v with
  | finite | zero =>
    rw [hu] at hresult
    cases hresult
  | infinity s =>
    rw [hu] at h
    cases s <;> cases h
  | notANumber =>
    rw [hu] at h
    cases h

end Reckoner.Number
