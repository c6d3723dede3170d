import Reckoner.Proofs.Number.Errors

/-!
# Whole numbers that are too large for a float

The largest float is half a unit of its last bit below `overflowBound`.  A whole number below that
bound is rounded to a float, and one at the bound or above it has no float near it: the tie at the
bound goes to the even neighbour, which would need one more bit of exponent.

* `overflowBound`, `FitsFloat` — the whole numbers of either sign that are floats when rounded.
* `IsWorth.lt_roundedMantissa_iff` — which mantissas are rounded beyond an odd number.
* `isInf_unpack_pack_iff` — an unpacked float becomes infinite where its exponent is too large.
* `isInf_ofInt_iff` — **a whole number becomes infinite exactly if it does not fit.**
-/

namespace Reckoner.Number

open Float.Model Float.Model.UnpackedFloat

/-- The least whole number that is too large for a float. -/
def overflowBound : Nat := 2 ^ 1024 - 2 ^ 970

/-- A whole number that is rounded to a float, and not to infinity. -/
def FitsFloat (n : Int) : Prop := n.natAbs < overflowBound

instance (n : Int) : Decidable (FitsFloat n) := inferInstanceAs (Decidable (_ < _))

/-! ### Rounding beyond an odd number -/

/-- **A mantissa is rounded beyond an odd number** exactly if it is worth half a unit more: what
    lies half way between two whole numbers goes to the even one. -/
theorem IsWorth.lt_roundedMantissa_iff {em : ExtendedMantissa} {q : ℚ} (h : IsWorth em q) {k : Nat}
    (hk : k % 2 = 1) : k < em.roundedMantissa ↔ (k : ℚ) + 1 / 2 ≤ q := by
  -- Whole numbers are compared as such.
  have hcast : ∀ m : Nat, k < m → (k : ℚ) + 1 ≤ m := fun m hm => by exact_mod_cast hm
  have hcast' : ∀ m : Nat, m ≤ k → (m : ℚ) ≤ k := fun m hm => by exact_mod_cast hm
  cases h with
  | exact m =>
    show k < m ↔ _
    refine ⟨fun hlt => by linarith [hcast m hlt], fun hle => ?_⟩
    by_contra hge
    linarith [hcast' m (by omega)]
  | @below m q hlow hhigh =>
    show k < m ↔ _
    refine ⟨fun hlt => by linarith [hcast m hlt], fun hle => ?_⟩
    by_contra hge
    linarith [hcast' m (by omega)]
  | half m =>
    show k < m + m % 2 ↔ _
    refine ⟨fun hlt => ?_, fun hle => ?_⟩
    · obtain hlt | rfl : k < m ∨ k = m := by omega
      · linarith [hcast m hlt]
      · exact le_rfl
    · have hle : k ≤ m := by
        have hcasted : (k : ℚ) ≤ m := by linarith
        exact_mod_cast hcasted
      obtain hlt | rfl := hle.lt_or_eq <;> omega
  | @above m q hlow hhigh =>
    show k < m + 1 ↔ _
    refine ⟨fun hlt => ?_, fun hle => ?_⟩
    · have hcasted : (k : ℚ) ≤ m := by exact_mod_cast Nat.lt_succ_iff.mp hlt
      linarith
    · by_contra hge
      linarith [hcast' (m + 1) (by omega), show ((m + 1 : ℕ) : ℚ) = m + 1 by push_cast; rfl]

/-! ### Packing -/

/-- **An unpacked float becomes infinite when it is packed** exactly if its exponent
    is too large. -/
theorem isInf_unpack_pack_iff (s : Sign) (m : Nat) (e : Int) (h : 0 < m) :
    (Float.Model.pack (.finite s m e h)).unpack.isInf = true ↔ 972 ≤ e := by
  refine ⟨fun hinf => ?_, fun he => ?_⟩
  · by_contra hlt
    have hfinite := isFinite_unpack_pack (.inr ⟨s, m, e, h, rfl, by omega⟩)
    cases hu : (Float.Model.pack (.finite s m e h)).unpack with
    | finite | zero | notANumber =>
      rw [hu] at hinf
      cases hinf
    | infinity =>
      rw [hu] at hfinite
      cases hfinite
  · show (UnpackedFloat.unpack .binary64 (UnpackedFloat.pack .binary64 _)).isInf = true
    rw [pack_finite, if_pos (show 2 ^ 11 ≤ (e + 1023 + (52 : Nat)).toNat + 1 by omega)]
    cases s <;> rfl

/-- The exponent that a rounded number has after its carry is brought in order. -/
theorem isInf_roundWithAccuracy_iff {m : Nat} {e t : Int} {em : ExtendedMantissa}
    (hfirst : shiftToTargetExponent .binary64 m e .exact = (em, t))
    (hpos : 0 < em.roundedMantissa) (ht : 0 ≤ t) :
    (Float.Model.pack (roundWithAccuracy .binary64 .positive m e .exact)).unpack.isInf = true ↔
      972 ≤ t ∨ 1024 ≤ em.roundedMantissa.log2 + t := by
  have hfits := shiftToTargetExponent_fits (e := t) hpos (by omega) .exact
  have hexponent := snd_shiftToTargetExponent em.roundedMantissa t .exact
  generalize hsecond : shiftToTargetExponent .binary64 em.roundedMantissa t .exact = second
    at hfits hexponent
  rw [roundWithAccuracy_eq_finite hfirst hsecond hfits.pos, isInf_unpack_pack_iff]
  omega

/-! ### Whole numbers -/

/-- A whole number with more bits than a float is rounded once. -/
theorem unpack_ofNat_long {n : Nat} (h : 2 ^ 53 ≤ n) : (Float.ofNat n).toModel.unpack =
    (Float.Model.pack
      (roundWithAccuracy .binary64 .positive (n * 2 ^ 53) (-53) .exact)).unpack := by
  have hpos : 0 < n := (Nat.two_pow_pos 53).trans_le h
  have hpow : (0 : Int) < 2 ^ Format.binary64.exponentBits := by decide
  have hmantissa : n <<< Format.binary64.mantissaBits * 10 ^ (0 : Int).toNat = n * 2 ^ 53 := by
    rw [Nat.shiftLeft_eq, Int.toNat_zero, pow_zero, Nat.mul_one]
    rfl
  show (Float.ofScientific n false 0).toModel.unpack = _
  unfold Float.ofScientific
  rw [dif_neg (fun hshort => absurd hshort.1 (by omega))]
  show (Float.Model.pack (UnpackedFloat.ofScientific .binary64 n 0)).unpack = _
  unfold UnpackedFloat.ofScientific
  rw [dif_neg hpos.ne', if_neg (by decide), if_neg (by omega), if_pos (by decide)]
  show (Float.Model.pack (roundWithAccuracy .binary64 .positive
    (n <<< Format.binary64.mantissaBits * 10 ^ (0 : Int).toNat) (-53 + 0) .exact)).unpack = _
  rw [hmantissa, Int.add_zero]

/-- The bound lies half way between the largest float and the number that would follow it. -/
theorem overflowBound_eq : overflowBound = (2 * (2 ^ 53 - 1) + 1) * 2 ^ 970 := by
  have hpow : 2 ^ 1024 = 2 ^ 54 * 2 ^ 970 := by rw [← Nat.pow_add]
  have hodd : 2 ^ 54 - 1 = 2 * (2 ^ 53 - 1) + 1 := by norm_num
  rw [overflowBound, hpow, ← Nat.sub_one_mul, hodd]

theorem overflowBound_le_two_pow : overflowBound ≤ 2 ^ 1024 := Nat.sub_le _ _

theorem two_pow_le_overflowBound : 2 ^ 1023 ≤ overflowBound := by
  rw [overflowBound_eq, show 2 ^ 1023 = 2 ^ 53 * 2 ^ 970 by rw [← Nat.pow_add]]
  exact Nat.mul_le_mul_right _ (by norm_num)

/-- Whole numbers of at most 53 bits fit. -/
theorem fitsFloat_of_lt {n : Int} (h : n.natAbs < 2 ^ 53) : FitsFloat n :=
  calc n.natAbs < 2 ^ 53 := h
    _ ≤ 2 ^ 1023 := pow_le_pow_right₀ one_le_two (by norm_num)
    _ ≤ overflowBound := two_pow_le_overflowBound

/-- A number with 1024 bits, in units of the last bit that a float has of it. -/
theorem half_le_div_iff (n : Nat) :
    ((2 ^ 53 - 1 : ℕ) : ℚ) + 1 / 2 ≤ (n : ℚ) * 2 ^ 53 / 2 ^ 1024 ↔ overflowBound ≤ n := by
  have hunit : (n : ℚ) * 2 ^ 53 / 2 ^ 1024 = n / 2 ^ 970 / 2 := by
    rw [show (2 : ℚ) ^ 1024 = 2 ^ 970 * 2 * 2 ^ 53 by rw [← pow_succ, ← pow_add]]
    field_simp
  have hhalf : ((2 ^ 53 - 1 : ℕ) : ℚ) + 1 / 2 = (2 * (2 ^ 53 - 1) + 1 : ℕ) / 2 := by
    push_cast
    ring
  rw [hunit, hhalf, div_le_div_iff_of_pos_right two_pos, le_div_iff₀ (by positivity),
    overflowBound_eq]
  exact_mod_cast Iff.rfl

/-- **A large whole number becomes infinite exactly from the bound on.**  Its last bit is worth at
    least `2 ^ 971`.  If it is worth just that, then the exponent is too large only if rounding
    gives the mantissa one more bit. -/
theorem isInf_ofNat_iff_of_log2 {n : Nat} (hlog : 1023 ≤ n.log2) :
    (Float.ofNat n).isInf = true ↔ overflowBound ≤ n := by
  have hpos : 0 < n := by
    apply Nat.pos_of_ne_zero
    rintro rfl
    exact absurd hlog (by decide)
  have hlong : 2 ^ 53 ≤ n := (Nat.le_log2 hpos.ne').mp (by omega)
  generalize hem : ExtendedMantissa.ofMantissaAndAccuracy (n * 2 ^ 53) .exact >>> (n.log2 + 1) = em
  have hfirst : shiftToTargetExponent .binary64 (n * 2 ^ 53) (-53) .exact =
      (em, (n.log2 : Int) - 52) := by
    have hshift :
        (max (((n.log2 + 53 : ℕ) : Int) + 1 + -53 - 53) (-1074) - -53).toNat = n.log2 + 1 := by
      omega
    unfold shiftToTargetExponent shiftToExponent totalExponent
    rw [targetExponent_binary64, log2_mul_two_pow hpos.ne']
    simp only [hshift, hem]
    congr 1
    omega
  have hworth : IsWorth em ((n : ℚ) * 2 ^ 53 / 2 ^ (n.log2 + 1)) := by
    have hworth := isWorth_shiftRight (n * 2 ^ 53) (n.log2 + 1)
    rw [hem] at hworth
    exact_mod_cast hworth
  have hrounded : 0 < em.roundedMantissa := by
    refine lt_of_lt_of_le ?_ (le_roundedMantissa em)
    rw [← hem, mantissa_shiftRight, mantissa_ofMantissaAndAccuracy]
    refine Nat.div_pos ?_ (Nat.two_pow_pos _)
    calc 2 ^ (n.log2 + 1) = 2 ^ n.log2 * 2 := pow_succ _ _
      _ ≤ n * 2 ^ 53 := Nat.mul_le_mul (Nat.log2_self_le hpos.ne') (by norm_num)
  show (Float.ofNat n).toModel.unpack.isInf = true ↔ _
  rw [unpack_ofNat_long hlong, isInf_roundWithAccuracy_iff hfirst hrounded (by omega)]
  -- Only at exponent 1023 does it depend on the rounding whether the float is infinite.
  obtain hlarge | heq : 1024 ≤ n.log2 ∨ n.log2 = 1023 := by omega
  · refine iff_of_true (.inl (by omega)) ?_
    calc overflowBound ≤ 2 ^ 1024 := overflowBound_le_two_pow
      _ ≤ 2 ^ n.log2 := pow_le_pow_right₀ one_le_two hlarge
      _ ≤ n := Nat.log2_self_le hpos.ne'
  · rw [heq] at hworth
    rw [← half_le_div_iff, ← hworth.lt_roundedMantissa_iff (by norm_num), heq]
    have hbits : 53 ≤ em.roundedMantissa.log2 ↔ 2 ^ 53 ≤ em.roundedMantissa :=
      Nat.le_log2 hrounded.ne'
    omega

/-- A whole number with at most 1023 bits is not too large. -/
theorem isInf_ofNat_of_log2_lt {n : Nat} (hlog : n.log2 < 1023) :
    (Float.ofNat n).isInf = false := by
  apply isInf_eq_false_of_isFinite
  obtain hshort | hlong := Nat.lt_or_ge n (2 ^ 53)
  · exact isFinite_ofInt (n := n) hshort
  · show (Float.ofNat n).toModel.unpack.isFinite = true
    rw [unpack_ofNat_long hlong]
    refine isFinite_unpack_pack (isPackable_roundWithAccuracy (j := n.log2 + 1 + 53) ?_
      (by norm_num) (by omega) _ _)
    rw [pow_add]
    exact Nat.mul_lt_mul_of_pos_right Nat.lt_log2_self (Nat.two_pow_pos 53)

theorem lt_overflowBound_of_log2_lt {n : Nat} (hlog : n.log2 < 1023) : n < overflowBound :=
  calc n < 2 ^ (n.log2 + 1) := Nat.lt_log2_self
    _ ≤ 2 ^ 1023 := pow_le_pow_right₀ one_le_two hlog
    _ ≤ overflowBound := two_pow_le_overflowBound

/-- A float keeps its magnitude when its sign changes. -/
theorem isInf_neg (x : Float) : (-x).isInf = x.isInf := by
  show (Float.Model.pack x.toModel.unpack.neg).unpack.isInf = x.toModel.unpack.isInf
  cases hx : x.toModel.unpack with
  | finite s m e hm =>
    show (Float.Model.pack (.finite (-s) m e hm)).unpack.isInf = false
    rw [unpack_pack_finite hm (isCanonical_of_unpack hx)]
    rfl
  | zero s => cases s <;> rfl
  | infinity s => cases s <;> rfl
  | notANumber => rfl

/-- **A whole number becomes infinite as a float exactly if it does not fit.** -/
theorem isInf_ofInt_iff (n : Int) : (Float.ofInt n).isInf = true ↔ ¬ FitsFloat n := by
  have hnat : ∀ k : Nat, (Float.ofNat k).isInf = true ↔ overflowBound ≤ k := by
    intro k
    obtain hlt | hge := Nat.lt_or_ge k.log2 1023
    · rw [isInf_ofNat_of_log2_lt hlt]
      exact iff_of_false Bool.false_ne_true (lt_overflowBound_of_log2_lt hlt).not_ge
    · exact isInf_ofNat_iff_of_log2 hge
  rw [FitsFloat, not_lt]
  cases n with
  | ofNat k => exact hnat k
  | negSucc k =>
    show (-Float.ofNat (k + 1)).isInf = true ↔ _
    rw [isInf_neg]
    exact hnat (k + 1)

end Reckoner.Number
