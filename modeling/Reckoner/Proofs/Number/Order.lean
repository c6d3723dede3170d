import Mathlib.Algebra.Order.Field.Power
import Mathlib.Tactic.NormNum
import Mathlib.Tactic.Ring
import Reckoner.Proofs.Number.Positive

/-!
# Floats are ordered as their exact values

Floats are compared by their signs, then by their exponents, and by their mantissas last.  That is
the order of their exact values, since the exponent of a float is as small as its mantissa allows.

* `IsCanonical`, `isCanonical_of_unpack` — the mantissas and exponents of finite floats.
* `unpack_pack_finite` — packing loses nothing of them.
* `IsCanonical.compare_eq` — exponents first and mantissas second is the order of the values.
* `IsExact`, `IsExact.compare_eq` — unpacked floats and their values in the same order.
* `lt_iff_toRat`, `le_iff_toRat` — finite floats are ordered as their exact values.
* `ofFloat?_abs` — the exact value of a magnitude.
-/

namespace Reckoner.Number

open Float.Model Float.Model.UnpackedFloat

/-! ### The mantissas and exponents of floats -/

/-- A mantissa and an exponent of a finite float.  The exponent is as small as the mantissa
    allows. -/
structure IsCanonical (mantissa : Nat) (exponent : Int) : Prop extends Fits mantissa exponent where
  exponent_le : exponent ≤ 971
  normal : exponent = -1074 ∨ 2 ^ 52 ≤ mantissa

/-- **Unpacking gives canonical mantissas and exponents.** -/
theorem isCanonical_of_unpack {x : Float} {s : Sign} {m : Nat} {e : Int} {h : 0 < m}
    (hx : x.toModel.unpack = .finite s m e h) : IsCanonical m e := by
  change UnpackedFloat.unpack .binary64 x.toModel.toBits.toBitVec = _ at hx
  have hmantissa : (@unpackMantissa .binary64 x.toModel.toBits.toBitVec).toNat < 2 ^ 52 :=
    BitVec.isLt _
  have hexponent : (@unpackExponent .binary64 x.toModel.toBits.toBitVec).toNat < 2 ^ 11 :=
    BitVec.isLt _
  obtain ⟨-, hunpack | hunpack⟩ | ⟨-, -, hunpack⟩ | ⟨-, hpos, hunpack⟩ |
    ⟨hones, hzero, hpos, hunpack⟩ := unpack_cases x.toModel.toBits.toBitVec
  -- Only the last two are finite: a subnormal float, and one with the implicit bit.
  all_goals rw [hunpack] at hx
  · cases hx
  · cases hx
  · cases hx
  · injection hx with hs hm he
    subst hm he
    exact ⟨⟨h, hmantissa.trans (by decide), by decide⟩, by decide, .inl rfl⟩
  · injection hx with hs hm he
    have hfirst := BitVec.toNat_pos_of_ne_zero hzero
    have hlast : (@unpackExponent .binary64 x.toModel.toBits.toBitVec).toNat ≠ 2047 :=
      fun heq => hones (BitVec.eq_of_toNat_eq heq)
    rw [toNat_implicit] at hm
    exact ⟨⟨h, by omega, by omega⟩, by omega, .inr (by omega)⟩

/-- **Packing loses nothing** of a canonical mantissa and exponent. -/
theorem unpack_pack_finite {s : Sign} {m : Nat} {e : Int} (h : 0 < m) (hc : IsCanonical m e) :
    (Float.Model.pack (.finite s m e h)).unpack = .finite s m e h := by
  obtain ⟨⟨-, hlt, hle⟩, hmax, hnormal⟩ := hc
  show UnpackedFloat.unpack .binary64 (UnpackedFloat.pack .binary64 _) = _
  have hlog : m.log2 < 53 := (Nat.log2_lt h.ne').mpr hlt
  rw [pack_finite]
  generalize hb : (e + 1023 + (52 : Nat)).toNat = b
  -- The biased exponent stays below the one of infinity.
  have hoverflow : ¬ 2 ^ 11 ≤ b + 1 := by omega
  rw [if_neg hoverflow]
  by_cases hbits : m.log2 + 1 = 53
  · rw [if_pos hbits]
    have hfirst : 2 ^ 52 ≤ m := (Nat.le_log2 h.ne').mp (by omega)
    have hones : BitVec.ofNat 11 b ≠ -1#_ := ofNat_ne_ones (by omega)
    have hzero : BitVec.ofNat 11 b ≠ 0#_ := ofNat_ne_ofNat (by omega) (by decide) (by omega)
    have hexponent : (BitVec.ofNat 11 b).toNat = b := Nat.mod_eq_of_lt (by omega)
    have hmantissa : (1#1 ++ BitVec.ofNat 52 m).toNat = m := by
      rw [toNat_implicit, BitVec.toNat_ofNat]
      omega
    obtain ⟨heq, -⟩ | ⟨heq, -⟩ | ⟨-, hpos, hunpack⟩ :=
      unpack_packComponents s (BitVec.ofNat 52 m) hones
    · exact absurd heq hzero
    · exact absurd heq hzero
    · rw [hunpack, UnpackedFloat.finite.injEq, hmantissa, hexponent]
      exact ⟨rfl, rfl, by omega⟩
  · rw [if_neg hbits]
    have hshort : m < 2 ^ 52 := (Nat.log2_lt h.ne').mp (by omega)
    have hlast : e = -1074 := hnormal.resolve_right (by omega)
    have hzero : BitVec.ofNat 52 m ≠ 0#_ := ofNat_ne_ofNat hshort (by decide) h.ne'
    have hmantissa : (BitVec.ofNat 52 m).toNat = m := Nat.mod_eq_of_lt hshort
    have hones : (0#_ : BitVec 11) ≠ -1#_ := by decide
    -- A short mantissa has the least exponent: it is packed without the implicit bit.
    obtain ⟨-, heq, -⟩ | ⟨-, hpos, hunpack⟩ | ⟨hne, -⟩ :=
      unpack_packComponents s (BitVec.ofNat 52 m) hones
    · exact absurd heq hzero
    · rw [hunpack, UnpackedFloat.finite.injEq]
      exact ⟨rfl, hmantissa, hlast.symm⟩
    · exact absurd rfl hne

/-- The magnitude of an unpacked float. -/
theorem unpack_abs (x : Float) : x.abs.toModel.unpack = x.toModel.unpack.abs := by
  show (Float.Model.pack x.toModel.unpack.abs).unpack = _
  cases hx : x.toModel.unpack with
  | finite s m e h => exact unpack_pack_finite h (isCanonical_of_unpack hx)
  | zero s => exact (rfl : (Float.Model.pack (.zero .positive)).unpack = .zero .positive)
  | infinity s =>
    exact (rfl : (Float.Model.pack (.infinity .positive)).unpack = .infinity .positive)
  | notANumber => rfl

/-- **The exact value of a magnitude.** -/
theorem ofFloat?_abs {x : Float} {b : Binary} (h : Binary.ofFloat? x = some b) :
    Binary.ofFloat? x.abs = some { b with negative := false } := by
  unfold Binary.ofFloat? at h ⊢
  rw [unpack_abs]
  cases hx : x.toModel.unpack with
  | finite s m e hm =>
    rw [hx] at h
    cases h
    rfl
  | zero s =>
    rw [hx] at h
    cases h
    rfl
  | infinity s =>
    rw [hx] at h
    cases h
  | notANumber =>
    rw [hx] at h
    cases h

/-! ### Values in order -/

/-- A lower exponent makes a lower value, whatever the mantissas are. -/
theorem IsCanonical.lt_of_exponent_lt {m n : Nat} {e f : Int} (hm : IsCanonical m e)
    (hn : IsCanonical n f) (h : e < f) : (m * 2 ^ e : ℚ) < n * 2 ^ f := by
  have hfirst : (2 ^ 52 : ℚ) ≤ n := by
    have := hm.le
    exact_mod_cast hn.normal.resolve_left (by omega)
  have hlast : (m : ℚ) < 2 ^ 53 := by exact_mod_cast hm.lt
  have hexponent : (2 : ℚ) ^ (e + 1) ≤ 2 ^ f := zpow_le_zpow_right₀ (by norm_num) h
  calc (m * 2 ^ e : ℚ) < 2 ^ 53 * 2 ^ e := by gcongr
    _ = 2 ^ 52 * 2 ^ (e + 1) := by rw [zpow_add_one₀ (by decide)]; ring
    _ ≤ n * 2 ^ f := mul_le_mul hfirst hexponent (by positivity) (by positivity)

/-- **Exponents first and mantissas second** is the order of the values. -/
theorem IsCanonical.compare_eq {m n : Nat} {e f : Int} (hm : IsCanonical m e)
    (hn : IsCanonical n f) :
    (compare e f).then (compare m n) = compare (m * 2 ^ e : ℚ) (n * 2 ^ f) := by
  rcases lt_trichotomy e f with hlt | rfl | hgt
  · rw [compare_lt_iff_lt.mpr hlt, compare_lt_iff_lt.mpr (hm.lt_of_exponent_lt hn hlt)]
    rfl
  · have hpos : (0 : ℚ) < 2 ^ e := by positivity
    rw [compare_eq_iff_eq.mpr (rfl : e = e), Ordering.then]
    rcases lt_trichotomy m n with hlt | rfl | hgt
    · have hvalue : (m * 2 ^ e : ℚ) < n * 2 ^ e := by gcongr
      rw [compare_lt_iff_lt.mpr hlt, compare_lt_iff_lt.mpr hvalue]
    · rw [compare_eq_iff_eq.mpr rfl, compare_eq_iff_eq.mpr rfl]
    · have hvalue : (n * 2 ^ e : ℚ) < m * 2 ^ e := by gcongr
      rw [compare_gt_iff_gt.mpr hgt, compare_gt_iff_gt.mpr hvalue]
  · rw [compare_gt_iff_gt.mpr hgt, compare_gt_iff_gt.mpr (hn.lt_of_exponent_lt hm hgt)]
    rfl

/-- The value of an unpacked float, if it is canonical and has one. -/
inductive IsExact : UnpackedFloat → ℚ → Prop where
  | zero (s : Sign) : IsExact (.zero s) 0
  | positive {m : Nat} {e : Int} (h : 0 < m) : IsCanonical m e →
      IsExact (.finite .positive m e h) (m * 2 ^ e)
  | negative {m : Nat} {e : Int} (h : 0 < m) : IsCanonical m e →
      IsExact (.finite .negative m e h) (-(m * 2 ^ e))

theorem compare_neg (p q : ℚ) : compare (-p) (-q) = (compare p q).swap := by
  rcases lt_trichotomy p q with hlt | rfl | hgt
  · rw [compare_lt_iff_lt.mpr hlt, compare_gt_iff_gt.mpr (neg_lt_neg hlt)]
    rfl
  · rw [compare_eq_iff_eq.mpr rfl, compare_eq_iff_eq.mpr rfl]
    rfl
  · rw [compare_gt_iff_gt.mpr hgt, compare_lt_iff_lt.mpr (neg_lt_neg hgt)]
    rfl

/-- **Unpacked floats are compared as their values.** -/
theorem IsExact.compare_eq {u v : UnpackedFloat} {p q : ℚ} (hu : IsExact u p) (hv : IsExact v q) :
    u.compare v = some (compare p q) := by
  have hpos : ∀ {m : Nat} {e : Int}, 0 < m → (0 : ℚ) < m * 2 ^ e := fun h => by positivity
  have hneg : ∀ {m : Nat} {e : Int}, 0 < m → -(m * 2 ^ e : ℚ) < 0 :=
    fun h => neg_lt_zero.mpr (hpos h)
  -- The signs decide, then the canonical forms: these are compared by exponent first.
  cases hu with
  | zero s =>
    cases hv with
    | zero t => rw [compare_eq_iff_eq.mpr rfl]; cases s <;> cases t <;> rfl
    | positive hn => rw [compare_lt_iff_lt.mpr (hpos hn)]; rfl
    | negative hn => rw [compare_gt_iff_gt.mpr (hneg hn)]; rfl
  | positive hm hcm =>
    cases hv with
    | zero t => rw [compare_gt_iff_gt.mpr (hpos hm)]; rfl
    | positive hn hcn => rw [← hcm.compare_eq hcn]; rfl
    | negative hn => rw [compare_gt_iff_gt.mpr ((hneg hn).trans (hpos hm))]; rfl
  | negative hm hcm =>
    cases hv with
    | zero t => rw [compare_lt_iff_lt.mpr (hneg hm)]; rfl
    | positive hn => rw [compare_lt_iff_lt.mpr ((hneg hm).trans (hpos hn))]; rfl
    | negative hn hcn => rw [compare_neg, ← hcm.compare_eq hcn]; rfl

/-! ### Floats in order -/

/-- The exact value as a multiple of a power of two. -/
theorem Binary.toRat_eq (b : Binary) :
    b.toRat = (if b.negative then -1 else 1) * (b.mantissa * 2 ^ b.exponent) := by
  have hpow : (2 : ℚ) ^ b.exponent = 2 ^ b.exponent.toNat / 2 ^ (-b.exponent).toNat := by
    rw [← zpow_natCast, ← zpow_natCast, ← zpow_sub₀ (by decide)]
    congr 1
    omega
  have hvalue : (b.numerator : ℚ) / b.denominator = b.mantissa * 2 ^ b.exponent := by
    rw [hpow, numerator, denominator, Nat.pow_eq, Nat.pow_eq]
    push_cast
    ring
  rw [toRat, Rat.mkRat_eq_div, ← hvalue]
  cases b.negative
  · simp
  · simp [neg_div]

/-- The value of a float that has an exact one. -/
theorem isExact_of_ofFloat? {x : Float} {b : Binary} (h : Binary.ofFloat? x = some b) :
    IsExact x.toModel.unpack b.toRat := by
  rw [Binary.toRat_eq]
  unfold Binary.ofFloat? at h
  split at h
  · next s m e hm hx =>
    cases h
    have hc := isCanonical_of_unpack hx
    rw [hx]
    cases s with
    | positive =>
      convert IsExact.positive hm hc using 1
      simp
    | negative =>
      convert IsExact.negative hm hc using 1
      simp
  · next s hx =>
    cases h
    rw [hx]
    simpa using IsExact.zero s
  · cases h
  · cases h

/-- Floats are compared when they are unpacked. -/
theorem lt_iff_compare (x y : Float) :
    x < y ↔ UnpackedFloat.lt x.toModel.unpack y.toModel.unpack = true :=
  decide_eq_true_iff (p := UnpackedFloat.lt x.toModel.unpack y.toModel.unpack = true)

theorem le_iff_compare (x y : Float) :
    x ≤ y ↔ UnpackedFloat.le x.toModel.unpack y.toModel.unpack = true :=
  decide_eq_true_iff (p := UnpackedFloat.le x.toModel.unpack y.toModel.unpack = true)

variable {x y : Float} {a b : Binary}

/-- **Finite floats are ordered as their exact values.** -/
theorem lt_iff_toRat (hx : Binary.ofFloat? x = some a) (hy : Binary.ofFloat? y = some b) :
    x < y ↔ a.toRat < b.toRat := by
  have hcompare := (isExact_of_ofFloat? hx).compare_eq (isExact_of_ofFloat? hy)
  rw [lt_iff_compare, UnpackedFloat.lt, hcompare, beq_iff_eq, Option.some_inj, compare_lt_iff_lt]

/-- **Finite floats are ordered as their exact values**, where they may be equal, too. -/
theorem le_iff_toRat (hx : Binary.ofFloat? x = some a) (hy : Binary.ofFloat? y = some b) :
    x ≤ y ↔ a.toRat ≤ b.toRat := by
  have hcompare := (isExact_of_ofFloat? hx).compare_eq (isExact_of_ofFloat? hy)
  rw [le_iff_compare, UnpackedFloat.le, hcompare, Option.any_some, Ordering.isLE_iff_ne_gt]
  exact compare_le_iff_le

end Reckoner.Number
