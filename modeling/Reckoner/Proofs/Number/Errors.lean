import Mathlib.Tactic.FieldSimp
import Mathlib.Tactic.Linarith
import Mathlib.Tactic.Positivity
import Reckoner.Proofs.Number.Finite
import Reckoner.Proofs.Number.Rounded

/-!
# Sums, differences and products of floats

What is computed of two floats is the exact result, rounded once.  Rounding goes half a unit of the
last bit that a float has of a number, so that only a small share of the number is lost: one part in
`2 ^ 53`, and for a product below the least floats half of the least one besides.

* `IsWorth`, `isWorth_shiftRight` — the number that a mantissa with two further bits is worth.
* `IsWorth.isNearest_roundedMantissa` — such a mantissa is rounded to the nearest whole number.
* `signed`, `lastExponent` — a magnitude with a sign, and the place of the last bit of a float.
* `isExact_roundWithAccuracy`, `isExact_round` — rounding gives the rounded fraction.
* `isExact_add`, `isExact_sub`, `isExact_mul` — sums, differences and products of floats.
* `abs_rounded_sub_le` — rounding goes half a unit at most.
* `exists_isExact_sub`, `exists_isExact_mul` — how much of a difference or a product is lost.
* `isExact_abs`, `isExact_neg`, `isExact_ofInt` — what is computed without an error.
-/

namespace Reckoner.Number

open Float.Model Float.Model.UnpackedFloat

/-! ### Mantissas with two further bits -/

/-- The number that a mantissa with its two further bits is worth.  The first of them is a half, and
    the second one says that there is more, but less than a half. -/
inductive IsWorth : ExtendedMantissa → ℚ → Prop where
  | exact (m : Nat) : IsWorth ⟨m, false, false⟩ m
  | below {m : Nat} {q : ℚ} : m < q → q < m + 1 / 2 → IsWorth ⟨m, false, true⟩ q
  | half (m : Nat) : IsWorth ⟨m, true, false⟩ (m + 1 / 2)
  | above {m : Nat} {q : ℚ} : m + 1 / 2 < q → q < m + 1 → IsWorth ⟨m, true, true⟩ q

/-- An even mantissa leaves no half. -/
theorem shiftRightOne_even (k : Nat) (r s : Bool) :
    ExtendedMantissa.shiftRightOne ⟨2 * k, r, s⟩ = ⟨k, false, r || s⟩ := by
  simp [ExtendedMantissa.shiftRightOne]

/-- An odd mantissa leaves a half. -/
theorem shiftRightOne_odd (k : Nat) (r s : Bool) :
    ExtendedMantissa.shiftRightOne ⟨2 * k + 1, r, s⟩ = ⟨k, true, r || s⟩ := by
  simp only [ExtendedMantissa.shiftRightOne, Nat.mul_add_mod, Nat.mod_eq_of_lt (Nat.lt_succ_self 1)]
  congr 1
  omega

/-- The last bit becomes the first of the two further ones, and these become the second one. -/
theorem IsWorth.shiftRightOne {em : ExtendedMantissa} {q : ℚ} (h : IsWorth em q) :
    IsWorth em.shiftRightOne (q / 2) := by
  -- The last bit moves out: where it was set, what remains is a half or more.
  have hhalves : ∀ m : Nat, ∃ k, m = 2 * k ∨ m = 2 * k + 1 := fun m => ⟨m / 2, by omega⟩
  cases h with
  | exact m =>
    obtain ⟨k, rfl | rfl⟩ := hhalves m
    · rw [shiftRightOne_even]
      simpa using IsWorth.exact k
    · rw [shiftRightOne_odd, show ((2 * k + 1 : ℕ) : ℚ) / 2 = k + 1 / 2 by push_cast; ring]
      exact .half k
  | @below m q hlow hhigh =>
    obtain ⟨k, rfl | rfl⟩ := hhalves m
    all_goals push_cast at hlow hhigh
    · rw [shiftRightOne_even]
      exact .below (by linarith) (by linarith)
    · rw [shiftRightOne_odd]
      exact .above (by linarith) (by linarith)
  | half m =>
    obtain ⟨k, rfl | rfl⟩ := hhalves m
    · rw [shiftRightOne_even]
      exact .below (by push_cast; linarith) (by push_cast; linarith)
    · rw [shiftRightOne_odd]
      exact .above (by push_cast; linarith) (by push_cast; linarith)
  | @above m q hlow hhigh =>
    obtain ⟨k, rfl | rfl⟩ := hhalves m
    all_goals push_cast at hlow hhigh
    · rw [shiftRightOne_even]
      exact .below (by linarith) (by linarith)
    · rw [shiftRightOne_odd]
      exact .above (by linarith) (by linarith)

/-- **Shifting keeps what a mantissa is worth**, in units that are larger. -/
theorem isWorth_shiftRight (m k : Nat) :
    IsWorth (ExtendedMantissa.ofMantissaAndAccuracy m .exact >>> k) (m / 2 ^ k) := by
  induction k with
  | zero =>
    rw [pow_zero, div_one]
    exact .exact m
  | succ k ih =>
    have hstep : ExtendedMantissa.ofMantissaAndAccuracy m .exact >>> (k + 1) =
      (ExtendedMantissa.ofMantissaAndAccuracy m .exact >>> k).shiftRightOne := rfl
    rw [hstep, pow_succ, ← div_div]
    exact ih.shiftRightOne

/-- **A mantissa is rounded to the nearest whole number**, and a half to the even one. -/
theorem IsWorth.isNearest_roundedMantissa {em : ExtendedMantissa} {q : ℚ} (h : IsWorth em q) :
    IsNearest 0 q em.roundedMantissa := by
  cases h with
  | exact m =>
    rw [show (ExtendedMantissa.mk m false false).roundedMantissa = m from rfl]
    exact isNearest_intCast 0 m
  | @below m q hlow hhigh =>
    rw [show (ExtendedMantissa.mk m false true).roundedMantissa = m from rfl]
    have hlt : |(m : ℚ) - q| < 1 / 2 := abs_lt.mpr ⟨by linarith, by linarith⟩
    -- Only an exact half is a tie, and there the even neighbour is taken.
    exact isNearest_natCast hlt.le fun htie => absurd htie hlt.ne
  | half m =>
    rw [show (ExtendedMantissa.mk m true false).roundedMantissa = m + m % 2 from rfl]
    have hlast : (0 : ℚ) ≤ (m % 2 : ℕ) ∧ ((m % 2 : ℕ) : ℚ) ≤ 1 :=
      ⟨Nat.cast_nonneg _, by exact_mod_cast Nat.lt_succ_iff.mp (Nat.mod_lt m two_pos)⟩
    refine isNearest_natCast (abs_le.mpr ?_) fun _ => Nat.even_iff.mpr (by omega)
    push_cast at hlast ⊢
    constructor <;> linarith [hlast.1, hlast.2]
  | @above m q hlow hhigh =>
    rw [show (ExtendedMantissa.mk m true true).roundedMantissa = m + 1 from rfl]
    have hlt : |((m + 1 : ℕ) : ℚ) - q| < 1 / 2 := by
      push_cast
      exact abs_lt.mpr ⟨by linarith, by linarith⟩
    exact isNearest_natCast hlt.le fun htie => absurd htie hlt.ne

/-! ### Rounded magnitudes -/

/-- A magnitude has no sign. -/
theorem magnitude_nonneg (m : Nat) (e : Int) : (0 : ℚ) ≤ m * 2 ^ e := by positivity

/-- A magnitude with a sign. -/
def signed : Sign → ℚ → ℚ
  | .positive, q => q
  | .negative, q => -q

/-- The sign does not change the magnitude. -/
theorem abs_signed (s : Sign) (m : Nat) (e : Int) : |signed s (m * 2 ^ e)| = m * 2 ^ e := by
  cases s <;> simp only [signed, abs_neg, abs_of_nonneg (magnitude_nonneg m e)]

/-- The sign is not rounded. -/
theorem rounded_signed (s : Sign) (q : ℚ) : rounded (signed s q) = signed s (rounded q) := by
  cases s with
  | positive => rfl
  | negative => exact rounded_neg q

/-- A canonical float has its mantissa times its power of two for a value, with its sign. -/
theorem isExact_finite (s : Sign) {m : Nat} {e : Int} (h : 0 < m) (hc : IsCanonical m e) :
    IsExact (.finite s m e h) (signed s (m * 2 ^ e)) := by
  cases s with
  | positive => exact .positive h hc
  | negative => exact .negative h hc

/-- Both zeros have the value zero, and so has zero with either sign. -/
theorem isExact_zero (s t : Sign) : IsExact (.zero s) (signed t 0) := by
  cases t with
  | positive => exact .zero s
  | negative =>
    rw [signed, neg_zero]
    exact .zero s

/-- The exponent of the last bit that a float has of a number. -/
def lastExponent (m : Nat) (e : Int) : Int := max (m.log2 + e - 52) (-1074)

/-- A number is not below the power of two at its first bit. -/
theorem two_zpow_log2_le {m : Nat} (hm : 0 < m) (e : Int) : (2 : ℚ) ^ (m.log2 + e) ≤ m * 2 ^ e := by
  have hlog : ((2 ^ m.log2 : ℕ) : ℚ) ≤ m := by exact_mod_cast Nat.log2_self_le hm.ne'
  rw [zpow_add₀ two_ne_zero, zpow_natCast]
  push_cast at hlog
  gcongr

/-- It is below the next one. -/
theorem lt_two_zpow_log2_succ (m : Nat) (e : Int) : (m * 2 ^ e : ℚ) < 2 ^ (m.log2 + e + 1) := by
  have hlog : (m : ℚ) < (2 ^ (m.log2 + 1) : ℕ) := by exact_mod_cast Nat.lt_log2_self
  rw [show (m.log2 + e + 1 : ℤ) = (m.log2 + 1 : ℕ) + e by push_cast; ring, zpow_add₀ two_ne_zero,
    zpow_natCast]
  push_cast at hlog
  gcongr

/-- The last bit of a float stands at the last place of the fraction. -/
theorem lastPlace_eq_lastExponent {m : Nat} (hm : 0 < m) (e : Int) :
    Binary.lastPlace (m * 2 ^ e) = lastExponent m e := by
  have hpos : (0 : ℚ) < m * 2 ^ e := by positivity
  have hlow := two_zpow_log2_le hm e
  have hhigh := lt_two_zpow_log2_succ m e
  rw [← abs_of_pos hpos] at hlow hhigh
  rw [Binary.lastPlace, Binary.firstPlace_eq hpos.ne' hlow hhigh, lastExponent]

/-- A rounded mantissa has one bit more than a float at most, and then this bit is all it has. -/
theorem exists_isCanonical {r : Nat} {t : Int} (hpos : 0 < r) (hle : r ≤ 2 ^ 53)
    (hlow : -1074 ≤ t) (hhigh : t ≤ 970) (hnormal : t = -1074 ∨ 2 ^ 52 ≤ r) :
    ∃ m j : Nat, r = m * 2 ^ j ∧ IsCanonical m (t + j) := by
  obtain hlt | rfl := hle.lt_or_eq
  · exact ⟨r, 0, by simp, ⟨⟨hpos, hlt, by omega⟩, by omega, by omega⟩⟩
  · exact ⟨2 ^ 52, 1, by norm_num, ⟨⟨by norm_num, by norm_num, by omega⟩, by omega, by omega⟩⟩

/-- **A number is rounded to the nearest multiple of its last place.** -/
theorem isExact_roundWithAccuracy {m : Nat} {e : Int} (hm : 0 < m)
    (he : e ≤ lastExponent m e) (hlarge : m.log2 + e ≤ 1022) (s : Sign) :
    IsExact (roundWithAccuracy .binary64 s m e .exact) (signed s (rounded (m * 2 ^ e))) := by
  obtain ⟨k, hk⟩ : ∃ k : Nat, lastExponent m e = e + k := ⟨(lastExponent m e - e).toNat, by omega⟩
  have htarget := hk
  unfold lastExponent at htarget
  generalize hem : ExtendedMantissa.ofMantissaAndAccuracy m .exact >>> k = em
  have hfirst : shiftToTargetExponent .binary64 m e .exact = (em, e + k) := by
    have hshift : (max ((m.log2 : Int) + 1 + e - 53) (-1074) - e).toNat = k := by omega
    unfold shiftToTargetExponent shiftToExponent totalExponent
    rw [targetExponent_binary64]
    simp only [hshift, hem]
  have hmantissa : em.mantissa = m / 2 ^ k := by
    rw [← hem, mantissa_shiftRight, mantissa_ofMantissaAndAccuracy]
  have hrounded : rounded (m * 2 ^ e) = em.roundedMantissa * 2 ^ (e + k) := by
    have hplace : Binary.lastPlace (m * 2 ^ e) = e + k := (lastPlace_eq_lastExponent hm e).trans hk
    -- In units of the last bit, the number is `m / 2 ^ k`.
    have hcount : (m * 2 ^ e / 2 ^ Binary.lastPlace (m * 2 ^ e) : ℚ) = m / 2 ^ k := by
      rw [hplace, zpow_add₀ two_ne_zero, zpow_natCast]
      field_simp
    have hworth := isWorth_shiftRight m k
    rw [hem, ← hcount] at hworth
    rw [rounded_of_isNearest (magnitude_nonneg m e) hworth.isNearest_roundedMantissa, hplace]
  rw [hrounded]
  obtain hzero | hpos := Nat.eq_zero_or_pos em.roundedMantissa
  · have hnone : (shiftToTargetExponent .binary64 em.roundedMantissa (e + k) .exact).1.mantissa =
        0 := by
      rw [mantissa_shiftToTargetExponent, hzero, Nat.zero_div]
    rw [roundWithAccuracy_eq_zero hfirst rfl hnone, hzero, Nat.cast_zero, zero_mul]
    exact isExact_zero s s
  · have hle : em.roundedMantissa ≤ 2 ^ 53 := by
      have hbits : em.mantissa < 2 ^ 53 := by
        rw [hmantissa, Nat.div_lt_iff_lt_mul (Nat.two_pow_pos k), ← Nat.pow_add]
        exact Nat.lt_log2_self.trans_le (Nat.pow_le_pow_right two_pos (by omega))
      exact (roundedMantissa_le em).trans hbits
    have hnormal : e + k = -1074 ∨ 2 ^ 52 ≤ em.roundedMantissa := by
      by_cases hlast : e + k = -1074
      · exact .inl hlast
      · refine .inr (le_trans ?_ (le_roundedMantissa em))
        rw [hmantissa, Nat.le_div_iff_mul_le (Nat.two_pow_pos k), ← Nat.pow_add]
        exact (Nat.pow_le_pow_right two_pos (by omega)).trans (Nat.log2_self_le hm.ne')
    obtain ⟨m', j, hr, hc⟩ := exists_isCanonical hpos hle (by omega) (by omega) hnormal
    have hsecond := hc.shiftToTargetExponent_eq j
    rw [← hr, Int.add_sub_cancel] at hsecond
    have hvalue : (em.roundedMantissa : ℚ) * 2 ^ (e + k) = m' * 2 ^ (e + k + j) := by
      rw [hr, zpow_add₀ two_ne_zero _ (j : ℤ), zpow_natCast]
      push_cast
      ring
    rw [roundWithAccuracy_eq_finite hfirst hsecond hc.pos, hvalue]
    exact isExact_finite s hc.pos hc

/-- A number below a power of two has no more bits. -/
theorem log2_add_lt {m : Nat} {e k : Int} (hm : 0 < m) (h : (m * 2 ^ e : ℚ) < 2 ^ k) :
    m.log2 + e < k := by
  have hlt := (two_zpow_log2_le hm e).trans_lt h
  rwa [zpow_lt_zpow_iff_right₀ one_lt_two] at hlt

/-- **A magnitude is rounded as a fraction is**, if it is not too large for a float. -/
theorem isExact_round {n : Nat} {e : Int} (hn : 0 < n) (hlarge : n.log2 + e ≤ 1022) (s : Sign) :
    IsExact (UnpackedFloat.round .binary64 s n e) (signed s (rounded (n * 2 ^ e))) := by
  have htarget : Format.binary64.targetExponent (totalExponent n e) = lastExponent n e := by
    rw [targetExponent_binary64, totalExponent, lastExponent]
    omega
  have hlast : lastExponent n e = max ((n.log2 : Int) + e - 52) (-1074) := rfl
  obtain hle | hlt := le_or_gt (lastExponent n e) e
  · -- There is room for all bits of the number.
    obtain ⟨j, hj⟩ : ∃ j : Nat, e = lastExponent n e + j := ⟨(e - lastExponent n e).toNat, by omega⟩
    have hlog := log2_mul_two_pow hn.ne' j
    have hc : IsCanonical (n * 2 ^ j) (e - j) := by
      have hpos : 0 < n * 2 ^ j := Nat.mul_pos hn (Nat.two_pow_pos j)
      refine ⟨⟨hpos, ?_, by omega⟩, by omega, ?_⟩
      · exact (Nat.log2_lt hpos.ne').mp (by omega)
      · obtain hnormal | hsmall := max_choice ((n.log2 : Int) + e - 52) (-1074)
        · exact .inr ((Nat.le_log2 hpos.ne').mp (by omega))
        · exact .inl (by omega)
    have hvalue : (n : ℚ) * 2 ^ e = (n * 2 ^ j : ℕ) * 2 ^ (e - j) := by
      rw [zpow_sub₀ two_ne_zero, zpow_natCast]
      push_cast
      field_simp
    rw [round_canonical (by rw [htarget]; omega) hc, hvalue, rounded_of_fits hc.lt hc.le]
    exact isExact_finite s hc.pos hc
  · rw [round_eq (k := 0) (by rw [htarget]; omega), pow_zero, Nat.mul_one, Nat.cast_zero,
      Int.sub_zero]
    exact isExact_roundWithAccuracy hn hlt.le hlarge s

/-! ### Sums, differences and products -/

/-- A float with a value is zero, or it has a sign, a mantissa and an exponent. -/
theorem IsExact.zero_or_finite {u : UnpackedFloat} {p : ℚ} (h : IsExact u p) :
    (∃ s, u = .zero s ∧ p = 0) ∨
      ∃ s m e hm, u = .finite s m e hm ∧ IsCanonical m e ∧ p = signed s (m * 2 ^ e) := by
  cases h with
  | zero s => exact .inl ⟨s, rfl, rfl⟩
  | positive hm hc => exact .inr ⟨.positive, _, _, hm, rfl, hc, rfl⟩
  | negative hm hc => exact .inr ⟨.negative, _, _, hm, rfl, hc, rfl⟩

/-- **A signed number** is rounded as a fraction is, if it is not too large for a float. -/
theorem isExact_normalize {k e : Int} (hlarge : |(k : ℚ) * 2 ^ e| < 2 ^ (1023 : ℤ)) (s : Sign) :
    IsExact (UnpackedFloat.normalize .binary64 k e s) (rounded (k * 2 ^ e)) := by
  have hnat : ∀ n : Nat, 0 < n → (n : ℚ) * 2 ^ e < 2 ^ (1023 : ℤ) → ∀ t : Sign,
      IsExact (UnpackedFloat.round .binary64 t n e) (signed t (rounded (n * 2 ^ e))) := by
    intro n hn hlt
    have hbits := log2_add_lt hn hlt
    exact isExact_round hn (by omega)
  unfold UnpackedFloat.normalize
  -- The sign is put aside, and the magnitude is rounded.
  obtain hneg | rfl | hpos := lt_trichotomy k 0
  · obtain ⟨n, rfl⟩ : ∃ n : Nat, k = -n := ⟨(-k).toNat, by omega⟩
    have hvalue : ((-(n : ℤ) : ℤ) : ℚ) * 2 ^ e = -(n * 2 ^ e) := by push_cast; ring
    rw [hvalue, abs_neg, abs_of_nonneg (magnitude_nonneg n e)] at hlarge
    rw [hvalue, rounded_neg, compare_lt_iff_lt.mpr hneg, Int.neg_neg, Int.toNat_natCast]
    exact hnat n (by omega) hlarge .negative
  · rw [compare_eq_iff_eq.mpr rfl, Int.cast_zero, zero_mul, rounded_zero]
    exact .zero s
  · obtain ⟨n, rfl⟩ : ∃ n : Nat, k = n := ⟨k.toNat, by omega⟩
    rw [Int.cast_natCast, abs_of_nonneg (magnitude_nonneg n e)] at hlarge
    rw [compare_gt_iff_gt.mpr hpos]
    exact hnat n (by omega) hlarge .positive

/-- A value counted in smaller units. -/
theorem signed_shift {s : Sign} {m : Nat} {e g : Int} (h : g ≤ e) :
    signed s (m * 2 ^ e) = (s.apply ((m <<< (e - g).toNat : ℕ) : ℤ) : ℤ) * 2 ^ g := by
  obtain ⟨k, rfl⟩ : ∃ k : Nat, e = g + k := ⟨(e - g).toNat, by omega⟩
  have hshift : (g + k - g).toNat = k := by omega
  rw [hshift, Nat.shiftLeft_eq, zpow_add₀ two_ne_zero, zpow_natCast]
  cases s <;> simp [signed, Sign.apply] <;> ring

variable {u v : UnpackedFloat} {p q : ℚ}

/-- The negative of a float has the negative value. -/
theorem IsExact.neg (h : IsExact u p) : IsExact u.neg (-p) := by
  obtain ⟨s, rfl, rfl⟩ | ⟨s, m, e, hm, rfl, hc, rfl⟩ := h.zero_or_finite
  · rw [neg_zero]
    exact .zero _
  · cases s with
    | positive => exact isExact_finite .negative hm hc
    | negative =>
      rw [signed, neg_neg]
      exact isExact_finite .positive hm hc

/-- **A sum is the exact sum, rounded.** -/
theorem IsExact.add (hu : IsExact u p) (hv : IsExact v q) (hlarge : |p + q| < 2 ^ (1023 : ℤ)) :
    IsExact (UnpackedFloat.add .binary64 u v) (rounded (p + q)) := by
  obtain ⟨s, rfl, rfl⟩ | ⟨s, m, e, hm, rfl, hc, hp⟩ := hu.zero_or_finite
  · obtain ⟨t, rfl, rfl⟩ | ⟨t, n, f, hn, rfl, hd, hq⟩ := hv.zero_or_finite
    · rw [add_zero, rounded_zero]
      unfold UnpackedFloat.add
      dsimp only
      split_ifs <;> exact .zero _
    · rw [zero_add, rounded_of_isExact hv]
      exact hv
  · obtain ⟨t, rfl, rfl⟩ | ⟨t, n, f, hn, rfl, hd, hq⟩ := hv.zero_or_finite
    · rw [add_zero, rounded_of_isExact hu]
      exact hu
    · -- Both are counted in units of the last bit of the smaller exponent.
      have hvalue : p + q = ((s.apply ((m <<< (e - min e f).toNat : ℕ) : ℤ) +
          t.apply ((n <<< (f - min e f).toNat : ℕ) : ℤ) : ℤ) : ℚ) * 2 ^ min e f := by
        rw [hp, hq, signed_shift (min_le_left e f), signed_shift (min_le_right e f)]
        push_cast
        ring
      rw [hvalue] at hlarge ⊢
      exact isExact_normalize hlarge .positive

/-- A difference is the sum with the negative. -/
theorem unpackedSub_eq_add_neg (u v : UnpackedFloat) :
    UnpackedFloat.sub .binary64 u v = UnpackedFloat.add .binary64 u v.neg := by
  have happly : ∀ (s : Sign) (k : Int), (-s).apply k = -s.apply k := by
    intro s k
    cases s with
    | positive => rfl
    | negative => exact (Int.neg_neg k).symm
  cases u with
  | finite s m e hm =>
    cases v with
    | finite t n f hn =>
      have hsum : ∀ j k : Nat, s.apply j - t.apply k = s.apply j + (-t).apply k := by
        intro j k
        rw [happly, Int.sub_eq_add_neg]
      exact congrArg (UnpackedFloat.normalize .binary64 · (min e f) .positive) (hsum _ _)
    | zero | infinity | notANumber => rfl
  | zero | infinity | notANumber => cases v <;> rfl

/-- **A product is the exact product, rounded.** -/
theorem IsExact.mul (hu : IsExact u p) (hv : IsExact v q) (hlarge : |p * q| < 2 ^ (1023 : ℤ)) :
    IsExact (UnpackedFloat.mul .binary64 u v) (rounded (p * q)) := by
  obtain ⟨s, rfl, rfl⟩ | ⟨s, m, e, hm, rfl, hc, hp⟩ := hu.zero_or_finite
  · rw [zero_mul, rounded_zero]
    obtain ⟨t, rfl, rfl⟩ | ⟨t, n, f, hn, rfl, hd, hq⟩ := hv.zero_or_finite
    · exact .zero _
    · exact .zero _
  · obtain ⟨t, rfl, rfl⟩ | ⟨t, n, f, hn, rfl, hd, hq⟩ := hv.zero_or_finite
    · rw [mul_zero, rounded_zero]
      exact .zero _
    · have hmn : 0 < m * n := Nat.mul_pos hm hn
      have hvalue : p * q = signed (s * t) ((m * n : ℕ) * 2 ^ (e + f)) := by
        rw [hp, hq, zpow_add₀ two_ne_zero]
        cases s <;> cases t <;> simp [signed] <;> ring
      rw [hvalue, abs_signed] at hlarge
      rw [hvalue, rounded_signed]
      -- A product of short mantissas has the smallest exponents.
      have hexponent : e + f ≤ lastExponent (m * n) (e + f) := by
        have hcases := hc.normal
        have hcases' := hd.normal
        unfold lastExponent
        by_cases hlong : 2 ^ 52 ≤ m * n
        · have hlog := (Nat.le_log2 hmn.ne').mpr hlong
          omega
        · have hle : m ≤ m * n := Nat.le_mul_of_pos_right m hn
          have hle' : n ≤ m * n := Nat.le_mul_of_pos_left n hm
          omega
      have hbits := log2_add_lt hmn hlarge
      exact isExact_roundWithAccuracy hmn hexponent (by omega) (s * t)

/-! ### Errors -/

variable {x : ℚ}

/-- Rounding goes as far for a number as for its magnitude. -/
theorem abs_rounded_abs_sub (x : ℚ) : |rounded (abs x) - abs x| = |rounded x - x| := by
  obtain h | h := abs_choice x
  · rw [h]
  · rw [h, rounded_neg, neg_sub_neg, abs_sub_comm]

/-- **Rounding goes half a unit of the last place at most.** -/
theorem abs_rounded_sub_le (h : 0 ≤ x) : |rounded x - x| ≤ 2 ^ Binary.lastPlace x / 2 := by
  have hunit : (0 : ℚ) < 2 ^ Binary.lastPlace x := by positivity
  have hhalf := (Binary.isNearest_ofRat x).abs_sub_le
  rw [abs_of_nonneg h, pow_zero, div_one] at hhalf
  rw [rounded_of_nonneg h]
  generalize (2 : ℚ) ^ Binary.lastPlace x = unit at hunit hhalf ⊢
  calc |(Binary.ofRat x).mantissa * unit - x|
      = |(Binary.ofRat x).mantissa - x / unit| * unit := by
        rw [← abs_of_pos hunit, ← abs_mul, abs_of_pos hunit, sub_mul, div_mul_cancel₀ x hunit.ne']
    _ ≤ 1 / 2 * unit := by gcongr
    _ = unit / 2 := by ring

/-- Above the least floats, half a unit of the last place is a small share of the number. -/
theorem two_zpow_lastPlace_le (h : 0 < x) (hlast : -1074 < Binary.lastPlace x) :
    (2 : ℚ) ^ Binary.lastPlace x / 2 ≤ x / 2 ^ 53 := by
  have hfirst := Binary.two_zpow_firstPlace_le_abs h.ne'
  have hplace : Binary.lastPlace x = Binary.firstPlace x.num.natAbs x.den - 52 := by
    unfold Binary.lastPlace at hlast ⊢
    omega
  have hexponent : (2 : ℚ) ^ Binary.lastPlace x / 2 =
      2 ^ Binary.firstPlace x.num.natAbs x.den / 2 ^ 53 := by
    rw [hplace, zpow_sub₀ two_ne_zero]
    norm_num
    ring
  rw [abs_of_pos h] at hfirst
  rw [hexponent]
  gcongr

/-- **Rounding loses a small share** of a number, and half of the least float besides. -/
theorem abs_rounded_sub_le_share (x : ℚ) : |rounded x - x| ≤ |x| / 2 ^ 53 + 2 ^ (-1075 : ℤ) := by
  have hleast : (0 : ℚ) < 2 ^ (-1075 : ℤ) := by positivity
  rw [← abs_rounded_abs_sub]
  obtain hzero | hpos := (abs_nonneg x).eq_or_lt
  · rw [← hzero, rounded_zero, sub_zero, abs_zero, zero_div, zero_add]
    exact hleast.le
  · refine (abs_rounded_sub_le hpos.le).trans ?_
    have hlow : -1074 ≤ Binary.lastPlace |x| := le_max_right _ _
    obtain hlast | hlast := hlow.eq_or_lt
    · have hexponent : (2 : ℚ) ^ (-1074 : ℤ) / 2 = 2 ^ (-1075 : ℤ) := by
        rw [show (-1074 : ℤ) = -1075 + 1 by norm_num, zpow_add_one₀ two_ne_zero]
        ring
      rw [← hlast, hexponent]
      exact le_add_of_nonneg_left (by positivity)
    · exact (two_zpow_lastPlace_le hpos hlast).trans (le_add_of_nonneg_right hleast.le)

/-- **Rounding multiples of the least float** loses a small share of them at most. -/
theorem abs_rounded_sub_le_of_multiple {n : Nat} {e : ℤ} (he : -1074 ≤ e) (h : |x| = n * 2 ^ e) :
    |rounded x - x| ≤ |x| / 2 ^ 53 := by
  rw [← abs_rounded_abs_sub]
  obtain hle | hlt := le_or_gt (Binary.lastPlace |x|) e
  · -- There is room for all bits of the number.
    have hexact : rounded |x| = |x| := by
      rw [h] at hle ⊢
      exact rounded_of_lastPlace_le hle
    rw [hexact, sub_self, abs_zero]
    positivity
  · obtain hzero | hpos := (abs_nonneg x).eq_or_lt
    · rw [← hzero, rounded_zero, sub_zero, abs_zero, zero_div]
    · exact (abs_rounded_sub_le hpos.le).trans (two_zpow_lastPlace_le hpos (he.trans_lt hlt))

/-- A float is a multiple of the least one. -/
theorem IsExact.exists_eq_mul (h : IsExact u p) : ∃ k : ℤ, p = k * 2 ^ (-1074 : ℤ) := by
  obtain ⟨s, rfl, rfl⟩ | ⟨s, m, e, hm, rfl, hc, rfl⟩ := h.zero_or_finite
  · exact ⟨0, by simp⟩
  · exact ⟨_, signed_shift hc.le⟩

/-! ### Floats -/

/-- Packing keeps a value. -/
theorem IsExact.unpack_pack (h : IsExact u p) : IsExact (Float.Model.pack u).unpack p := by
  obtain ⟨s, rfl, rfl⟩ | ⟨s, m, e, hm, rfl, hc, -⟩ := h.zero_or_finite
  · cases s <;> exact .zero _
  · rwa [unpack_pack_finite hm hc]

/-- A float that has a value has it exactly. -/
theorem exists_ofFloat?_of_isExact {x : Float} (h : IsExact x.toModel.unpack p) :
    ∃ b, Binary.ofFloat? x = some b ∧ b.toRat = p := by
  unfold Binary.ofFloat?
  generalize hx : x.toModel.unpack = u at h
  cases h with
  | zero s => exact ⟨_, rfl, by rw [Binary.toRat_eq]; simp⟩
  | positive hm hc => exact ⟨_, rfl, by rw [Binary.toRat_eq]; simp⟩
  | negative hm hc => exact ⟨_, rfl, by rw [Binary.toRat_eq]; simp⟩

variable {x y : Float}

/-- The absolute value of a float has the magnitude of its value. -/
theorem isExact_abs (h : IsExact x.toModel.unpack p) : IsExact x.abs.toModel.unpack |p| := by
  rw [unpack_abs]
  obtain ⟨s, hx, rfl⟩ | ⟨s, m, e, hm, hx, hc, rfl⟩ := h.zero_or_finite
  · rw [hx, abs_zero]
    exact .zero _
  · rw [hx, abs_signed]
    exact .positive hm hc

@[inherit_doc IsExact.neg]
theorem isExact_neg (h : IsExact x.toModel.unpack p) : IsExact (-x).toModel.unpack (-p) :=
  h.neg.unpack_pack

@[inherit_doc IsExact.add]
theorem isExact_add (hx : IsExact x.toModel.unpack p) (hy : IsExact y.toModel.unpack q)
    (hlarge : |p + q| < 2 ^ (1023 : ℤ)) : IsExact (x + y).toModel.unpack (rounded (p + q)) :=
  (hx.add hy hlarge).unpack_pack

/-- **A difference is the exact difference, rounded.** -/
theorem isExact_sub (hx : IsExact x.toModel.unpack p) (hy : IsExact y.toModel.unpack q)
    (hlarge : |p - q| < 2 ^ (1023 : ℤ)) : IsExact (x - y).toModel.unpack (rounded (p - q)) := by
  rw [sub_eq_add_neg] at hlarge ⊢
  have hsum := (hx.add hy.neg hlarge).unpack_pack
  rwa [← unpackedSub_eq_add_neg] at hsum

@[inherit_doc IsExact.mul]
theorem isExact_mul (hx : IsExact x.toModel.unpack p) (hy : IsExact y.toModel.unpack q)
    (hlarge : |p * q| < 2 ^ (1023 : ℤ)) : IsExact (x * y).toModel.unpack (rounded (p * q)) :=
  (hx.mul hy hlarge).unpack_pack

/-- A difference loses a small share of itself at most. -/
theorem exists_isExact_sub (hx : IsExact x.toModel.unpack p) (hy : IsExact y.toModel.unpack q)
    (hlarge : |p - q| < 2 ^ (1023 : ℤ)) :
    ∃ w, IsExact (x - y).toModel.unpack w ∧ |w - (p - q)| ≤ |p - q| / 2 ^ 53 := by
  refine ⟨_, isExact_sub hx hy hlarge, ?_⟩
  obtain ⟨k, rfl⟩ := hx.exists_eq_mul
  obtain ⟨j, rfl⟩ := hy.exists_eq_mul
  refine abs_rounded_sub_le_of_multiple le_rfl (n := (k - j).natAbs) ?_
  have hunit : (0 : ℚ) < 2 ^ (-1074 : ℤ) := by positivity
  rw [← sub_mul, abs_mul, abs_of_pos hunit, Nat.cast_natAbs, Int.cast_abs, Int.cast_sub]

/-- A product loses a small share of itself and half of the least float at most. -/
theorem exists_isExact_mul (hx : IsExact x.toModel.unpack p) (hy : IsExact y.toModel.unpack q)
    (hlarge : |p * q| < 2 ^ (1023 : ℤ)) :
    ∃ w, IsExact (x * y).toModel.unpack w ∧
      |w - p * q| ≤ |p * q| / 2 ^ 53 + 2 ^ (-1075 : ℤ) :=
  ⟨_, isExact_mul hx hy hlarge, abs_rounded_sub_le_share (p * q)⟩

/-- **Whole numbers of at most 53 bits** are floats exactly. -/
theorem isExact_ofInt {n : Int} (h : n.natAbs < 2 ^ 53) :
    IsExact (Float.ofInt n).toModel.unpack n := by
  have hnat : ∀ k : Nat, k < 2 ^ 53 → IsExact (Float.ofNat k).toModel.unpack k := by
    intro k hk
    obtain rfl | hpos := Nat.eq_zero_or_pos k
    · exact (IsExact.zero .positive : _)
    · -- A whole number of fewer bits is shifted to the 53 of a float.
      have hlog : k.log2 < 53 := (Nat.log2_lt hpos.ne').mpr hk
      have hvalue : (k : ℚ) = (k * 2 ^ (52 - k.log2) : ℕ) * 2 ^ ((k.log2 : ℤ) - 52) := by
        have hexponent : ((k.log2 : ℤ) - 52) = -((52 - k.log2 : ℕ) : ℤ) := by omega
        rw [hexponent, zpow_neg, zpow_natCast]
        push_cast
        field_simp
      rw [unpack_ofNat hpos hk, hvalue]
      exact isExact_finite .positive _ (isCanonical_of_lt hpos hk)
  cases n with
  | ofNat k => exact_mod_cast hnat k h
  | negSucc k =>
    have hvalue : ((Int.negSucc k : ℤ) : ℚ) = -((k + 1 : ℕ) : ℚ) := by
      push_cast [Int.negSucc_eq]
      ring
    rw [hvalue]
    exact isExact_neg (hnat (k + 1) h)

end Reckoner.Number
