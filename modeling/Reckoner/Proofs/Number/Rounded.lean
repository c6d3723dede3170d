import Mathlib.Algebra.Order.Field.Power
import Mathlib.Tactic.FieldSimp
import Reckoner.Proofs.Number.Nearest
import Reckoner.Proofs.Number.Order

/-!
# Rounding to floats keeps the order

A fraction is rounded to a whole multiple of the last place of a float of its size.  Within a power
of two all fractions have one last place, so that nearest multiples are in order; and the powers of
two themselves, which are multiples of every last place below them, keep the ranges between them
apart.

* `firstPlace_le`, `lt_firstPlace_succ` — the place of the first binary digit.
* `Binary.isNearest_ofRat` — the mantissa is the whole number nearest to the fraction, counted in
  units of its last place.
* `rounded_of_fits` — what a float can hold is not rounded.
* `rounded_mono` — rounding keeps the order.
* `rounded_rounded`, `rounded_of_isExact` — what is rounded, and what a float is, is not rounded
  again.
-/

namespace Reckoner.Number

/-! ### The first binary digit -/

/-- The place of the first binary digit of a quotient, from the digits of the two numbers. -/
theorem two_zpow_log2_sub {n d : Nat} (hn : 0 < n) (hd : 0 < d) :
    (2 : ℚ) ^ ((n.log2 : ℤ) - d.log2 - 1) < n / d ∧
      (n / d : ℚ) < 2 ^ ((n.log2 : ℤ) - d.log2 + 1) := by
  have hpos : (0 : ℚ) < d := by exact_mod_cast hd
  have hn₁ : (2 : ℚ) ^ (n.log2 : ℤ) ≤ n := by exact_mod_cast Nat.log2_self_le hn.ne'
  have hn₂ : (n : ℚ) < 2 ^ ((n.log2 : ℤ) + 1) := by exact_mod_cast Nat.lt_log2_self
  have hd₁ : (2 : ℚ) ^ (d.log2 : ℤ) ≤ d := by exact_mod_cast Nat.log2_self_le hd.ne'
  have hd₂ : (d : ℚ) < 2 ^ ((d.log2 : ℤ) + 1) := by exact_mod_cast Nat.lt_log2_self
  -- Each bound comes from one bound of the numerator and one of the denominator.
  constructor
  · rw [lt_div_iff₀ hpos]
    calc (2 : ℚ) ^ ((n.log2 : ℤ) - d.log2 - 1) * d
        < 2 ^ ((n.log2 : ℤ) - d.log2 - 1) * 2 ^ ((d.log2 : ℤ) + 1) := by gcongr
      _ = 2 ^ (n.log2 : ℤ) := by rw [← zpow_add₀ two_ne_zero]; congr 1; ring
      _ ≤ n := hn₁
  · rw [div_lt_iff₀ hpos]
    calc (n : ℚ) < 2 ^ ((n.log2 : ℤ) + 1) := hn₂
      _ = 2 ^ ((n.log2 : ℤ) - d.log2 + 1) * 2 ^ (d.log2 : ℤ) := by
          rw [← zpow_add₀ two_ne_zero]; congr 1; ring
      _ ≤ 2 ^ ((n.log2 : ℤ) - d.log2 + 1) * d := by gcongr

/-- A comparison with a power of two, without fractions. -/
theorem two_zpow_le_div_iff (n : Nat) {d : Nat} (hd : 0 < d) (e : ℤ) :
    (2 : ℚ) ^ e ≤ n / d ↔ d * Nat.pow 2 e.toNat ≤ n * Nat.pow 2 (-e).toNat := by
  have hpos : (0 : ℚ) < d := by exact_mod_cast hd
  have hsplit : (2 : ℚ) ^ e = 2 ^ e.toNat / 2 ^ (-e).toNat := by
    rw [← zpow_natCast, ← zpow_natCast, ← zpow_sub₀ two_ne_zero]
    congr 1
    omega
  rw [hsplit, div_le_div_iff₀ (by positivity) hpos, mul_comm]
  exact_mod_cast Iff.rfl

/-- **The first binary digit** stands at its place. -/
theorem two_zpow_firstPlace_le {n d : Nat} (hn : 0 < n) (hd : 0 < d) :
    (2 : ℚ) ^ Binary.firstPlace n d ≤ n / d := by
  unfold Binary.firstPlace
  dsimp only
  split
  · next h => exact (two_zpow_le_div_iff n hd _).mpr h
  · exact (two_zpow_log2_sub hn hd).1.le

/-- No binary digit stands at the next place. -/
theorem lt_two_zpow_firstPlace_succ {n d : Nat} (hn : 0 < n) (hd : 0 < d) :
    (n / d : ℚ) < 2 ^ (Binary.firstPlace n d + 1) := by
  unfold Binary.firstPlace
  dsimp only
  split
  · exact (two_zpow_log2_sub hn hd).2
  · next h =>
    rw [sub_add_cancel]
    exact lt_of_not_ge fun hle => h ((two_zpow_le_div_iff n hd _).mp hle)

namespace Binary

/-! ### Mantissas -/

/-- The place of the last digit of a float of the size of a fraction. -/
def lastPlace (x : ℚ) : ℤ := max (firstPlace x.num.natAbs x.den - 52) (-1074)

/-- The magnitude of a fraction as a quotient of whole numbers. -/
theorem natAbs_num_div_den (x : ℚ) : (x.num.natAbs / x.den : ℚ) = |x| := by
  conv_rhs => rw [← Rat.num_div_den x, abs_div, Nat.abs_cast]
  rw [Nat.cast_natAbs, Int.cast_abs]

variable {x y : ℚ}

/-- The first binary digit of a fraction stands at its place. -/
theorem two_zpow_firstPlace_le_abs (hx : x ≠ 0) :
    (2 : ℚ) ^ firstPlace x.num.natAbs x.den ≤ |x| := by
  rw [← natAbs_num_div_den]
  exact two_zpow_firstPlace_le (Int.natAbs_pos.mpr (Rat.num_ne_zero.mpr hx)) x.den_pos

/-- None stands at the next one. -/
theorem abs_lt_two_zpow_firstPlace_succ (hx : x ≠ 0) :
    |x| < 2 ^ (firstPlace x.num.natAbs x.den + 1) := by
  rw [← natAbs_num_div_den]
  exact lt_two_zpow_firstPlace_succ (Int.natAbs_pos.mpr (Rat.num_ne_zero.mpr hx)) x.den_pos

/-- The first binary digit stands at no other place. -/
theorem firstPlace_eq {k : ℤ} (hx : x ≠ 0) (hlow : (2 : ℚ) ^ k ≤ |x|) (hhigh : |x| < 2 ^ (k + 1)) :
    firstPlace x.num.natAbs x.den = k := by
  have hle := (two_zpow_firstPlace_le_abs hx).trans_lt hhigh
  have hge := hlow.trans_lt (abs_lt_two_zpow_firstPlace_succ hx)
  rw [zpow_lt_zpow_iff_right₀ one_lt_two] at hle hge
  omega

/-- A magnitude is below `2 ^ 53` units of its last place. -/
theorem abs_lt_two_zpow_lastPlace (x : ℚ) : |x| < 2 ^ (lastPlace x + 53) := by
  by_cases hx : x = 0
  · rw [hx, abs_zero]
    positivity
  · have hle : firstPlace x.num.natAbs x.den + 1 ≤ lastPlace x + 53 := by
      unfold lastPlace
      omega
    exact (abs_lt_two_zpow_firstPlace_succ hx).trans_le (zpow_le_zpow_right₀ one_le_two hle)

/-- A smaller fraction has no higher last place. -/
theorem lastPlace_le_of_abs_lt {k : ℤ} (hx : x ≠ 0) (hk : -1074 ≤ k) (h : |x| < 2 ^ (k + 53)) :
    lastPlace x ≤ k := by
  have hlt := (zpow_lt_zpow_iff_right₀ one_lt_two).mp ((two_zpow_firstPlace_le_abs hx).trans_lt h)
  unfold lastPlace
  omega

/-- **The mantissa is nearest** to the magnitude, counted in units of its last place. -/
theorem isNearest_ofRat (x : ℚ) : IsNearest 0 (|x| / 2 ^ lastPlace x) (ofRat x).mantissa := by
  have hd : 0 < x.den * 2 ^ (lastPlace x).toNat := Nat.mul_pos x.den_pos (by positivity)
  have hscaled : ((x.num.natAbs * 2 ^ (-lastPlace x).toNat : ℕ) /
      (x.den * 2 ^ (lastPlace x).toNat : ℕ) : ℚ) = |x| / 2 ^ lastPlace x := by
    have hsplit : (2 : ℚ) ^ lastPlace x = 2 ^ (lastPlace x).toNat / 2 ^ (-lastPlace x).toNat := by
      rw [← zpow_natCast, ← zpow_natCast, ← zpow_sub₀ two_ne_zero]
      congr 1
      omega
    rw [hsplit, ← natAbs_num_div_den]
    push_cast
    field_simp
  have hmantissa : (ofRat x).mantissa = roundHalfEven (x.num.natAbs * 2 ^ (-lastPlace x).toNat)
      (x.den * 2 ^ (lastPlace x).toNat) := rfl
  obtain ⟨hhalf, heven⟩ := abs_roundHalfEven_sub (n := x.num.natAbs * 2 ^ (-lastPlace x).toNat) hd
  rw [hscaled, ← hmantissa] at hhalf heven
  exact isNearest_natCast hhalf heven

/-- The mantissa has 53 digits at most, or is the power of two behind them. -/
theorem mantissa_ofRat_le (x : ℚ) : (ofRat x).mantissa ≤ 2 ^ 53 := by
  have hunit : (0 : ℚ) < 2 ^ lastPlace x := by positivity
  have hle : |x| / 2 ^ lastPlace x ≤ (2 ^ 53 : ℤ) := by
    rw [div_le_iff₀ hunit]
    calc |x| ≤ 2 ^ (lastPlace x + 53) := (abs_lt_two_zpow_lastPlace x).le
      _ = ((2 ^ 53 : ℤ) : ℚ) * 2 ^ lastPlace x := by
          rw [zpow_add₀ two_ne_zero, mul_comm]
          norm_num
  have hmono := (isNearest_ofRat x).mono (isNearest_intCast 0 (2 ^ 53)) hle
  exact_mod_cast hmono

/-- No other whole number is nearest. -/
theorem mantissa_ofRat_eq {n : Nat} (h : IsNearest 0 (|x| / 2 ^ lastPlace x) n) :
    (ofRat x).mantissa = n := by
  exact_mod_cast (isNearest_ofRat x).unique h

end Binary

open Binary

variable {x y : ℚ}

/-! ### Rounded fractions -/

/-- The mantissa counts units of the last place. -/
theorem rounded_of_nonneg (h : 0 ≤ x) : rounded x = (ofRat x).mantissa * 2 ^ lastPlace x := by
  have hsign : (ofRat x).negative = false := decide_eq_false (not_lt.mpr h)
  rw [rounded, Binary.toRat_eq, hsign]
  exact one_mul _

/-- Nothing is rounded to nothing. -/
@[simp] theorem rounded_zero : rounded 0 = 0 := by decide +kernel

/-- Rounding does not depend on the sign. -/
theorem rounded_neg (x : ℚ) : rounded (-x) = -rounded x := by
  by_cases hx : x = 0
  · simp [hx]
  · have hnum : (-x).num.natAbs = x.num.natAbs := by rw [Rat.num_neg_eq_neg_num, Int.natAbs_neg]
    have hden : (-x).den = x.den := Rat.den_neg_eq_den x
    have hsign : decide (-x < 0) = !decide (x < 0) := by
      rcases lt_or_gt_of_ne hx with hlt | hgt
      · simp [hlt, hlt.le]
      · simp [hgt, hgt.le]
    have hflip : ofRat (-x) = { ofRat x with negative := !(ofRat x).negative } := by
      simp only [ofRat, hnum, hden, hsign]
    rw [rounded, rounded, hflip, Binary.toRat_eq, Binary.toRat_eq]
    cases (ofRat x).negative <;> simp

/-- Rounding keeps what is not negative on its side. -/
theorem rounded_nonneg (h : 0 ≤ x) : 0 ≤ rounded x := by
  rw [rounded_of_nonneg h]
  positivity

/-- A fraction is rounded to the multiple of its last place that is nearest. -/
theorem rounded_of_isNearest {n : Nat} (h : 0 ≤ x) (hn : IsNearest 0 (x / 2 ^ lastPlace x) n) :
    rounded x = n * 2 ^ lastPlace x := by
  rw [rounded_of_nonneg h, mantissa_ofRat_eq (by rwa [abs_of_nonneg h])]

/-- A multiple of its own last place is not rounded. -/
theorem rounded_of_lastPlace_le {m : Nat} {e : ℤ} (h : lastPlace (m * 2 ^ e) ≤ e) :
    rounded (m * 2 ^ e) = m * 2 ^ e := by
  have hnonneg : (0 : ℚ) ≤ m * 2 ^ e := by positivity
  have hcount : (m * 2 ^ e : ℚ) / 2 ^ lastPlace (m * 2 ^ e) =
      (m * 2 ^ (e - lastPlace (m * 2 ^ e)).toNat : ℕ) := by
    push_cast
    rw [← zpow_natCast, Int.toNat_of_nonneg (sub_nonneg.mpr h), zpow_sub₀ two_ne_zero,
      mul_div_assoc]
  have hself : IsNearest 0 (m * 2 ^ e / 2 ^ lastPlace (m * 2 ^ e))
      (m * 2 ^ (e - lastPlace (m * 2 ^ e)).toNat : ℕ) := by
    rw [hcount]
    exact_mod_cast isNearest_intCast 0 (m * 2 ^ (e - lastPlace (m * 2 ^ e)).toNat : ℕ)
  rw [rounded_of_isNearest hnonneg hself, ← hcount, div_mul_cancel₀ _ (by positivity)]

/-- **What a float can hold is not rounded.** -/
theorem rounded_of_fits {m : Nat} {e : ℤ} (hm : m < 2 ^ 53) (he : -1074 ≤ e) :
    rounded (m * 2 ^ e) = m * 2 ^ e := by
  by_cases hzero : (m * 2 ^ e : ℚ) = 0
  · rw [hzero, rounded_zero]
  · refine rounded_of_lastPlace_le (lastPlace_le_of_abs_lt hzero he ?_)
    have hm : (m : ℚ) < 2 ^ (53 : ℤ) := by exact_mod_cast hm
    rw [abs_of_nonneg (by positivity), zpow_add₀ two_ne_zero, mul_comm]
    gcongr

/-- **What is rounded is not rounded again.** -/
@[simp] theorem rounded_rounded (x : ℚ) : rounded (rounded x) = rounded x := by
  have hnonneg : ∀ y : ℚ, 0 ≤ y → rounded (rounded y) = rounded y := by
    intro y hy
    rw [rounded_of_nonneg hy]
    have he : -1074 ≤ lastPlace y := le_max_right _ _
    rcases (mantissa_ofRat_le y).lt_or_eq with hlt | heq
    · exact rounded_of_fits hlt he
    · -- The power of two behind all mantissas is one with a higher last place.
      have hshift : ((ofRat y).mantissa * 2 ^ lastPlace y : ℚ) =
          (2 ^ 52 : ℕ) * 2 ^ (lastPlace y + 1) := by
        rw [heq, zpow_add_one₀ two_ne_zero]
        push_cast
        ring
      rw [hshift]
      exact rounded_of_fits (by norm_num) (by omega)
  rcases le_total 0 x with h | h
  · exact hnonneg x h
  · have hneg := hnonneg (-x) (neg_nonneg.mpr h)
    rwa [rounded_neg, rounded_neg, neg_inj] at hneg

/-- Rounding keeps the order of what is not negative. -/
theorem rounded_mono_of_nonneg (hx : 0 ≤ x) (h : x ≤ y) : rounded x ≤ rounded y := by
  have hy : 0 ≤ y := hx.trans h
  by_cases hzero : x = 0
  · rw [hzero, rounded_zero]
    exact rounded_nonneg hy
  have hpos : 0 < x := lt_of_le_of_ne hx (Ne.symm hzero)
  have hplaces : lastPlace x ≤ lastPlace y := by
    refine lastPlace_le_of_abs_lt hzero (le_max_right _ _) ?_
    rw [abs_of_nonneg hx]
    exact h.trans_lt ((le_abs_self y).trans_lt (abs_lt_two_zpow_lastPlace y))
  rw [rounded_of_nonneg hx, rounded_of_nonneg hy]
  rcases hplaces.eq_or_lt with heq | hlt
  · -- Both are counted in the same unit.
    have hle : |x| / 2 ^ lastPlace x ≤ |y| / 2 ^ lastPlace y := by
      rw [heq, abs_of_nonneg hx, abs_of_nonneg hy]
      gcongr
    have hmantissas := (isNearest_ofRat x).mono (isNearest_ofRat y) hle
    rw [heq]
    gcongr
  · -- There is a power of two between them, which both places divide.
    have hfirst : lastPlace y = firstPlace y.num.natAbs y.den - 52 := by
      have hlow : -1074 ≤ lastPlace x := le_max_right _ _
      unfold lastPlace at hlow hlt ⊢
      omega
    have hlarge : ((2 ^ 52 : ℤ) : ℚ) ≤ |y| / 2 ^ lastPlace y := by
      rw [le_div_iff₀ (by positivity)]
      calc ((2 ^ 52 : ℤ) : ℚ) * 2 ^ lastPlace y = 2 ^ firstPlace y.num.natAbs y.den := by
            rw [hfirst, zpow_sub₀ two_ne_zero]
            push_cast
            exact mul_div_cancel₀ _ (by positivity)
        _ ≤ |y| := two_zpow_firstPlace_le_abs (hpos.trans_le h).ne'
    have hmantissa : ((2 ^ 52 : ℤ) : ℚ) ≤ (ofRat y).mantissa :=
      (isNearest_intCast 0 (2 ^ 52)).mono (isNearest_ofRat y) hlarge
    have hmantissa' : ((ofRat x).mantissa : ℚ) ≤ 2 ^ 53 := by exact_mod_cast mantissa_ofRat_le x
    calc ((ofRat x).mantissa * 2 ^ lastPlace x : ℚ) ≤ 2 ^ 53 * 2 ^ lastPlace x := by gcongr
      _ = (2 ^ 52 : ℤ) * 2 ^ (lastPlace x + 1) := by
          rw [zpow_add_one₀ two_ne_zero]
          push_cast
          ring
      _ ≤ (2 ^ 52 : ℤ) * 2 ^ lastPlace y := by
          gcongr
          · norm_num
          · omega
      _ ≤ (ofRat y).mantissa * 2 ^ lastPlace y := by gcongr

/-- **Rounding keeps the order.** -/
theorem rounded_mono (h : x ≤ y) : rounded x ≤ rounded y := by
  rcases le_total 0 x with hx | hx
  · exact rounded_mono_of_nonneg hx h
  · rcases le_total 0 y with hy | hy
    · have hneg := rounded_nonneg (neg_nonneg.mpr hx)
      rw [rounded_neg, neg_nonneg] at hneg
      exact hneg.trans (rounded_nonneg hy)
    · have hneg := rounded_mono_of_nonneg (neg_nonneg.mpr hy) (neg_le_neg h)
      rwa [rounded_neg, rounded_neg, neg_le_neg_iff] at hneg

/-- **The exact value of a float is not rounded.** -/
theorem rounded_of_isExact {u : Float.Model.UnpackedFloat} (h : IsExact u x) : rounded x = x := by
  cases h with
  | zero => exact rounded_zero
  | positive hm hc => exact rounded_of_fits hc.lt hc.le
  | negative hm hc => rw [rounded_neg, rounded_of_fits hc.lt hc.le]

end Reckoner.Number
