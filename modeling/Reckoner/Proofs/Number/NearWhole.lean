import Reckoner.Proofs.Number.Errors
import Reckoner.Proofs.Number.Nearest

/-!
# Floats near a whole number

A float is taken for a whole number if it is one up to rounding noise, which is measured with float
operations.  The errors of these operations are far below the noise, and below the distance between
two floats.  So what is taken for a whole number is close to it, and so is every float between the
two.

* `IsExact.spacing` — floats of different magnitudes are apart by a share of the lower one.
* `IsExact.eq_of_ne_zero` — other than zero, a value is that of one float.
* `noiseValue`, `exists_isExact_noise` — the share that counts as noise, and what it is of a number.
* `nearWhole?_iff` — nearness in terms of the values that are compared.
* `abs_sub_le_of_nearWhole?` — a float that is near a whole number is close to it.
* `nearWhole?_of_between` — every float between them is near it, too.
-/

namespace Reckoner.Number

open Float.Model Float.Model.UnpackedFloat

/-! ### Neighbouring floats -/

/-- A greater magnitude is greater by one in the last bit at least. -/
theorem IsCanonical.succ_mul_le {m n : Nat} {e f : Int} (hm : IsCanonical m e)
    (hn : IsCanonical n f) (h : (m * 2 ^ e : ℚ) < n * 2 ^ f) :
    ((m + 1) * 2 ^ e : ℚ) ≤ n * 2 ^ f := by
  -- At one exponent the mantissas decide; at a greater one the mantissa has its first bit.
  obtain hlt | rfl | hgt := lt_trichotomy e f
  · have hfirst : (2 ^ 52 : ℚ) ≤ n := by
      have := hm.le
      exact_mod_cast hn.normal.resolve_left (by omega)
    have hlast : (m + 1 : ℚ) ≤ 2 ^ 53 := by exact_mod_cast hm.lt
    have hexponent : (2 : ℚ) ^ (e + 1) ≤ 2 ^ f := zpow_le_zpow_right₀ one_le_two hlt
    calc ((m + 1) * 2 ^ e : ℚ) ≤ 2 ^ 53 * 2 ^ e := by gcongr
      _ = 2 ^ 52 * 2 ^ (e + 1) := by rw [zpow_add_one₀ two_ne_zero]; ring
      _ ≤ n * 2 ^ f := mul_le_mul hfirst hexponent (by positivity) (by positivity)
  · have hlt : m < n := by
      have hunit : (0 : ℚ) < 2 ^ e := by positivity
      exact_mod_cast lt_of_mul_lt_mul_right h hunit.le
    have hle : (m + 1 : ℚ) ≤ n := by exact_mod_cast hlt
    gcongr
  · exact absurd (hn.lt_of_exponent_lt hm hgt) h.not_gt

variable {u v : UnpackedFloat} {p q : ℚ}

/-- **Floats of different magnitudes** are apart by a share of the lower one. -/
theorem IsExact.spacing (hu : IsExact u p) (hv : IsExact v q) (h : |p| < |q|) :
    |p| + |p| / 2 ^ 53 ≤ |q| := by
  obtain ⟨s, rfl, rfl⟩ | ⟨s, m, e, hm, rfl, hc, rfl⟩ := hu.zero_or_finite
  · simp
  · obtain ⟨t, rfl, rfl⟩ | ⟨t, n, f, hn, rfl, hd, rfl⟩ := hv.zero_or_finite
    · rw [abs_zero] at h
      exact absurd h (abs_nonneg _).not_gt
    · rw [abs_signed, abs_signed] at h ⊢
      have hnext := hc.succ_mul_le hd h
      have hlast : (m : ℚ) ≤ 2 ^ 53 := by exact_mod_cast hc.lt.le
      have hunit : (0 : ℚ) < 2 ^ e := by positivity
      have hshare : (m * 2 ^ e / 2 ^ 53 : ℚ) ≤ 2 ^ e := by
        rw [div_le_iff₀ (by positivity), mul_comm]
        gcongr
      linarith

/-- No magnitude is below that of the least float, half of which is `2 ^ -1075`. -/
theorem IsExact.least_le_abs (hu : IsExact u p) (h : p ≠ 0) : 2 * (2 : ℚ) ^ (-1075 : ℤ) ≤ |p| := by
  obtain ⟨s, rfl, rfl⟩ | ⟨s, m, e, hm, rfl, hc, rfl⟩ := hu.zero_or_finite
  · exact absurd rfl h
  · have hone : (1 : ℚ) ≤ m := by exact_mod_cast hm
    have hleast : (2 : ℚ) * 2 ^ (-1075 : ℤ) = 1 * 2 ^ (-1074 : ℤ) := by
      rw [show (-1074 : ℤ) = -1075 + 1 by norm_num, zpow_add_one₀ two_ne_zero]
      ring
    rw [abs_signed, hleast]
    exact mul_le_mul hone (zpow_le_zpow_right₀ one_le_two hc.le) (by positivity) (by positivity)

/-- **A value other than zero is that of one float.** -/
theorem IsExact.eq_of_ne_zero (hu : IsExact u p) (hv : IsExact v p) (h : p ≠ 0) : u = v := by
  obtain ⟨s, rfl, rfl⟩ | ⟨s, m, e, hm, rfl, hc, rfl⟩ := hu.zero_or_finite
  · exact absurd rfl h
  · obtain ⟨t, rfl, hzero⟩ | ⟨t, n, f, hn, rfl, hd, heq⟩ := hv.zero_or_finite
    · exact absurd hzero h
    · have hvalue : (m * 2 ^ e : ℚ) = n * 2 ^ f := by rw [← abs_signed s, heq, abs_signed]
      have hcompare := hc.compare_eq hd
      rw [hvalue, compare_eq_iff_eq.mpr rfl, Ordering.then_eq_eq, compare_eq_iff_eq,
        compare_eq_iff_eq] at hcompare
      obtain ⟨rfl, rfl⟩ := hcompare
      have hpos : (0 : ℚ) < m * 2 ^ e := by positivity
      -- Values of different signs differ.
      obtain rfl : s = t := by
        by_contra hne
        cases s with
        | positive =>
          obtain rfl : t = .negative := by cases t <;> trivial
          simp only [signed] at heq
          linarith
        | negative =>
          obtain rfl : t = .positive := by cases t <;> trivial
          simp only [signed] at heq
          linarith
      rfl

/-! ### Rounding noise -/

/-- The share of a number that counts as rounding noise, exactly. -/
def noiseValue : ℚ := 4951760157141521 / 2 ^ 92

theorem isExact_noise : IsExact noise.toModel.unpack noiseValue := by
  have hnoise : Binary.ofFloat? noise = some ⟨false, 4951760157141521, -92⟩ := rfl
  have hvalue : (⟨false, 4951760157141521, -92⟩ : Binary).toRat = noiseValue := by
    rw [Binary.toRat_eq, noiseValue]
    norm_num
  exact hvalue ▸ isExact_of_ofFloat? hnoise

/-- Numbers of a usual size are far from the greatest floats. -/
theorem lt_limit {p : ℚ} (h : p < 2 ^ (60 : ℤ)) : p < 2 ^ (1023 : ℤ) :=
  h.trans_le (zpow_le_zpow_right₀ one_le_two (by norm_num))

/-- **The noise of a number**, with the error of its computation. -/
theorem exists_isExact_noise {x : Float} (hx : IsExact x.toModel.unpack q)
    (hsmall : |q| ≤ 10 ^ 15) :
    ∃ a, IsExact (noise * x).toModel.unpack a ∧
      |a| ≤ noiseValue * |q| + noiseValue * |q| / 2 ^ 53 + 2 ^ (-1075 : ℤ) ∧
      noiseValue * |q| - noiseValue * |q| / 2 ^ 53 - 2 ^ (-1075 : ℤ) ≤ |a| := by
  have habs : |noiseValue * q| = noiseValue * |q| := by
    rw [abs_mul, abs_of_pos (show (0 : ℚ) < noiseValue by norm_num [noiseValue])]
  have hlarge : |noiseValue * q| < 2 ^ (60 : ℤ) := by
    rw [habs, noiseValue]
    norm_num
    linarith
  -- The product is off by one rounding, which both bounds make room for.
  obtain ⟨a, ha, herror⟩ := exists_isExact_mul isExact_noise hx (lt_limit hlarge)
  have hupper := abs_sub_abs_le_abs_sub a (noiseValue * q)
  have hlower := abs_sub_abs_le_abs_sub (noiseValue * q) a
  rw [abs_sub_comm (noiseValue * q)] at hlower
  rw [habs] at herror hupper hlower
  exact ⟨a, ha, by linarith, by linarith⟩

/-! ### Nearness -/

theorem le_iff_of_isExact {x y : Float} (hx : IsExact x.toModel.unpack p)
    (hy : IsExact y.toModel.unpack q) : x ≤ y ↔ p ≤ q := by
  obtain ⟨a, ha, rfl⟩ := exists_ofFloat?_of_isExact hx
  obtain ⟨b, hb, rfl⟩ := exists_ofFloat?_of_isExact hy
  exact le_iff_toRat ha hb

variable {x y : Float} {b : Binary}

/-- A float is near the whole number that is nearest to it, or near none. -/
theorem nearWhole?_eq_some_iff (hb : Binary.ofFloat? x = some b) {n : ℤ} :
    nearWhole? x = some n ↔ n = b.nearest ∧
      ((Float.ofInt n - x).abs ≤ (noise * Float.ofInt n).abs ∨
        (Float.ofInt n - x).abs ≤ (noise * x).abs) := by
  simp only [nearWhole?, hb, Option.bind_some, Option.ite_none_right_eq_some, Option.some.injEq]
  constructor
  · rintro ⟨hnear, rfl⟩
    exact ⟨rfl, hnear⟩
  · rintro ⟨rfl, hnear⟩
    exact ⟨hnear, rfl⟩

/-- The nearest whole number is not beyond a limit that the number is not beyond. -/
theorem abs_nearest_le (h : |b.toRat| ≤ 10 ^ 15) : |(b.nearest : ℚ)| ≤ 10 ^ 15 := by
  have hlimit := isNearest_intCast 0 (10 ^ 15)
  have hlimit' := isNearest_intCast 0 (-10 ^ 15)
  push_cast at hlimit hlimit'
  rw [abs_le] at h ⊢
  exact ⟨hlimit'.mono b.isNearest_nearest h.1, b.isNearest_nearest.mono hlimit h.2⟩

/-- The nearest whole number is exact as a float. -/
theorem isExact_nearest (h : |b.toRat| ≤ 10 ^ 15) :
    IsExact (Float.ofInt b.nearest).toModel.unpack b.nearest := by
  have hbound : |b.nearest| ≤ 10 ^ 15 := by exact_mod_cast abs_nearest_le h
  rw [Int.abs_eq_natAbs] at hbound
  exact isExact_ofInt (by omega)

/-- **Nearness compares three values**: the distance, the noise of the whole number and the noise of
    the float. -/
theorem nearWhole?_iff (hb : Binary.ofFloat? x = some b) (hsmall : |b.toRat| ≤ 10 ^ 15) {a : ℚ}
    (ha : IsExact (noise * Float.ofInt b.nearest).toModel.unpack a) :
    ∃ d c, (nearWhole? x = some b.nearest ↔ |d| ≤ |a| ∨ |d| ≤ |c|) ∧
      (|d| ≤ |b.nearest - b.toRat| + |b.nearest - b.toRat| / 2 ^ 53 ∧
        |b.nearest - b.toRat| - |b.nearest - b.toRat| / 2 ^ 53 ≤ |d|) ∧
      |c| ≤ noiseValue * |b.toRat| + noiseValue * |b.toRat| / 2 ^ 53 + 2 ^ (-1075 : ℤ) ∧
      noiseValue * |b.toRat| - noiseValue * |b.toRat| / 2 ^ 53 - 2 ^ (-1075 : ℤ) ≤ |c| := by
  have hx := isExact_of_ofFloat? hb
  have hhalf := b.isNearest_nearest.abs_sub_le
  rw [pow_zero, div_one] at hhalf
  -- Both sides of the comparison carry the error of one operation.
  obtain ⟨c, hc, hc_le, hc_ge⟩ := exists_isExact_noise hx hsmall
  have hlarge : |b.nearest - b.toRat| < 2 ^ (60 : ℤ) := hhalf.trans_lt (by norm_num)
  obtain ⟨d, hd, herror⟩ := exists_isExact_sub (isExact_nearest hsmall) hx (lt_limit hlarge)
  have hupper := abs_sub_abs_le_abs_sub d (b.nearest - b.toRat)
  have hlower := abs_sub_abs_le_abs_sub (b.nearest - b.toRat) d
  rw [abs_sub_comm (b.nearest - b.toRat)] at hlower
  refine ⟨d, c, ?_, ⟨by linarith, by linarith⟩, hc_le, hc_ge⟩
  rw [nearWhole?_eq_some_iff hb, le_iff_of_isExact (isExact_abs hd) (isExact_abs ha),
    le_iff_of_isExact (isExact_abs hd) (isExact_abs hc)]
  exact and_iff_right rfl

/-- Half of the least float is next to nothing. -/
theorem two_zpow_least_le : (2 : ℚ) ^ (-1075 : ℤ) ≤ 1 / 2 ^ 100 := by
  have hle : (2 : ℚ) ^ (-1075 : ℤ) ≤ 2 ^ (-100 : ℤ) :=
    zpow_le_zpow_right₀ one_le_two (by norm_num)
  simpa using hle

/-- **A float that is near a whole number is close to it.** -/
theorem abs_sub_le_of_nearWhole? (hb : Binary.ofFloat? x = some b) (hsmall : |b.toRat| ≤ 10 ^ 15)
    (h : nearWhole? x = some b.nearest) : |b.nearest - b.toRat| ≤ |b.toRat| / 10 ^ 11 := by
  obtain ⟨a, ha, ha_le, -⟩ := exists_isExact_noise (isExact_nearest hsmall) (abs_nearest_le hsmall)
  obtain ⟨d, c, hnear, ⟨-, hd_ge⟩, hc_le, -⟩ := nearWhole?_iff hb hsmall ha
  have hcompare : |d| ≤ max |a| |c| := le_max_iff.mpr (hnear.mp h)
  have hhalf := b.isNearest_nearest.abs_sub_le
  rw [pow_zero, div_one] at hhalf
  have htriangle := abs_sub_abs_le_abs_sub (b.nearest : ℚ) b.toRat
  have hleast := two_zpow_least_le
  have hfloat := (isExact_of_ofFloat? hb).least_le_abs
  unfold noiseValue at ha_le hc_le
  generalize (2 : ℚ) ^ (-1075 : ℤ) = least at *
  by_cases hn : b.nearest = 0
  · by_cases hq : b.toRat = 0
    · rw [hn, hq]
      norm_num
    · -- The noise of a float is less than the float.
      exfalso
      have hpos := abs_pos.mpr hq
      have hhalf_least := hfloat hq
      rw [hn, Int.cast_zero, zero_sub, abs_neg] at hd_ge
      rw [hn, Int.cast_zero, abs_zero] at ha_le
      obtain hmax | hmax := max_choice |a| |c|
      all_goals
        rw [hmax] at hcompare
        linarith
  · have hone : 1 ≤ |(b.nearest : ℚ)| := by exact_mod_cast Int.one_le_abs hn
    obtain hmax | hmax := max_choice |a| |c|
    all_goals
      rw [hmax] at hcompare
      linarith

/-- Nearness depends on a float in its unpacked form. -/
theorem nearWhole?_congr (h : x.toModel.unpack = y.toModel.unpack) :
    nearWhole? x = nearWhole? y := by
  have hsub : ∀ w : Float, w - x = w - y := fun w =>
    congrArg (fun u => Float.ofModel (.pack (.sub .binary64 w.toModel.unpack u))) h
  have hmul : noise * x = noise * y :=
    congrArg (fun u => Float.ofModel (.pack (.mul .binary64 noise.toModel.unpack u))) h
  unfold nearWhole? Binary.ofFloat?
  rw [h, hmul]
  simp only [hsub]

/-- Zero is near itself. -/
theorem nearWhole?_of_eq_zero (hb : Binary.ofFloat? x = some b) (h : b.toRat = 0) :
    nearWhole? x = some b.nearest := by
  have hsmall : |b.toRat| ≤ 10 ^ 15 := by
    rw [h]
    norm_num
  have hself := isNearest_intCast 0 0
  rw [Int.cast_zero, ← h] at hself
  have hnearest : (b.nearest : ℚ) = b.toRat :=
    le_antisymm (b.isNearest_nearest.mono hself le_rfl) (hself.mono b.isNearest_nearest le_rfl)
  obtain ⟨a, ha, -⟩ := exists_isExact_noise (isExact_nearest hsmall) (abs_nearest_le hsmall)
  obtain ⟨d, c, hnear, ⟨hd_le, -⟩, -⟩ := nearWhole?_iff hb hsmall ha
  rw [hnearest, sub_self, abs_zero, zero_div, add_zero] at hd_le
  exact hnear.mpr (.inl (hd_le.trans (abs_nonneg a)))

/-- The distance of two floats on one side of a whole number that one of them is near to. -/
theorem share_le_abs_sub {n : ℚ} (hu : IsExact u p) (hv : IsExact v q) (hne : p ≠ q)
    (hclose : |n - p| ≤ |p| / 10 ^ 11) (hdistance : |n - p| = |n - q| + |p - q|) :
    |p| / 2 ^ 54 ≤ |p - q| := by
  have hside := abs_nonneg (n - q)
  have hpos := abs_pos.mpr (sub_ne_zero.mpr hne)
  have htriangle := abs_sub_abs_le_abs_sub p q
  have htriangle' := abs_sub_abs_le_abs_sub q p
  rw [abs_sub_comm q] at htriangle'
  -- The one nearer to zero keeps its distance; equal magnitudes lie on two sides of zero.
  obtain hlt | heq | hgt := lt_trichotomy |p| |q|
  · have hspace := hu.spacing hv hlt
    linarith
  · obtain heq | heq := abs_eq_abs.mp heq
    · exact absurd heq hne
    · rw [heq, show -q - q = -(2 * q) by ring, abs_neg, abs_neg, abs_mul]
      norm_num
      linarith [abs_nonneg q]
  · have hspace := hv.spacing hu hgt
    linarith

/-- **Every float between a whole number and a float near it** is near it, too. -/
theorem nearWhole?_of_between {a : Binary} {n : ℤ} (ha : Binary.ofFloat? x = some a)
    (hb : Binary.ofFloat? y = some b) (hx : |a.toRat| ≤ 10 ^ 15) (hy : |b.toRat| ≤ 10 ^ 15)
    (h : nearWhole? x = some n)
    (hbetween : a.toRat ≤ b.toRat ∧ b.toRat ≤ n ∨ (n : ℚ) ≤ b.toRat ∧ b.toRat ≤ a.toRat) :
    nearWhole? y = some n := by
  obtain rfl := ((nearWhole?_eq_some_iff ha).mp h).1
  have hnearest := Binary.nearest_eq_of_between rfl hbetween
  by_cases heq : a.toRat = b.toRat
  · by_cases hzero : b.toRat = 0
    · rw [nearWhole?_of_eq_zero hb hzero, hnearest]
    · have hexact := isExact_of_ofFloat? ha
      rw [heq] at hexact
      rw [← nearWhole?_congr (hexact.eq_of_ne_zero (isExact_of_ofFloat? hb) hzero), h]
  have hclose := abs_sub_le_of_nearWhole? ha hx h
  have hdistance : |a.nearest - a.toRat| = |a.nearest - b.toRat| + |a.toRat - b.toRat| := by
    obtain ⟨hlow, hhigh⟩ | ⟨hlow, hhigh⟩ := hbetween
    · rw [abs_of_nonneg (by linarith), abs_of_nonneg (by linarith), abs_of_nonpos (by linarith)]
      ring
    · rw [abs_of_nonpos (by linarith), abs_of_nonpos (by linarith), abs_of_nonneg (by linarith)]
      ring
  have hgap := share_le_abs_sub (isExact_of_ofFloat? ha) (isExact_of_ofFloat? hb) heq hclose
    hdistance
  have hlarge : 1 / 2 ≤ |a.toRat| := by
    have htriangle := abs_sub_abs_le_abs_sub (a.nearest : ℚ) a.toRat
    by_cases hn : a.nearest = 0
    · -- What is near zero is zero, and there is no float between zero and itself.
      rw [hn, Int.cast_zero, zero_sub, abs_neg] at hclose hdistance
      have hpos := abs_pos.mpr (sub_ne_zero.mpr heq)
      have hside := abs_nonneg (0 - b.toRat)
      linarith
    · have hone : 1 ≤ |(a.nearest : ℚ)| := by exact_mod_cast Int.one_le_abs hn
      linarith
  obtain ⟨w, hw, -⟩ := exists_isExact_noise (isExact_nearest hx) (abs_nearest_le hx)
  obtain ⟨d, c, hnear, ⟨-, hd⟩, hc, -⟩ := nearWhole?_iff ha hx hw
  rw [← hnearest] at hw
  obtain ⟨d', c', hnear', ⟨hd', -⟩, -, hc'⟩ := nearWhole?_iff hb hy hw
  have htriangle := abs_sub_abs_le_abs_sub a.toRat b.toRat
  have hleast := two_zpow_least_le
  unfold noiseValue at hc hc'
  rw [hnearest] at hnear' hd'
  generalize (2 : ℚ) ^ (-1075 : ℤ) = least at *
  -- The distance gets smaller by more than all errors together.
  refine hnear'.mpr ((hnear.mp h).imp (fun hwhole => ?_) (fun hfloat => ?_))
  · linarith
  · linarith

end Reckoner.Number
