import Mathlib.Data.Sign.Defs
import Reckoner.Proofs.Number.Places

/-!
# What is shown is close to the number

At least five digits of a float are kept, so that what is shown differs from it by half a unit of
the fifth digit at most, in relation to the float.  This also keeps its sign, and no float other
than zero is shown as zero.

* `half_unit_le` — half a unit of the last decimal is a small share of the number.
* `Shown.abs_sub_le` — the number that is shown is close.
* `sign_eq_of_abs_sub_lt` — what is close to a number has its sign.
* `display_close` — every finite float is shown as a number that is close to it.
-/

namespace Reckoner.Number

variable {x : Float} {b : Binary} {v : ℚ}

/-- **Half a unit of the last decimal** is a small share of the number. -/
theorem half_unit_le (h : b.toRat ≠ 0) :
    1 / 2 / 10 ^ placesFor b.power ≤ 5 / 10 ^ 5 * |b.toRat| := by
  have hlow := (Binary.tenPow_le_abs_iff h b.power).mpr le_rfl
  have hplaces : (10 : ℚ) ^ (4 - b.power) ≤ 10 ^ placesFor b.power := by
    rw [← zpow_natCast]
    exact zpow_le_zpow_right₀ (by norm_num) (four_sub_le_placesFor b.power)
  calc (1 / 2 / 10 ^ placesFor b.power : ℚ) ≤ 1 / 2 / 10 ^ (4 - b.power) := by gcongr
    _ = 5 / 10 ^ 5 * 10 ^ b.power := by
      rw [zpow_sub₀ (by norm_num)]
      field_simp
      norm_num
    _ ≤ 5 / 10 ^ 5 * |b.toRat| := by gcongr

/-- **What is shown is close to the number.** -/
theorem Shown.abs_sub_le (hb : Binary.ofFloat? x = some b) (h : Shown x b v) :
    |v - b.toRat| ≤ 5 / 10 ^ 5 * |b.toRat| := by
  cases h with
  | whole hn hlt =>
    have hnonneg := abs_nonneg b.toRat
    obtain rfl := ((nearWhole?_eq_some_iff hb).mp hn).1
    have hclose := abs_sub_le_of_nearWhole? hb hlt.le hn
    linarith
  | rounded hne _ hnearest => exact hnearest.abs_sub_le.trans (half_unit_le hne)

/-- What is closer to a number than zero is has the sign of the number. -/
theorem sign_eq_of_abs_sub_lt {p q : ℚ} (h : |p - q| < |q|) :
    SignType.sign p = SignType.sign q := by
  obtain hneg | rfl | hpos := lt_trichotomy q 0
  · rw [abs_of_neg hneg, abs_lt] at h
    rw [sign_neg hneg, sign_neg (by linarith)]
  · rw [abs_zero] at h
    exact absurd h (abs_nonneg _).not_gt
  · rw [abs_of_pos hpos, abs_lt] at h
    rw [sign_pos hpos, sign_pos (by linarith)]

/-- A zero is shown as one digit. -/
theorem floatText_of_eq_zero (hb : Binary.ofFloat? x = some b) (h : b.toRat = 0) :
    floatText x = ['0'] := by
  have hnear := nearWhole?_of_eq_zero hb h
  have hclose := abs_sub_le_of_nearWhole? hb (by rw [h]; norm_num) hnear
  have hnearest : b.nearest = 0 := by
    rw [h, sub_zero, abs_zero, zero_div, abs_nonpos_iff] at hclose
    exact_mod_cast hclose
  rw [hnearest] at hnear
  exact floatText_of_nearWhole? hnear (by decide)

/-- **Every finite float is shown as a number that is close to it.**  The text stands for one
    number.  It is the digit zero for a zero of either sign.  Otherwise the number has the sign of
    the float, is not zero, and differs from the exact value by a share of five in a hundred
    thousand at most.  A text with a power of ten has one digit other than zero, four decimals and
    the power with its sign and without leading zeros. -/
theorem display_close (h : x.isFinite = true) :
    ∃ b s v, Binary.ofFloat? x = some b ∧ display (.real x) = .ok (String.ofList s) ∧
      (∀ w, ShowsNumber s w ↔ w = v) ∧
      (b.toRat = 0 → s = ['0']) ∧
      (b.toRat ≠ 0 → SignType.sign v = SignType.sign b.toRat ∧ v ≠ 0 ∧
        |v - b.toRat| ≤ 5 / 10 ^ 5 * |b.toRat|) ∧
      ('e' ∈ s → ∃ t, (s = t ∨ s = '-' :: t) ∧ ShowsScientific 4 t |v|) := by
  obtain ⟨b, hb⟩ := exists_ofFloat?_of_isFinite h
  obtain ⟨v, hshown, hshows, hform⟩ := exists_shown hb
  have hclose := hshown.abs_sub_le hb
  refine ⟨b, floatText x, v, hb, display_of_isFinite h, fun _ => hshows.iff_eq,
    floatText_of_eq_zero hb, fun hne => ?_, hform⟩
  -- An error that is less than the number itself leaves its sign.
  have hpos := abs_pos.mpr hne
  have hsign := sign_eq_of_abs_sub_lt (hclose.trans_lt (by linarith))
  refine ⟨hsign, fun hzero => ?_, hclose⟩
  rw [hzero, sign_zero] at hsign
  exact hne (sign_eq_zero_iff.mp hsign.symm)

/-- A float whose digits are rounded into the next power of ten. -/
theorem display_close_carry :
    (-0.00099999999 : Float).isFinite = true ∧
      ∃ b s v, Binary.ofFloat? (-0.00099999999) = some b ∧
        display (.real (-0.00099999999)) = .ok (String.ofList s) ∧
        (∀ w, ShowsNumber s w ↔ w = v) ∧
        (b.toRat = 0 → s = ['0']) ∧
        (b.toRat ≠ 0 → SignType.sign v = SignType.sign b.toRat ∧ v ≠ 0 ∧
          |v - b.toRat| ≤ 5 / 10 ^ 5 * |b.toRat|) ∧
        ('e' ∈ s → ∃ t, (s = t ∨ s = '-' :: t) ∧ ShowsScientific 4 t |v|) :=
  ⟨rfl, display_close rfl⟩

example : floatText (-0.00099999999) = ['-', '1', '.', '0', '0', '0', '0', 'e', '-', '3'] := rfl

end Reckoner.Number
