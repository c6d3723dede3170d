import Reckoner.Proofs.Number.NearWhole
import Reckoner.Proofs.Number.Scientific

/-!
# How many decimals are shown

A float is shown as the whole number that it is near to, or it is rounded.  To how many decimals it
is rounded depends on nothing but the power of ten of its first digit: the lower the power is, the
more decimals there are, and at least five digits are kept.

* `Binary.power`, `tenPow_le_abs_iff` — the power of ten of the first digit.
* `placesFor`, `placesFor_anti`, `four_sub_le_placesFor` — the decimals for a power of ten.
* `decimalText_eq` — a float with decimals is shown with so many.
* `Shown`, `exists_shown` — the number that is shown of a float, and its text.
-/

namespace Reckoner.Number

/-! ### Magnitudes -/

namespace Binary

variable {x y : Float} {a b : Binary}

/-- The magnitude is the quotient of numerator and denominator. -/
theorem abs_toRat (b : Binary) : |b.toRat| = b.numerator / b.denominator := by
  rw [toRat, Rat.mkRat_eq_div, abs_div]
  split_ifs <;> simp

/-- A number that is not zero has a positive numerator. -/
theorem numerator_pos (h : b.toRat ≠ 0) : 0 < b.numerator := by
  rw [← abs_pos, abs_toRat] at h
  by_contra hzero
  simp [Nat.eq_zero_of_not_pos hzero] at h

/-- **Powers of ten that a number reaches** are those up to the one of its first digit. -/
theorem tenPow_le_abs_iff (h : b.toRat ≠ 0) (k : ℤ) : (10 : ℚ) ^ k ≤ |b.toRat| ↔ k ≤ b.power := by
  obtain ⟨hlow, hhigh⟩ := tenPow_decimalExponent (numerator_pos h) b.denominator_pos
  rw [← abs_toRat] at hlow hhigh
  constructor
  · intro hle
    have hlt : k < b.power + 1 := (zpow_lt_zpow_iff_right₀ (by norm_num)).mp (hle.trans_lt hhigh)
    omega
  · intro hle
    exact (zpow_le_zpow_right₀ (by norm_num) hle).trans hlow

/-- Magnitudes of floats are compared as those of their exact values. -/
theorem le_abs_iff_toRat (hx : ofFloat? x = some b) (hy : ofFloat? y = some a) :
    x.abs ≥ y ↔ a.toRat ≤ |b.toRat| := by
  rw [abs_toRat, ← toRat_magnitude]
  exact le_iff_toRat hy (ofFloat?_abs hx)

end Binary

variable {x : Float} {b : Binary}

/-- A float is below the limit for whole numbers if its value is. -/
theorem abs_lt_wholeLimit_iff_toRat (hb : Binary.ofFloat? x = some b) :
    x.abs < 1e15 ↔ |b.toRat| < 10 ^ 15 := by
  have hpos : (0 : ℚ) < b.denominator := by exact_mod_cast b.denominator_pos
  rw [abs_lt_wholeLimit_iff hb, Binary.abs_toRat, div_lt_iff₀ hpos, wholeLimit]
  exact_mod_cast Iff.rfl

/-- The float for a thousandth is more than a thousandth, but no float is between them. -/
theorem thousandth_le_abs_iff (hb : Binary.ofFloat? x = some b) :
    x.abs ≥ 0.001 ↔ (10 : ℚ) ^ (-3 : ℤ) ≤ |b.toRat| := by
  have hfloat : Binary.ofFloat? 0.001 = some ⟨false, 4611686018427388, -62⟩ := rfl
  have hvalue : (⟨false, 4611686018427388, -62⟩ : Binary).toRat = 4611686018427388 / 2 ^ 62 := by
    rw [Binary.toRat_eq]
    norm_num
  rw [Binary.le_abs_iff_toRat hb hfloat]
  constructor
  · intro hle
    rw [hvalue] at hle
    exact le_trans (by norm_num) hle
  · intro hle
    -- No float lies between the one nearest to a thousandth and a thousandth itself.
    by_contra hlt
    have hspace := (isExact_of_ofFloat? hb).spacing (isExact_of_ofFloat? hfloat)
      ((not_le.mp hlt).trans_le (le_abs_self _))
    rw [hvalue] at hspace
    norm_num at hle hspace
    linarith

/-- A float is not below one if its value is not. -/
theorem one_le_abs_iff (hb : Binary.ofFloat? x = some b) :
    x.abs ≥ 1 ↔ (10 : ℚ) ^ (0 : ℤ) ≤ |b.toRat| := by
  have hfloat : Binary.ofFloat? 1 = some ⟨false, 4503599627370496, -52⟩ := rfl
  have hvalue : (⟨false, 4503599627370496, -52⟩ : Binary).toRat = 10 ^ (0 : ℤ) := by
    rw [Binary.toRat_eq]
    norm_num
  rw [Binary.le_abs_iff_toRat hb hfloat, hvalue]

/-- Nor below a thousand if its value is not. -/
theorem thousand_le_abs_iff_toRat (hb : Binary.ofFloat? x = some b) :
    x.abs ≥ 1000 ↔ (10 : ℚ) ^ (3 : ℤ) ≤ |b.toRat| := by
  have hvalue : (⟨false, 8796093022208000, -43⟩ : Binary).toRat = 10 ^ (3 : ℤ) := by
    rw [Binary.toRat_eq]
    norm_num
  rw [Binary.le_abs_iff_toRat hb ofFloat?_thousand, hvalue]

/-! ### Decimals -/

/-- How many decimals a number has whose first digit has a power of ten. -/
def placesFor (e : ℤ) : Nat :=
  if 3 ≤ e then 2 else if 0 ≤ e then 6 else if -3 ≤ e then 8 else (4 - e).toNat

/-- Numbers with a lower power of ten have at least as many decimals. -/
theorem placesFor_anti {e f : ℤ} (h : e ≤ f) : placesFor f ≤ placesFor e := by
  unfold placesFor
  split_ifs <;> omega

/-- The four digits behind the first one are kept. -/
theorem four_sub_le_placesFor (e : ℤ) : 4 - e ≤ placesFor e := by
  unfold placesFor
  split_ifs <;> omega

/-- **A float with decimals** has as many as are for the power of ten of its first digit. -/
theorem decimalText_eq (hb : Binary.ofFloat? x = some b) (h : b.toRat ≠ 0) :
    decimalText x =
      if -3 ≤ b.power then fixed (placesFor b.power) b else scientific 4 b := by
  unfold decimalText fixedFloat scientificFloat placesFor
  simp only [hb, thousand_le_abs_iff_toRat hb, one_le_abs_iff hb, thousandth_le_abs_iff hb,
    Binary.tenPow_le_abs_iff h]
  by_cases hplain : -3 ≤ b.power
  · simp only [if_pos hplain]
    split_ifs <;> rfl
  · have hthree : ¬ 3 ≤ b.power := by omega
    have hzero : ¬ 0 ≤ b.power := by omega
    simp only [if_neg hplain, if_neg hthree, if_neg hzero]

/-! ### What is shown -/

/-- The form of a text with a power of ten: a number with four decimals, perhaps behind a sign. -/
def HasPowerForm (s : List Char) (v : ℚ) : Prop :=
  ∃ t, (s = t ∨ s = '-' :: t) ∧ ShowsScientific 4 t |v|

/-- **A float with decimals is rounded to nearest**, whether its text has a power of ten or not. -/
theorem exists_showsNumber_decimalText (hb : Binary.ofFloat? x = some b) (h : b.toRat ≠ 0) :
    ∃ v, ShowsNumber (decimalText x) v ∧ IsNearest (placesFor b.power) b.toRat v ∧
      ('e' ∈ decimalText x → HasPowerForm (decimalText x) v) := by
  have hnearest := isNearest_scaled (placesFor b.power) b
  rw [decimalText_eq hb h]
  split_ifs with hplain
  · have hshows := showsDecimal_fixed (placesFor b.power) b
    exact ⟨_, .decimal hshows, hnearest, fun he => absurd he hshows.not_mem_e⟩
  · -- In scientific form one digit stands before the point, and the places follow it.
    have hplaces : ((4 : ℕ) - b.power).toNat = placesFor b.power := by
      unfold placesFor
      split_ifs <;> omega
    have hfew : b.power ≤ (4 : ℕ) := by omega
    obtain ⟨t, htext, hshows⟩ := exists_showsScientific (Binary.numerator_pos h) hfew
    rw [hplaces] at hshows
    refine ⟨_, ?_, hnearest, fun _ => ⟨t, ?_, ?_⟩⟩
    · rw [htext]
      split_ifs
      · rw [neg_div]
        exact .negative hshows
      · exact .scientific hshows
    · rw [htext]
      split_ifs
      · exact .inr rfl
      · exact .inl rfl
    · convert hshows using 1
      rw [abs_div]
      split_ifs <;> simp

/-- The number that is shown of a float: the whole number that the float is near to, unless it is
    large, or the float rounded to the decimals for its first digit. -/
inductive Shown (x : Float) (b : Binary) : ℚ → Prop where
  | whole {n : ℤ} : nearWhole? x = some n → |b.toRat| < 10 ^ 15 → Shown x b n
  | rounded {v : ℚ} : b.toRat ≠ 0 → (∀ n, nearWhole? x = some n → 10 ^ 15 ≤ |b.toRat|) →
      IsNearest (placesFor b.power) b.toRat v → Shown x b v

/-- A grouped whole number shows itself, without decimals. -/
theorem showsDecimal_groupedInt (n : ℤ) : ShowsDecimal 0 (groupedInt n) n := by
  have hmagnitude : ShowsMagnitude 0 _ _ := .whole (isWholePart_natDigits n.natAbs)
  rw [groupedValue_natDigits] at hmagnitude
  unfold groupedInt
  split_ifs with hneg
  · have hvalue : (n : ℚ) = -(n.natAbs : ℚ) := by
      rw [Nat.cast_natAbs, abs_of_neg hneg, Int.cast_neg, neg_neg]
    rw [hvalue]
    refine .negative hmagnitude fun hzero => ?_
    -- A negative number is not shown as zero.
    have hread := groupedValue_natDigits n.natAbs
    rw [hzero] at hread
    exact absurd hread.symm (Int.natAbs_ne_zero.mpr hneg.ne)
  · have hvalue : (n : ℚ) = n.natAbs := by
      rw [Nat.cast_natAbs, abs_of_nonneg (not_lt.mp hneg)]
    rw [hvalue]
    exact .plain hmagnitude

/-- **Every float with an exact value is shown** as a number that its text stands for. -/
theorem exists_shown (hb : Binary.ofFloat? x = some b) :
    ∃ v, Shown x b v ∧ ShowsNumber (floatText x) v ∧
      ('e' ∈ floatText x → HasPowerForm (floatText x) v) := by
  have hsmall := abs_lt_wholeLimit_iff_toRat hb
  -- A number near a small enough whole one is shown as that; zero always is.
  by_cases hwhole : ∃ n, nearWhole? x = some n ∧ |b.toRat| < 10 ^ 15
  · obtain ⟨n, hn, hlt⟩ := hwhole
    have htext : floatText x = groupedInt n := by
      simp only [floatText, hn, if_pos (hsmall.mpr hlt)]
    have hshows := showsDecimal_groupedInt n
    rw [htext]
    exact ⟨n, .whole hn hlt, .decimal hshows, fun he => absurd he hshows.not_mem_e⟩
  · have hne : b.toRat ≠ 0 := by
      intro hzero
      refine hwhole ⟨_, nearWhole?_of_eq_zero hb hzero, ?_⟩
      rw [hzero]
      norm_num
    have htext : floatText x = decimalText x := by
      unfold floatText
      split
      · next n hn => exact if_neg fun hlt => hwhole ⟨n, hn, hsmall.mp hlt⟩
      · rfl
    obtain ⟨v, hshows, hnearest, hform⟩ := exists_showsNumber_decimalText hb hne
    rw [htext]
    refine ⟨v, .rounded hne (fun n hn => ?_) hnearest, hshows, hform⟩
    exact not_lt.mp fun hlt => hwhole ⟨n, hn, hlt⟩

end Reckoner.Number
