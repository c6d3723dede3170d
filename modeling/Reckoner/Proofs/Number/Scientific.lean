import Mathlib.Tactic.FieldSimp
import Reckoner.Proofs.Number.Nearest

/-!
# Numbers with a power of ten

A float that is too small for decimals is shown in one digit, a number of decimals and a power of
ten.  That is rounding to a multiple of a power of ten, too: of the one that the last digit has.

    number   := decimal | scientific | '-' scientific
    scientific := digit '.' digits 'e' ('+' | '-') digits     (the first digit is not zero)

* `tenPow_decimalExponent` — the power of ten of the first digit.
* `ShowsPower`, `ShowsScientific` — texts with a power of ten, and the numbers they stand for.
* `ShowsNumber`, `ShowsNumber.unique` — every text of a number, and the one number it stands for.
* `Binary.power` — the power of ten of the first digit of a float.
* `exists_scientificParts` — the digits and the power of ten of a number that is rounded.
* `exists_showsScientific` — a number that is shown in this form is rounded to nearest.
-/

namespace Reckoner.Number

open Reckoner.Query (IsRun)

/-! ### The power of ten of the first digit -/

/-- A number between two powers of ten has as many digits as the upper one has zeros. -/
theorem tenPow_length_natDigits {n : Nat} (hn : 0 < n) :
    10 ^ ((natDigits n).length - 1) ≤ n ∧ n < 10 ^ (natDigits n).length := by
  have hpos : 0 < (natDigits n).length := Nat.length_toDigits_pos
  refine ⟨?_, (Nat.length_toDigits_le_iff (by decide) hpos).mp le_rfl⟩
  obtain hone | hmore := Nat.eq_or_lt_of_le hpos
  · rw [← hone]
    exact hn
  · by_contra hlt
    have hle := (Nat.length_toDigits_le_iff (by decide) (by omega)).mpr (not_le.mp hlt)
    unfold natDigits at hle hmore
    omega

/-- A quotient is compared with a power of ten by a multiplication with one. -/
theorem mul_tenPow_le_iff {n d : Nat} (hd : 0 < d) (k : ℤ) :
    d * 10 ^ k.toNat ≤ n * 10 ^ (-k).toNat ↔ (10 : ℚ) ^ k ≤ n / d := by
  have hdpos : (0 : ℚ) < d := by exact_mod_cast hd
  have hpow : (10 : ℚ) ^ k = 10 ^ k.toNat / 10 ^ (-k).toNat := by
    rw [← zpow_natCast, ← zpow_natCast, ← zpow_sub₀ (by norm_num)]
    congr 1
    omega
  rw [hpow, div_le_div_iff₀ (by positivity) hdpos, mul_comm]
  exact_mod_cast Iff.rfl

/-- **The power of ten of the first digit.** -/
theorem tenPow_decimalExponent {n d : Nat} (hn : 0 < n) (hd : 0 < d) :
    (10 : ℚ) ^ decimalExponent n d ≤ n / d ∧ (n / d : ℚ) < 10 ^ (decimalExponent n d + 1) := by
  obtain ⟨hn_le, hn_lt⟩ := tenPow_length_natDigits hn
  obtain ⟨hd_le, hd_lt⟩ := tenPow_length_natDigits hd
  have hnpos : 0 < (natDigits n).length := Nat.length_toDigits_pos
  have hdpos : 0 < (natDigits d).length := Nat.length_toDigits_pos
  have hcompare := mul_tenPow_le_iff (n := n) hd ((natDigits n).length - (natDigits d).length)
  unfold decimalExponent
  dsimp only
  generalize (natDigits n).length = a at *
  generalize (natDigits d).length = b at *
  -- The lengths of both numbers leave two powers of ten.
  have hdq : (0 : ℚ) < d := by exact_mod_cast hd
  have hlow : (10 : ℚ) ^ ((a : ℤ) - b - 1) ≤ n / d := by
    have hpow : (10 : ℚ) ^ ((a : ℤ) - b - 1) = 10 ^ (a - 1) / 10 ^ b := by
      rw [← zpow_natCast, ← zpow_natCast, ← zpow_sub₀ (by norm_num)]
      congr 1
      omega
    rw [hpow]
    exact div_le_div₀ (by positivity) (by exact_mod_cast hn_le) hdq (by exact_mod_cast hd_lt.le)
  have hhigh : (n / d : ℚ) < 10 ^ ((a : ℤ) - b + 1) := by
    have hpow : (10 : ℚ) ^ ((a : ℤ) - b + 1) = 10 ^ a / 10 ^ (b - 1) := by
      rw [← zpow_natCast, ← zpow_natCast, ← zpow_sub₀ (by norm_num)]
      congr 1
      omega
    rw [hpow]
    exact div_lt_div₀ (by exact_mod_cast hn_lt) (by exact_mod_cast hd_le) (by positivity)
      (by positivity)
  split_ifs with h
  · exact ⟨hcompare.mp h, hhigh⟩
  · rw [sub_add_cancel]
    exact ⟨hlow, not_le.mp fun hle => h (hcompare.mpr hle)⟩

/-! ### Texts with a power of ten -/

/-- The text of a power of ten with its sign, and the power.  It has no leading zeros. -/
inductive ShowsPower : List Char → ℤ → Prop where
  | plus {s : List Char} : IsRun Char.isDigit s → (s.head? = some '0' → s = ['0']) →
      ShowsPower ('+' :: s) (Nat.ofDigitChars 10 s 0)
  | minus {s : List Char} : IsRun Char.isDigit s → s.head? ≠ some '0' →
      ShowsPower ('-' :: s) (-Nat.ofDigitChars 10 s 0)

/-- The text of a number in one digit other than zero, `places` decimals and a power of ten, and
    the number. -/
inductive ShowsScientific (places : Nat) : List Char → ℚ → Prop where
  | mk {d : Char} {ds es : List Char} {e : ℤ} : d.isDigit = true → d ≠ '0' →
      (∀ c ∈ ds, c.isDigit = true) → ds.length = places → ShowsPower es e →
      ShowsScientific places ((d :: '.' :: ds) ++ 'e' :: es)
        ((Nat.ofDigitChars 10 [d] 0 + fractionValue ds) * 10 ^ e)

/-- The text of a number in any form, and the number. -/
inductive ShowsNumber : List Char → ℚ → Prop where
  | decimal {places : Nat} {s : List Char} {v : ℚ} : ShowsDecimal places s v → ShowsNumber s v
  | scientific {places : Nat} {s : List Char} {v : ℚ} : ShowsScientific places s v → ShowsNumber s v
  | negative {places : Nat} {s : List Char} {v : ℚ} : ShowsScientific places s v →
      ShowsNumber ('-' :: s) (-v)

variable {s : List Char} {v w : ℚ}

theorem ShowsPower.unique {e f : ℤ} (he : ShowsPower s e) (hf : ShowsPower s f) : e = f := by
  cases he with
  | plus => cases hf; rfl
  | minus => cases hf; rfl

/-- A text stands for one number with a power of ten at most. -/
theorem ShowsScientific.unique {i j : Nat} (hv : ShowsScientific i s v)
    (hw : ShowsScientific j s w) : v = w := by
  have hnot : ∀ {d : Char} {ds : List Char}, d.isDigit = true → (∀ c ∈ ds, c.isDigit = true) →
      'e' ∉ d :: '.' :: ds := by
    intro d ds hd hds he
    have hall : ∀ c ∈ d :: '.' :: ds, c.isDigit = true ∨ c = '.' :=
      List.forall_mem_cons.mpr ⟨.inl hd, List.forall_mem_cons.mpr
        ⟨.inr rfl, fun c hc => .inl (hds c hc)⟩⟩
    exact absurd (hall 'e' he) (by decide)
  -- No `e` stands before the exponents, so both texts are cut in the same place.
  generalize hs : s = t at hw
  cases hv with
  | mk hd _ hds _ he =>
    cases hw with
    | mk hd' _ hds' _ he' =>
      obtain ⟨hdigits, hpower⟩ := append_cons_inj (hnot hd hds) (hnot hd' hds') hs
      injection hdigits with hfirst hrest
      injection hrest with _ hrest
      subst hfirst hrest hpower
      rw [he.unique he']

/-- More decimals are allowed. -/
theorem ShowsDecimal.mono {i j : Nat} (h : ShowsDecimal i s v) (hle : i ≤ j) :
    ShowsDecimal j s v := by
  have hmagnitude : ∀ {s : List Char} {v : ℚ}, ShowsMagnitude i s v → ShowsMagnitude j s v := by
    intro s v h
    cases h with
    | whole hs => exact .whole hs
    | decimal hs hds => exact .decimal hs ⟨hds.isRun, hds.length_le.trans hle, hds.last⟩
  cases h with
  | plain hs => exact .plain (hmagnitude hs)
  | negative hs hne => exact .negative (hmagnitude hs) hne

theorem ShowsDecimal.not_mem_e {places : Nat} (h : ShowsDecimal places s v) : 'e' ∉ s := by
  have hmagnitude : ∀ {s : List Char} {v : ℚ}, ShowsMagnitude places s v → 'e' ∉ s := by
    intro s v h
    cases h with
    | whole hs => exact hs.isGrouped.not_mem (by decide) (by decide)
    | decimal hs hds =>
      rw [List.mem_append, List.mem_cons, not_or, not_or]
      refine ⟨hs.isGrouped.not_mem (by decide) (by decide), by decide, fun he => ?_⟩
      exact absurd (hds.isRun.2 'e' he) (by decide)
  cases h with
  | plain hs => exact hmagnitude hs
  | negative hs => exact List.not_mem_cons_of_ne_of_not_mem (by decide) (hmagnitude hs)

theorem ShowsScientific.mem_e {places : Nat} (h : ShowsScientific places s v) : 'e' ∈ s := by
  cases h with
  | mk => simp

theorem ShowsScientific.head_ne_minus {places : Nat} (h : ShowsScientific places s v)
    (t : List Char) : s ≠ '-' :: t := by
  rintro rfl
  generalize hs : '-' :: t = s at h
  cases h with
  | mk hd =>
    obtain ⟨rfl, -⟩ := List.cons.inj hs
    exact absurd hd (by decide)

/-- **A text stands for one number at most**, whatever form it has. -/
theorem ShowsNumber.unique (hv : ShowsNumber s v) (hw : ShowsNumber s w) : v = w := by
  -- Only scientific form has an `e`, and only a negative number begins with a minus.
  cases hv with
  | @decimal i _ _ h =>
    cases hw with
    | @decimal j _ _ h' =>
      exact (h.mono (le_max_left i j)).unique (h'.mono (le_max_right i j))
    | scientific h' => exact absurd h'.mem_e h.not_mem_e
    | negative h' => exact absurd (List.mem_cons_of_mem _ h'.mem_e) h.not_mem_e
  | scientific h =>
    cases hw with
    | decimal h' => exact absurd h.mem_e h'.not_mem_e
    | scientific h' => exact h.unique h'
    | negative h' => exact absurd rfl (h.head_ne_minus _)
  | negative h =>
    cases hw with
    | decimal h' => exact absurd (List.mem_cons_of_mem _ h.mem_e) h'.not_mem_e
    | scientific h' => exact absurd rfl (h'.head_ne_minus _)
    | negative h' => rw [h.unique h']

theorem ShowsNumber.iff_eq (hv : ShowsNumber s v) : ShowsNumber s w ↔ w = v :=
  ⟨fun hw => hw.unique hv, fun hw => hw ▸ hv⟩

/-! ### Rounding to a number of digits -/

theorem showsPower_exponentText (e : ℤ) : ShowsPower (exponentText e) e := by
  have hrun := isRun_natDigits e.natAbs
  have hvalue : Nat.ofDigitChars 10 (natDigits e.natAbs) 0 = e.natAbs :=
    Nat.ofDigitChars_ten_toDigits
  unfold exponentText
  by_cases hneg : e < 0
  · have h := ShowsPower.minus hrun fun hzero => by
      have := head?_natDigits hzero
      omega
    rw [hvalue] at h
    rw [if_pos hneg]
    rwa [show -(e.natAbs : ℤ) = e by omega] at h
  · have h := ShowsPower.plus hrun fun hzero => by
      rw [head?_natDigits hzero]
      rfl
    rw [hvalue] at h
    rw [if_neg hneg]
    rwa [show (e.natAbs : ℤ) = e by omega] at h

/-- Digits that are one more than the decimals are shown as the number that they are. -/
theorem showsScientific_digits {places digits : Nat} (hlow : 10 ^ places ≤ digits)
    (hhigh : digits < 10 ^ (places + 1)) (e : ℤ) :
    ShowsScientific places (natDigits (digits / 10 ^ places) ++ '.' :: lastDigits places digits ++
      'e' :: exponentText e) (digits / 10 ^ places * 10 ^ e) := by
  have hpow : 0 < 10 ^ places := Nat.pow_pos (by decide)
  have hpos : 0 < digits / 10 ^ places := Nat.div_pos hlow hpow
  -- Between `10 ^ places` and ten times that, the quotient is one digit, and not zero.
  have hlt : digits / 10 ^ places < 10 := by
    rw [Nat.div_lt_iff_lt_mul hpow, ← Nat.pow_succ']
    exact hhigh
  have hdivided := div_eq_quotient_add digits hpow
  have hfraction : fractionValue (lastDigits places digits) =
      (digits % 10 ^ places : ℕ) / (10 ^ places : ℕ) := by
    rw [fractionValue, ofDigitChars_lastDigits, length_lastDigits]
    push_cast
    rfl
  have hdigit : natDigits (digits / 10 ^ places) = [Nat.digitChar (digits / 10 ^ places)] :=
    Nat.toDigits_of_lt_base hlt
  have hvalue : Nat.ofDigitChars 10 [Nat.digitChar (digits / 10 ^ places)] 0 =
      digits / 10 ^ places := by
    rw [← hdigit]
    exact Nat.ofDigitChars_ten_toDigits
  have hisDigit : (Nat.digitChar (digits / 10 ^ places)).isDigit = true := by
    rw [Nat.isDigit_digitChar]
    exact decide_eq_true hlt
  have hne : Nat.digitChar (digits / 10 ^ places) ≠ '0' := fun hzero =>
    hpos.ne' (Nat.digitChar_eq_zero.mp hzero)
  have hrun : ∀ c ∈ lastDigits places digits, c.isDigit = true :=
    fun c hc => isDigit_of_mem_lastDigits hc
  -- The digits are put together as the grammar has them, then the value is read off.
  have h := ShowsScientific.mk hisDigit hne hrun (length_lastDigits places digits)
    (showsPower_exponentText e)
  rw [hvalue, hfraction, ← hdivided] at h
  rw [hdigit]
  push_cast at h
  exact h

namespace Binary

/-- The power of ten of the first digit of a number. -/
def power (b : Binary) : ℤ := decimalExponent b.numerator b.denominator

/-- Rounding does not go below a power of ten that is a multiple. -/
theorem tenPow_le_scaled {b : Binary} {places k : Nat}
    (h : (10 : ℚ) ^ ((k : ℤ) - places) ≤ b.numerator / b.denominator) :
    10 ^ k ≤ b.scaled places := by
  have hpower : IsNearest places ((10 : ℚ) ^ ((k : ℤ) - places)) (10 ^ ((k : ℤ) - places)) :=
    isNearest_tenPow (by omega)
  have hle := hpower.mono (isNearest_magnitude places b) h
  rw [zpow_sub₀ (by norm_num), zpow_natCast, zpow_natCast,
    div_le_div_iff_of_pos_right (by positivity)] at hle
  exact_mod_cast hle

/-- Rounding does not go beyond a power of ten that is a multiple. -/
theorem scaled_le_tenPow {b : Binary} {places k : Nat}
    (h : (b.numerator / b.denominator : ℚ) ≤ 10 ^ ((k : ℤ) - places)) :
    b.scaled places ≤ 10 ^ k := by
  have hle := (isNearest_magnitude places b).mono (isNearest_tenPow (by omega)) h
  rw [zpow_sub₀ (by norm_num), zpow_natCast, zpow_natCast,
    div_le_div_iff_of_pos_right (by positivity)] at hle
  exact_mod_cast hle

end Binary

variable {b : Binary} {places : Nat}

/-- **The digits and the power of ten** of a number that is rounded.  Where all digits are nines,
    the last of them may carry into the next power of ten. -/
theorem exists_scientificParts (hb : 0 < b.numerator) (he : b.power ≤ places) :
    ∃ digits e, scientificParts places b.numerator b.denominator = (digits, e) ∧
      10 ^ places ≤ digits ∧ digits < 10 ^ (places + 1) ∧
      (digits / 10 ^ places * 10 ^ e : ℚ) =
        b.scaled (places - b.power).toNat / 10 ^ (places - b.power).toNat := by
  obtain ⟨hlow, hhigh⟩ := tenPow_decimalExponent hb b.denominator_pos
  unfold Binary.power at *
  unfold scientificParts
  dsimp only
  generalize decimalExponent b.numerator b.denominator = e at *
  obtain ⟨shift, hshift⟩ := Int.eq_ofNat_of_zero_le (sub_nonneg.mpr he)
  have hscaled : roundHalfEven (b.numerator * Nat.pow 10 shift) (b.denominator * Nat.pow 10 0) =
      b.scaled shift := by
    rw [Nat.pow_eq, Nat.pow_eq, pow_zero, mul_one]
    rfl
  have hpower : (10 : ℚ) ^ e = 10 ^ places / 10 ^ shift := by
    rw [← zpow_natCast, ← zpow_natCast, ← zpow_sub₀ (by norm_num)]
    congr 1
    omega
  rw [hshift, Int.toNat_natCast, show (-(shift : ℤ)).toNat = 0 by omega, hscaled]
  have hleast : 10 ^ places ≤ b.scaled shift := Binary.tenPow_le_scaled (by
    rwa [← hshift, sub_sub_cancel])
  have hmost : b.scaled shift ≤ 10 ^ (places + 1) := Binary.scaled_le_tenPow (by
    rw [show ((places + 1 : ℕ) : ℤ) - shift = e + 1 by omega]
    exact hhigh.le)
  by_cases hlt : b.scaled shift < 10 ^ (places + 1)
  · rw [Nat.pow_eq, if_pos hlt]
    refine ⟨_, _, rfl, hleast, hlt, ?_⟩
    rw [hpower]
    field_simp
  · -- One unit more has one digit more, all zeros behind a one.
    rw [Nat.pow_eq, if_neg hlt]
    have hcarry : b.scaled shift = 10 ^ places * 10 := by
      rw [← pow_succ]
      exact le_antisymm hmost (not_lt.mp hlt)
    rw [hcarry, Nat.mul_div_cancel _ (by decide)]
    refine ⟨_, _, rfl, le_rfl, Nat.pow_lt_pow_right (by decide) (by omega), ?_⟩
    rw [zpow_add_one₀ (by norm_num), hpower]
    push_cast
    field_simp

/-- **A number with a power of ten** has one digit other than zero and `places` decimals. -/
theorem exists_showsScientific (hb : 0 < b.numerator) (he : b.power ≤ places) :
    ∃ t, scientific places b = (if b.negative then '-' :: t else t) ∧
      ShowsScientific places t
        (b.scaled (places - b.power).toNat / 10 ^ (places - b.power).toNat) := by
  obtain ⟨digits, e, hparts, hlow, hhigh, hvalue⟩ := exists_scientificParts hb he
  rw [← hvalue]
  refine ⟨_, ?_, showsScientific_digits hlow hhigh e⟩
  unfold scientific
  rw [hparts]
  rfl

end Reckoner.Number
