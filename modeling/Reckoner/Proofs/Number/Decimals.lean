import Mathlib.Data.List.TakeWhile
import Mathlib.Tactic.Linarith
import Mathlib.Tactic.Positivity
import Reckoner.Proofs.Number.Wholes

/-!
# Decimals are rounded exactly

A float with decimals is shown by the nearest number that has so many of them, a half by the even
one, and in one canonical way: without leading zeros, without trailing zeros, and without a sign if
nothing is left of the number.

    decimal   := magnitude | '-' magnitude     (but not "-0")
    magnitude := whole | whole '.' decimals

* `IsNearest` — the nearest multiple of a power of ten, of two the even one.
* `isNearest_scaled` — rounding the exact value of a float gives it.
* `IsWholePart`, `IsDecimals` — whole numbers without leading zeros, decimals without trailing ones.
* `ShowsMagnitude`, `ShowsDecimal` — canonical texts of decimals, and the numbers they stand for.
* `ShowsDecimal.unique` — a text stands for one number.
* `showsMagnitude_fixedText` — units of a power of ten are shown as the number that they are.
* `fixedFloat_isNearest` — a finite float is shown by the nearest number with so many decimals.
-/

namespace Reckoner.Number

open Reckoner.Query (IsRun)

/-! ### The nearest multiple of a power of ten -/

/-- Among the multiples of `10 ^ -places` the number `y` is the nearest to `x`.  Where two are as
    near, it is the even multiple. -/
def IsNearest (places : Nat) (x y : ℚ) : Prop :=
  ∃ k : ℤ, y = k / 10 ^ places ∧ ∀ j : ℤ, j ≠ k →
    |y - x| < |j / 10 ^ places - x| ∨ |y - x| = |j / 10 ^ places - x| ∧ Even k

/-- A whole number is nearer than every other one if it is at most a half away. -/
theorem abs_sub_lt_or_eq {q : ℚ} {k j : ℤ} (hhalf : |k - q| ≤ 1 / 2) (hne : j ≠ k) :
    |k - q| < |j - q| ∨ |k - q| = |j - q| ∧ |k - q| = 1 / 2 := by
  have hone : (1 : ℚ) ≤ |(j : ℚ) - k| := by
    exact_mod_cast Int.one_le_abs (sub_ne_zero.mpr hne)
  have htriangle : |(j : ℚ) - k| ≤ |j - q| + |k - q| := by
    rw [abs_sub_comm (k : ℚ) q]
    exact abs_sub_le (j : ℚ) q k
  by_cases htie : |(k : ℚ) - q| = 1 / 2
  · obtain hlt | heq := lt_or_eq_of_le (show |(k : ℚ) - q| ≤ |j - q| by linarith)
    · exact .inl hlt
    · exact .inr ⟨heq, htie⟩
  · have hlt := lt_of_le_of_ne hhalf htie
    exact .inl (by linarith)

/-- What is at most half a unit away, and even where it is exactly half a unit away, is nearest. -/
theorem isNearest_of_abs_le {places : Nat} {x : ℚ} {k : ℤ} (hhalf : |k - x * 10 ^ places| ≤ 1 / 2)
    (heven : |k - x * 10 ^ places| = 1 / 2 → Even k) : IsNearest places x (k / 10 ^ places) := by
  have hpos : (0 : ℚ) < 10 ^ places := by positivity
  -- Counted in units of `10 ^ -places`, the multiples are the whole numbers.
  have hscale : ∀ j : ℤ, |(j : ℚ) / 10 ^ places - x| = |j - x * 10 ^ places| / 10 ^ places := by
    intro j
    rw [← abs_of_pos hpos, ← abs_div, abs_of_pos hpos, sub_div, mul_div_cancel_right₀ _ hpos.ne']
  refine ⟨k, rfl, fun j hj => ?_⟩
  rw [hscale, hscale]
  obtain hlt | ⟨heq, htie⟩ := abs_sub_lt_or_eq hhalf hj
  · exact .inl (div_lt_div_of_pos_right hlt hpos)
  · exact .inr ⟨by rw [heq], heven htie⟩

/-- The negative of a nearest multiple is nearest to the negative number. -/
theorem IsNearest.neg {places : Nat} {x y : ℚ} (h : IsNearest places x y) :
    IsNearest places (-x) (-y) := by
  obtain ⟨k, rfl, hk⟩ := h
  have hmirror : ∀ a b : ℚ, |-a - -b| = |a - b| := by
    intro a b
    rw [neg_sub_neg, abs_sub_comm]
  refine ⟨-k, by push_cast; ring, fun j hj => ?_⟩
  have hother := hk (-j) (by omega)
  rw [hmirror, ← hmirror (j / 10 ^ places)]
  simpa [neg_div] using hother

/-- A quotient of whole numbers, divided into its whole part and what is left. -/
theorem div_eq_quotient_add (n : Nat) {d : Nat} (hd : 0 < d) :
    (n : ℚ) / d = (n / d : ℕ) + (n % d : ℕ) / d := by
  have hne : (d : ℚ) ≠ 0 := by exact_mod_cast hd.ne'
  rw [div_eq_iff hne, add_mul, div_mul_cancel₀ _ hne]
  exact_mod_cast (Nat.div_add_mod' n d).symm

/-- **Rounding a quotient** goes at most a half away, and a half away only to an even number. -/
theorem abs_roundHalfEven_sub {n d : Nat} (hd : 0 < d) :
    |(roundHalfEven n d : ℚ) - n / d| ≤ 1 / 2 ∧
      (|(roundHalfEven n d : ℚ) - n / d| = 1 / 2 → Even (roundHalfEven n d)) := by
  have hpos : (0 : ℚ) < d := by exact_mod_cast hd
  have hlt : 2 * (n % d) < d ↔ ((n % d : ℕ) / d : ℚ) < 1 / 2 := by
    rw [div_lt_div_iff₀ hpos two_pos, one_mul, mul_comm]
    exact_mod_cast Iff.rfl
  have heq : 2 * (n % d) = d ↔ ((n % d : ℕ) / d : ℚ) = 1 / 2 := by
    rw [div_eq_div_iff hpos.ne' two_ne_zero, one_mul, mul_comm]
    exact_mod_cast Iff.rfl
  have hnonneg : (0 : ℚ) ≤ (n % d : ℕ) / d := by positivity
  have hone : ((n % d : ℕ) / d : ℚ) < 1 := by
    rw [div_lt_one hpos]
    exact_mod_cast Nat.mod_lt n hd
  rw [div_eq_quotient_add n hd]
  unfold roundHalfEven
  -- Only the share `r` of the divisor that is left decides.
  generalize ((n % d : ℕ) / d : ℚ) = r at hlt heq hnonneg hone
  split_ifs with hdown
  · have hdistance : |((n / d : ℕ) : ℚ) - ((n / d : ℕ) + r)| = r := by
      rw [sub_add_cancel_left, abs_neg, abs_of_nonneg hnonneg]
    rw [hdistance]
    obtain hless | ⟨htie, heven⟩ := hdown
    · exact ⟨(hlt.mp hless).le, fun h => absurd (hlt.mp hless) h.not_lt⟩
    · exact ⟨(heq.mp htie).le, fun _ => Nat.even_iff.mpr heven⟩
  · have hdistance : |((n / d + 1 : ℕ) : ℚ) - ((n / d : ℕ) + r)| = 1 - r := by
      rw [Nat.cast_add, Nat.cast_one, add_sub_add_left_eq_sub, abs_of_pos (by linarith)]
    rw [hdistance]
    rw [not_or, not_and, hlt, not_lt] at hdown
    refine ⟨by linarith, fun h => ?_⟩
    -- A half goes up only if the quotient below it is odd.
    have hodd := hdown.2 (heq.mpr (by linarith))
    rw [Nat.even_iff]
    omega

/-- The magnitude of a float is rounded to the nearest multiple. -/
theorem isNearest_magnitude (places : Nat) (b : Binary) :
    IsNearest places (b.numerator / b.denominator) (b.scaled places / 10 ^ places) := by
  have hpos := b.denominator_pos
  have hscaled : ((b.numerator * 10 ^ places : ℕ) / (b.denominator : ℕ) : ℚ) =
      b.numerator / b.denominator * 10 ^ places := by
    push_cast
    ring
  obtain ⟨hhalf, heven⟩ := abs_roundHalfEven_sub (n := b.numerator * 10 ^ places) hpos
  rw [hscaled] at hhalf heven
  exact isNearest_of_abs_le (k := b.scaled places) hhalf
    fun htie => (Int.even_coe_nat _).mpr (heven htie)

/-- **Rounding the exact value of a float gives the nearest multiple.** -/
theorem isNearest_scaled (places : Nat) (b : Binary) :
    IsNearest places b.toRat
      ((if b.negative then -(b.scaled places : ℚ) else b.scaled places) / 10 ^ places) := by
  have hmagnitude := isNearest_magnitude places b
  obtain ⟨negative, mantissa, exponent⟩ := b
  cases negative with
  | false => simpa [Binary.toRat, Rat.mkRat_eq_div] using hmagnitude
  | true => simpa [Binary.toRat, Rat.mkRat_eq_div, neg_div] using hmagnitude.neg

/-! ### Canonical texts -/

/-- Digits in groups without a zero at their head, unless there is no other digit. -/
structure IsWholePart (s : List Char) : Prop where
  isGrouped : IsGrouped s
  head : s.head? = some '0' → s = ['0']

/-- At most `places` digits, the last of which is not zero. -/
structure IsDecimals (places : Nat) (ds : List Char) : Prop where
  isRun : IsRun Char.isDigit ds
  length_le : ds.length ≤ places
  last : ds.getLast? ≠ some '0'

/-- The number that digits behind a point stand for. -/
def fractionValue (ds : List Char) : ℚ := Nat.ofDigitChars 10 ds 0 / 10 ^ ds.length

/-- The canonical text of a number that is not negative and has at most `places` decimals, and the
    number. -/
inductive ShowsMagnitude (places : Nat) : List Char → ℚ → Prop where
  | whole {s : List Char} : IsWholePart s → ShowsMagnitude places s (groupedValue s)
  | decimal {s ds : List Char} : IsWholePart s → IsDecimals places ds →
      ShowsMagnitude places (s ++ '.' :: ds) (groupedValue s + fractionValue ds)

/-- The canonical text of a number with at most `places` decimals, and the number.  Zero has no
    sign. -/
inductive ShowsDecimal (places : Nat) : List Char → ℚ → Prop where
  | plain {s : List Char} {v : ℚ} : ShowsMagnitude places s v → ShowsDecimal places s v
  | negative {s : List Char} {v : ℚ} : ShowsMagnitude places s v → s ≠ ['0'] →
      ShowsDecimal places ('-' :: s) (-v)

variable {places : Nat} {s t : List Char} {v w : ℚ}

theorem IsWholePart.not_mem_point (h : IsWholePart s) : '.' ∉ s :=
  h.isGrouped.not_mem (by decide) (by decide)

/-- A text is divided at a character before which there is none like it. -/
theorem append_cons_inj {c : Char} {s₁ s₂ ds₁ ds₂ : List Char} (h₁ : c ∉ s₁) (h₂ : c ∉ s₂)
    (h : s₁ ++ c :: ds₁ = s₂ ++ c :: ds₂) : s₁ = s₂ ∧ ds₁ = ds₂ := by
  have hlength : s₁.length = s₂.length := by
    have hindex := congrArg (List.idxOf c) h
    rwa [List.idxOf_append_of_notMem h₁, List.idxOf_append_of_notMem h₂, List.idxOf_cons_self,
      List.idxOf_cons_self, Nat.add_zero, Nat.add_zero] at hindex
  obtain ⟨hs, hds⟩ := List.append_inj h hlength
  exact ⟨hs, (List.cons.inj hds).2⟩

/-- A text stands for one magnitude at most. -/
theorem ShowsMagnitude.unique (hv : ShowsMagnitude places s v) (hw : ShowsMagnitude places s w) :
    v = w := by
  -- The two forms never share a text: only one of them has a point.
  have hwhole : ∀ s ds : List Char, ¬ IsWholePart (s ++ '.' :: ds) :=
    fun s ds h => h.not_mem_point (by simp)
  generalize hs : s = t at hw
  cases hv with
  | whole h₁ =>
    cases hw with
    | whole => rw [hs]
    | decimal =>
      subst hs
      exact absurd h₁ (hwhole _ _)
  | decimal h₁ =>
    cases hw with
    | whole h₂ =>
      subst hs
      exact absurd h₂ (hwhole _ _)
    | decimal h₂ =>
      obtain ⟨rfl, rfl⟩ := append_cons_inj h₁.not_mem_point h₂.not_mem_point hs
      rfl

/-- The text of a magnitude begins with no sign. -/
theorem ShowsMagnitude.head_ne_minus (h : ShowsMagnitude places s v) (t : List Char) :
    s ≠ '-' :: t := by
  -- A magnitude begins with a digit, since its whole part is never empty.
  have hdigit : ∀ {u : List Char}, IsWholePart u → '-' ∉ u ∧ u ≠ [] := by
    intro u hu
    refine ⟨hu.isGrouped.not_mem (by decide) (by decide), ?_⟩
    obtain ⟨first, rest, rfl, hfirst, -⟩ := hu.isGrouped
    exact List.append_ne_nil_of_left_ne_nil hfirst.1 _
  rintro rfl
  generalize hs : '-' :: t = s at h
  cases h with
  | whole hu =>
    subst hs
    exact (hdigit hu).1 List.mem_cons_self
  | @decimal u ds hu hds =>
    cases u with
    | nil => exact (hdigit hu).2 rfl
    | cons c u =>
      obtain ⟨rfl, -⟩ := List.cons.inj hs
      exact (hdigit hu).1 List.mem_cons_self

/-- **A text stands for one number at most.** -/
theorem ShowsDecimal.unique (hv : ShowsDecimal places s v) (hw : ShowsDecimal places s w) :
    v = w := by
  cases hv with
  | plain hs =>
    cases hw with
    | plain ht => exact hs.unique ht
    | negative => exact absurd rfl (hs.head_ne_minus _)
  | negative hs =>
    cases hw with
    | plain ht => exact absurd rfl (ht.head_ne_minus _)
    | negative ht => rw [hs.unique ht]

/-! ### Digits -/

/-- The first of the digits of a number is zero only if the number is. -/
theorem head?_natDigits {n : Nat} (h : (natDigits n).head? = some '0') : n = 0 := by
  induction n using Nat.strong_induction_on with
  | _ n ih =>
    unfold natDigits at h ih
    by_cases hlt : n < 10
    · rw [Nat.toDigits_of_lt_base hlt, List.head?_cons, Option.some.injEq] at h
      exact Nat.digitChar_eq_zero.mp h
    · -- The first digit is that of the number without its last one.
      rw [Nat.toDigits_of_base_le (by decide) (by omega),
        List.head?_append_of_ne_nil _ Nat.toDigits_ne_nil] at h
      have hzero := ih (n / 10) (by omega) h
      omega

theorem head?_grouped (ds : List Char) : (grouped ds).head? = ds.head? := by
  cases ds with
  | nil => rfl
  | cons d ds =>
    unfold grouped
    split_ifs <;> rfl

/-- **The digits of a number have no leading zeros.** -/
theorem isWholePart_natDigits (n : Nat) : IsWholePart (grouped (natDigits n)) := by
  refine ⟨isGrouped_natDigits n, fun h => ?_⟩
  rw [head?_grouped] at h
  rw [head?_natDigits h]
  rfl

/-- The last digits of a number stand for what is left of it. -/
theorem ofDigitChars_lastDigits (width n : Nat) :
    Nat.ofDigitChars 10 (lastDigits width n) 0 = n % 10 ^ width := by
  induction width generalizing n with
  | zero => rw [pow_zero, Nat.mod_one]; rfl
  | succ width ih =>
    have hdigit : (Nat.digitChar (n % 10)).toNat - '0'.toNat = n % 10 :=
      Nat.toNat_digitChar_sub_48_of_lt_ten (Nat.mod_lt n (by decide))
    rw [lastDigits, Nat.ofDigitChars_append, ih, Nat.ofDigitChars_cons, hdigit,
      Nat.ofDigitChars_nil, Nat.pow_succ', Nat.mod_mul]
    omega

/-- What is dropped of digits are zeros. -/
theorem exists_eq_dropTrailingZeros_append (ds : List Char) :
    ∃ k, ds = dropTrailingZeros ds ++ List.replicate k '0' := by
  refine ⟨(ds.reverse.takeWhile (· == '0')).length, ?_⟩
  have hzeros : ds.reverse.takeWhile (· == '0') =
      List.replicate (ds.reverse.takeWhile (· == '0')).length '0' := by
    rw [List.eq_replicate_iff]
    exact ⟨rfl, fun c hc => by simpa using List.mem_takeWhile_imp hc⟩
  rw [← List.reverse_replicate, ← hzeros, dropTrailingZeros, ← List.reverse_append,
    List.takeWhile_append_dropWhile, List.reverse_reverse]

theorem getLast?_dropTrailingZeros (ds : List Char) :
    (dropTrailingZeros ds).getLast? ≠ some '0' := by
  intro h
  rw [dropTrailingZeros, List.getLast?_reverse] at h
  have hhead := List.head?_dropWhile_not (· == '0') ds.reverse
  rw [h] at hhead
  cases hhead

/-- Zeros behind decimals add nothing. -/
theorem fractionValue_append_zeros (ds : List Char) (k : Nat) :
    fractionValue (ds ++ List.replicate k '0') = fractionValue ds := by
  unfold fractionValue
  rw [Nat.ofDigitChars_append, Nat.ofDigitChars_replicate_zero, List.length_append,
    List.length_replicate, pow_add, mul_comm ((10 : ℚ) ^ ds.length)]
  push_cast
  rw [mul_div_mul_left _ _ (by positivity)]

theorem fractionValue_dropTrailingZeros (width n : Nat) :
    fractionValue (dropTrailingZeros (lastDigits width n)) = (n % 10 ^ width : ℕ) / 10 ^ width := by
  obtain ⟨k, hk⟩ := exists_eq_dropTrailingZeros_append (lastDigits width n)
  rw [← fractionValue_append_zeros _ k, ← hk, fractionValue, ofDigitChars_lastDigits,
    length_lastDigits]

/-! ### Floats with decimals -/

/-- **Units of a power of ten are shown as the number that they are.** -/
theorem showsMagnitude_fixedText (places units : Nat) :
    ShowsMagnitude places (fixedText places units) (units / 10 ^ places) := by
  have hwhole := isWholePart_natDigits (units / 10 ^ places)
  have hvalue : (units / 10 ^ places : ℚ) =
      groupedValue (grouped (natDigits (units / 10 ^ places))) +
        fractionValue (dropTrailingZeros (lastDigits places units)) := by
    have hdivided := div_eq_quotient_add units (Nat.pow_pos (n := places) (show 0 < 10 by decide))
    rw [groupedValue_natDigits, fractionValue_dropTrailingZeros]
    exact_mod_cast hdivided
  have hbegin : dropTrailingZeros (lastDigits places units) <+: lastDigits places units := by
    obtain ⟨k, hk⟩ := exists_eq_dropTrailingZeros_append (lastDigits places units)
    exact ⟨_, hk.symm⟩
  rw [hvalue]
  unfold fixedText
  dsimp only
  split
  · next hnil =>
    -- Without decimals nothing is added to the whole part.
    rw [hnil]
    simpa [fractionValue] using ShowsMagnitude.whole hwhole
  · next hne =>
    refine .decimal hwhole ⟨⟨hne, fun c hc => ?_⟩, ?_, getLast?_dropTrailingZeros _⟩
    · exact isDigit_of_mem_lastDigits (hbegin.subset hc)
    · exact hbegin.length_le.trans_eq (length_lastDigits places units)

/-- Rounded units are shown with their sign, unless they are zero. -/
theorem showsDecimal_fixed (places : Nat) (b : Binary) :
    ShowsDecimal places (fixed places b)
      ((if b.negative then -(b.scaled places : ℚ) else b.scaled places) / 10 ^ places) := by
  have hmagnitude := showsMagnitude_fixedText places (b.scaled places)
  unfold fixed
  dsimp only
  by_cases hnegative : b.negative = true
  · rw [if_pos hnegative, neg_div]
    by_cases hzero : fixedText places (b.scaled places) = ['0']
    · -- Nothing is left of the sign of zero.
      have hwhole : IsWholePart ['0'] := isWholePart_natDigits 0
      rw [if_neg fun h => h.2 hzero]
      rw [hzero] at hmagnitude ⊢
      have hvalue : (b.scaled places / 10 ^ places : ℚ) = 0 :=
        hmagnitude.unique (.whole hwhole) |>.trans (Nat.cast_eq_zero.mpr rfl)
      rw [hvalue] at hmagnitude ⊢
      rw [neg_zero]
      exact .plain hmagnitude
    · rw [if_pos ⟨hnegative, hzero⟩]
      exact .negative hmagnitude hzero
  · rw [if_neg hnegative, if_neg fun h => hnegative h.1]
    exact .plain hmagnitude

/-- **A finite float with decimals is shown by the nearest number that has at most so many.**  The
    text is canonical: digits in groups without leading zeros, decimals without trailing zeros, and
    a sign only if the number is not zero.  It stands for the multiple of `10 ^ -places` that is
    nearest to the exact value of the float, ties to the even multiple. -/
theorem fixedFloat_isNearest {x : Float} (h : x.isFinite = true) (places : Nat) :
    ∃ b v, Binary.ofFloat? x = some b ∧ ShowsDecimal places (fixedFloat places x) v ∧
      IsNearest places b.toRat v := by
  obtain ⟨b, hb⟩ := exists_ofFloat?_of_isFinite h
  refine ⟨b, _, hb, ?_, isNearest_scaled places b⟩
  unfold fixedFloat
  rw [hb]
  exact showsDecimal_fixed places b

/-- A number in the middle between two numbers with two decimals. -/
theorem fixedFloat_half :
    (-1234.125 : Float).isFinite = true ∧
      ∃ b v, Binary.ofFloat? (-1234.125) = some b ∧
        ShowsDecimal 2 (fixedFloat 2 (-1234.125)) v ∧ IsNearest 2 b.toRat v :=
  ⟨rfl, fixedFloat_isNearest rfl 2⟩

example : fixedFloat 2 (-1234.125) = ['-', '1', ',', '2', '3', '4', '.', '1', '2'] := rfl

example : fixedFloat 0 (-0.5) = ['0'] := rfl

end Reckoner.Number
