import Reckoner.Number.Words
import Reckoner.Proofs.Number.Order
import Reckoner.Proofs.Number.Shown

/-!
# Floats that are shown as whole numbers

A float is shown as a whole number where it is one up to noise, and also where nothing is left of
its decimals after rounding.  Only in the first case is it spelled, and what is spelled is the
whole number that is shown.

* `groupedValue`, `ShowsWhole` — texts of whole numbers, and the numbers that they stand for.
* `showsWhole_groupedInt`, `ShowsWhole.unique` — a whole number is read back from its text.
* `Binary.abs_lt_iff`, `Binary.le_abs_iff` — the magnitude of a float against a whole number.
* `joinWords_wholeWords_ne_empty` — which whole numbers are spelled.
* `floatText_of_nearWhole?` — floats near a whole number that is spelled are shown as it.
* `eq_of_showsWhole_floatText` — what is shown as a whole number is the one that the float is near.
* `spelledFloat_ne_empty_iff`, `spelledFloat_of_showsWhole` — which floats are spelled, and how.
-/

namespace Reckoner.Number

open Reckoner.Query (IsRun)

/-! ### Texts of whole numbers -/

/-- The number that digits in groups stand for. -/
def groupedValue (s : List Char) : Nat := Nat.ofDigitChars 10 (s.filter (· ≠ ',')) 0

/-- The text of a whole number, and the number: digits in groups, perhaps behind a minus sign. -/
inductive ShowsWhole : List Char → Int → Prop where
  | plain {s : List Char} : IsGrouped s → ShowsWhole s (groupedValue s)
  | negative {s : List Char} : IsGrouped s → ShowsWhole ('-' :: s) (-groupedValue s)

/-- The characters of digits in groups. -/
theorem IsGrouped.isDigit_or_comma {s : List Char} (h : IsGrouped s) :
    ∀ c ∈ s, c.isDigit = true ∨ c = ',' := by
  obtain ⟨first, rest, rfl, hfirst, -, hrest⟩ := h
  refine List.forall_mem_append.mpr ⟨fun c hc => .inl (hfirst.2 c hc), fun c hc => ?_⟩
  obtain ⟨group, hgroup, hc⟩ := List.mem_flatMap.mp hc
  obtain rfl | hc := List.mem_cons.mp hc
  · exact .inr rfl
  · exact .inl ((hrest group hgroup).1.2 c hc)

/-- A grouped number has nothing but digits and commas in it. -/
theorem IsGrouped.not_mem {s : List Char} (h : IsGrouped s) {c : Char} (hdigit : c.isDigit = false)
    (hcomma : c ≠ ',') : c ∉ s := by
  intro hc
  obtain hc | hc := h.isDigit_or_comma c hc
  · rw [hdigit] at hc
    cases hc
  · exact hcomma hc

/-- Nothing but a digit, a comma or a minus sign is in the text of a whole number. -/
theorem ShowsWhole.not_mem {s : List Char} {n : Int} (h : ShowsWhole s n) {c : Char}
    (hdigit : c.isDigit = false) (hcomma : c ≠ ',') (hminus : c ≠ '-') : c ∉ s := by
  cases h with
  | plain hs => exact hs.not_mem hdigit hcomma
  | negative hs => exact List.not_mem_cons_of_ne_of_not_mem hminus (hs.not_mem hdigit hcomma)

/-- **A text stands for one whole number at most.** -/
theorem ShowsWhole.unique {s : List Char} {n k : Int} (hn : ShowsWhole s n) (hk : ShowsWhole s k) :
    n = k := by
  have hminus : ∀ t : List Char, ¬ IsGrouped ('-' :: t) :=
    fun t ht => ht.not_mem (by decide) (by decide) List.mem_cons_self
  cases hn with
  | plain hs =>
    cases hk with
    | plain => rfl
    | negative => exact absurd hs (hminus _)
  | negative hs =>
    cases hk with
    | plain hs' => exact absurd hs' (hminus _)
    | negative => rfl

/-- The commas are put in, and nothing else is changed. -/
theorem filter_grouped {ds : List Char} (h : ∀ c ∈ ds, c.isDigit = true) :
    (grouped ds).filter (· ≠ ',') = ds := by
  induction ds with
  | nil => rfl
  | cons d ds ih =>
    obtain ⟨hd, hds⟩ := List.forall_mem_cons.mp h
    have hcomma : d ≠ ',' := by
      rintro rfl
      exact absurd hd (by decide)
    unfold grouped
    split_ifs <;> simpa [hcomma] using ih hds

/-- So the digits can be read again. -/
@[simp] theorem groupedValue_natDigits (n : Nat) : groupedValue (grouped (natDigits n)) = n := by
  rw [groupedValue, filter_grouped (isRun_natDigits n).2]
  exact Nat.ofDigitChars_ten_toDigits

/-- **A whole number is read back from its text.** -/
theorem showsWhole_groupedInt (n : Int) : ShowsWhole (groupedInt n) n := by
  have hgrouped := isGrouped_natDigits n.natAbs
  unfold groupedInt
  split_ifs with hneg
  · have h := ShowsWhole.negative hgrouped
    rw [groupedValue_natDigits] at h
    rwa [show -(n.natAbs : Int) = n by omega] at h
  · have h := ShowsWhole.plain hgrouped
    rw [groupedValue_natDigits] at h
    rwa [show (n.natAbs : Int) = n by omega] at h

/-! ### Rounded magnitudes -/

/-- Rounding does not go below the whole part. -/
theorem div_le_roundHalfEven (n d : Nat) : n / d ≤ roundHalfEven n d := by
  unfold roundHalfEven
  split_ifs <;> omega

namespace Binary

variable {x y : Float} {a b : Binary}

/-- A power of two is positive. -/
theorem denominator_pos (b : Binary) : 0 < b.denominator := Nat.two_pow_pos _

/-- The magnitude of a number as a fraction. -/
theorem toRat_magnitude (b : Binary) :
    ({ b with negative := false } : Binary).toRat = b.numerator / b.denominator :=
  Rat.mkRat_eq_div _ _

/-- The magnitude of a float is less than a whole number if its exact value is. -/
theorem abs_lt_iff (hx : ofFloat? x = some b) (hy : ofFloat? y = some a) {k : Nat}
    (hk : a.toRat = k) : x.abs < y ↔ b.numerator < k * b.denominator := by
  have hpos : (0 : ℚ) < b.denominator := by exact_mod_cast b.denominator_pos
  rw [lt_iff_toRat (ofFloat?_abs hx) hy, hk, toRat_magnitude, div_lt_iff₀ hpos]
  exact_mod_cast Iff.rfl

/-- The magnitude of a float is a whole number at least if its exact value is. -/
theorem le_abs_iff (hx : ofFloat? x = some b) (hy : ofFloat? y = some a) {k : Nat}
    (hk : a.toRat = k) : y ≤ x.abs ↔ k * b.denominator ≤ b.numerator := by
  have hpos : (0 : ℚ) < b.denominator := by exact_mod_cast b.denominator_pos
  rw [le_iff_toRat hy (ofFloat?_abs hx), hk, toRat_magnitude, le_div_iff₀ hpos]
  exact_mod_cast Iff.rfl

/-- The magnitude in units of powers of ten is not less than the whole number below it. -/
theorem le_scaled {k : Nat} (h : k * b.denominator ≤ b.numerator) (places : Nat) :
    k * 10 ^ places ≤ b.scaled places := by
  refine le_trans ?_ (div_le_roundHalfEven _ _)
  rw [Nat.le_div_iff_mul_le b.denominator_pos]
  calc k * 10 ^ places * b.denominator = k * b.denominator * 10 ^ places := by ring
    _ ≤ b.numerator * 10 ^ places := Nat.mul_le_mul_right _ h

/-- The nearest whole number is as large as its magnitude in whole units. -/
theorem natAbs_nearest (b : Binary) : b.nearest.natAbs = b.scaled 0 := by
  unfold nearest
  split_ifs <;> simp

end Binary

/-! ### Numbers that are spelled -/

/-- Words with a word among them that is not empty. -/
theorem joinWords_ne_empty {words : List String} (h : ∃ w ∈ words, w ≠ "") :
    joinWords words ≠ "" := by
  obtain ⟨w, hw, hne⟩ := h
  cases words with
  | nil => cases hw
  | cons first rest =>
    unfold joinWords
    by_cases hrest : rest = []
    · subst hrest
      rw [List.mem_singleton.mp hw] at hne
      rwa [String.intercalate_singleton]
    · rw [String.intercalate_cons_of_ne_nil hrest]
      simp

/-- A positive number below a hundred has a word. -/
theorem exists_mem_underHundred {n : Nat} (hpos : 0 < n) (hlt : n < 100) :
    ∃ w ∈ underHundred n, w ≠ "" := by
  have hsmall : ∀ k < 20, 0 < k → smallWords.getD k "" ≠ "" := by decide
  have htens : ∀ k < 10, 2 ≤ k → tensWords.getD k "" ≠ "" := by decide
  unfold underHundred
  rw [if_neg hpos.ne']
  split_ifs with htwenty
  · exact ⟨_, List.mem_singleton_self _, hsmall n htwenty hpos⟩
  · exact ⟨_, List.mem_cons_self, htens (n / 10) (by omega) (by omega)⟩
  · exact ⟨_, List.mem_cons_self, htens (n / 10) (by omega) (by omega)⟩

/-- So has a group of digits that is not zero, whatever its scale is. -/
theorem exists_mem_scaledWords {n : Nat} (hpos : 0 < n) (scale : Nat) :
    ∃ w ∈ scaledWords n scale, w ≠ "" := by
  suffices hchunk : ∃ w ∈ chunkWords n, w ≠ "" by
    obtain ⟨w, hw, hne⟩ := hchunk
    refine ⟨w, ?_, hne⟩
    rw [scaledWords, if_neg hpos.ne']
    exact List.mem_append_left _ hw
  unfold chunkWords
  split_ifs with hhundred
  · exact exists_mem_underHundred hpos hhundred
  · exact ⟨"Hundred", by simp, by decide⟩

/-- A number above zero has words, if it has no more groups of digits than are spelled. -/
theorem exists_mem_groupWords {scales n : Nat} (hpos : 0 < n) (hlt : n < 1000 ^ scales)
    (scale : Nat) : ∃ w ∈ groupWords scales scale n, w ≠ "" := by
  induction scales generalizing n scale with
  | zero =>
    rw [pow_zero] at hlt
    omega
  | succ scales ih =>
    simp only [groupWords, List.mem_append]
    -- Either the last group of digits has a word, or a group before it has.
    by_cases hhigh : n / 1000 = 0
    · obtain ⟨w, hw, hne⟩ := exists_mem_scaledWords (n := n % 1000) (by omega) scale
      exact ⟨w, .inr hw, hne⟩
    · have hlow : n / 1000 < 1000 ^ scales := by
        rw [Nat.div_lt_iff_lt_mul (by decide), ← Nat.pow_succ]
        exact hlt
      obtain ⟨w, hw, hne⟩ := ih (Nat.pos_of_ne_zero hhigh) hlow (scale + 1)
      exact ⟨w, .inl hw, hne⟩

/-- **The whole numbers up to the limit are spelled, and no others.** -/
theorem joinWords_wholeWords_ne_empty {n : Int} :
    joinWords (wholeWords n) ≠ "" ↔ n.natAbs ≤ wordsLimit := by
  unfold wholeWords
  split_ifs with hlarge hzero
  · exact ⟨fun h => absurd rfl h, fun h => absurd h (by omega)⟩
  · exact ⟨fun _ => by omega, fun _ => by decide⟩
  all_goals
    have hlimit : n.natAbs < 1000 ^ 4 := by
      have hvalue : wordsLimit < 1000 ^ 4 := by decide
      omega
    obtain ⟨w, hw, hne⟩ := exists_mem_groupWords (n := n.natAbs) (by omega) hlimit 0
    exact ⟨fun _ => by omega, fun _ => joinWords_ne_empty ⟨w, List.mem_append_right _ hw, hne⟩⟩

/-- A float near a whole number is spelled as that number. -/
theorem spelledFloat_eq {x : Float} {n : Int} (h : nearWhole? x = some n) :
    spelledFloat x = joinWords (wholeWords n) := by
  simp [spelledFloat, h]

/-! ### Floats that are shown as whole numbers -/

/-- The magnitude from which floats are not shown as the whole numbers that they are near to. -/
theorem ofFloat?_wholeLimit : Binary.ofFloat? 1e15 = some ⟨false, 8000000000000000, -3⟩ := rfl

/-- The magnitude from which floats have two decimals. -/
theorem ofFloat?_thousand : Binary.ofFloat? 1000 = some ⟨false, 8796093022208000, -43⟩ := rfl

/-- Whether a float is too large to be near a whole number shows in its exact value. -/
theorem abs_lt_wholeLimit_iff {x : Float} {b : Binary} (h : Binary.ofFloat? x = some b) :
    x.abs < 1e15 ↔ b.numerator < wholeLimit * b.denominator :=
  Binary.abs_lt_iff h ofFloat?_wholeLimit (by rw [Binary.toRat_eq]; norm_num [wholeLimit])

/-- So does whether it is shown without decimals. -/
theorem thousand_le_abs_iff {x : Float} {b : Binary} (h : Binary.ofFloat? x = some b) :
    x.abs ≥ 1000 ↔ 1000 * b.denominator ≤ b.numerator :=
  Binary.le_abs_iff h ofFloat?_thousand (by rw [Binary.toRat_eq]; norm_num)

/-- What a float is near to is the nearest whole number. -/
theorem nearWhole?_eq_some {x : Float} {n : Int} (h : nearWhole? x = some n) :
    ∃ b, Binary.ofFloat? x = some b ∧ n = b.nearest := by
  obtain ⟨b, hb, hnear⟩ := Option.bind_eq_some_iff.mp h
  dsimp only at hnear
  split_ifs at hnear
  exact ⟨b, hb, (Option.some.inj hnear).symm⟩

/-- **A float that is near a whole number below the limit is shown as that number.** -/
theorem floatText_of_nearWhole? {x : Float} {n : Int} (h : nearWhole? x = some n)
    (hlimit : n.natAbs < wholeLimit) : floatText x = groupedInt n := by
  obtain ⟨b, hb, rfl⟩ := nearWhole?_eq_some h
  have hsmall : x.abs < 1e15 := by
    rw [abs_lt_wholeLimit_iff hb]
    by_contra hlarge
    have hscaled := b.le_scaled (Nat.le_of_not_lt hlarge) 0
    rw [b.natAbs_nearest] at hlimit
    omega
  simp only [floatText, h, if_pos hsmall]

/-- A float beyond the limit is shown with two decimals at most. -/
theorem floatText_of_large {x : Float} {b : Binary} (hb : Binary.ofFloat? x = some b)
    (hlarge : ¬ x.abs < 1e15) : floatText x = fixed 2 b := by
  have hthousand : x.abs ≥ 1000 := by
    rw [abs_lt_wholeLimit_iff hb, Nat.not_lt] at hlarge
    rw [thousand_le_abs_iff hb]
    exact (Nat.mul_le_mul_right _ (by decide)).trans hlarge
  have hdecimal : decimalText x = fixed 2 b := by
    simp only [decimalText, if_pos hthousand, fixedFloat, hb]
  unfold floatText
  split
  · rw [if_neg hlarge, hdecimal]
  · exact hdecimal

/-- A text without a point has no decimals. -/
theorem fixedText_of_not_mem {places units : Nat} (h : '.' ∉ fixedText places units) :
    fixedText places units = grouped (natDigits (units / 10 ^ places)) := by
  unfold fixedText at h ⊢
  dsimp only at h ⊢
  split at h
  · rfl
  · simp at h

/-- What is shown as a whole number is the magnitude without its decimals. -/
theorem natAbs_of_showsWhole_fixed {places : Nat} {b : Binary} {n : Int}
    (h : ShowsWhole (fixed places b) n) : n.natAbs = b.scaled places / 10 ^ places := by
  have hpoint := h.not_mem (c := '.') (by decide) (by decide) (by decide)
  have hgrouped := isGrouped_natDigits (b.scaled places / 10 ^ places)
  unfold fixed at h hpoint
  dsimp only at h hpoint
  split_ifs at h hpoint
  · rw [fixedText_of_not_mem (List.not_mem_of_not_mem_cons hpoint)] at h
    rw [h.unique (.negative hgrouped), groupedValue_natDigits, Int.natAbs_neg, Int.natAbs_natCast]
  · rw [fixedText_of_not_mem hpoint] at h
    rw [h.unique (.plain hgrouped), groupedValue_natDigits, Int.natAbs_natCast]

/-- **What is shown as a whole number below the limit is the number that the float is near to**, if
    it is near to one. -/
theorem eq_of_showsWhole_floatText {x : Float} {n k : Int} (h : nearWhole? x = some n)
    (hshown : ShowsWhole (floatText x) k) (hlimit : k.natAbs < wholeLimit) : k = n := by
  obtain ⟨b, hb, -⟩ := nearWhole?_eq_some h
  by_cases hsmall : x.abs < 1e15
  · have htext : floatText x = groupedInt n := by simp only [floatText, h, if_pos hsmall]
    rw [htext] at hshown
    exact hshown.unique (showsWhole_groupedInt n)
  · -- Beyond the limit the number that is shown is beyond the limit, too.
    rw [floatText_of_large hb hsmall] at hshown
    rw [natAbs_of_showsWhole_fixed hshown] at hlimit
    rw [abs_lt_wholeLimit_iff hb, Nat.not_lt] at hsmall
    have hscaled := b.le_scaled hsmall 2
    omega

/-- **A float is spelled exactly if it is near a whole number and shown as one that is spelled.** -/
theorem spelledFloat_ne_empty_iff (x : Float) :
    spelledFloat x ≠ "" ↔
      (nearWhole? x).isSome ∧ ∃ n, ShowsWhole (floatText x) n ∧ n.natAbs ≤ wordsLimit := by
  have hlimits : wordsLimit < wholeLimit := by decide
  constructor
  · intro h
    cases hnear : nearWhole? x with
    | none => exact absurd (by simp [spelledFloat, hnear]) h
    | some n =>
      -- A whole number with words is small enough to be shown in digits.
      rw [spelledFloat_eq hnear, joinWords_wholeWords_ne_empty] at h
      refine ⟨rfl, n, ?_, h⟩
      rw [floatText_of_nearWhole? hnear (by omega)]
      exact showsWhole_groupedInt n
  · rintro ⟨hsome, k, hshown, hlimit⟩
    obtain ⟨n, hnear⟩ := Option.isSome_iff_exists.mp hsome
    obtain rfl := eq_of_showsWhole_floatText hnear hshown (by omega)
    rw [spelledFloat_eq hnear, joinWords_wholeWords_ne_empty]
    exact hlimit

/-- **What is spelled is the whole number that is shown.** -/
theorem spelledFloat_of_showsWhole {x : Float} {n : Int} (h : spelledFloat x ≠ "")
    (hshown : ShowsWhole (floatText x) n) : spelledFloat x = joinWords (wholeWords n) := by
  obtain ⟨hsome, k, hk, hlimit⟩ := (spelledFloat_ne_empty_iff x).mp h
  have hlimits : wordsLimit < wholeLimit := by decide
  obtain ⟨m, hnear⟩ := Option.isSome_iff_exists.mp hsome
  obtain rfl := hk.unique hshown
  obtain rfl := eq_of_showsWhole_floatText hnear hshown (by omega)
  exact spelledFloat_eq hnear

end Reckoner.Number
