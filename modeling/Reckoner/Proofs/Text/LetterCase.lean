import Reckoner.Text.Blank
import Reckoner.Text.Case
import Reckoner.Text.Digit

/-!
# Capital and small letters

`Char.toLower` makes small letters of the capital letters from `A` to `Z` and leaves all other
characters.  Blanks, digits and marks are not changed by it, and the lower and the upper case of a
text are the same before and after.

* `IsCaseBlind` — what a capital letter has in common with its small letter.
* `toLower_eq_iff` — only letters are made from letters.
* `trim_toLower` — the ends of a text.
* `lower_toLower`, `upper_toLower` — the lower and the upper case of a text.
* `toLower_eq_toLower_iff` — texts that differ only in the case of letters.
-/

namespace Reckoner.Text

/-! ### Characters -/

/-- The capital letters by their codes. -/
theorem isUpper_iff {c : Char} : c.isUpper = true ↔ 65 ≤ c.toNat ∧ c.toNat ≤ 90 := by
  have hval : c.isUpper = true ↔ 65 ≤ c.val ∧ c.val ≤ 90 := decide_eq_true_iff
  rw [hval, UInt32.le_iff_toNat_le, UInt32.le_iff_toNat_le]
  rfl

/-- The small letters by their codes. -/
theorem isLower_iff {c : Char} : c.isLower = true ↔ 97 ≤ c.toNat ∧ c.toNat ≤ 122 := by
  have hval : c.isLower = true ↔ 97 ≤ c.val ∧ c.val ≤ 122 :=
    (Bool.and_eq_true_iff).trans (and_congr decide_eq_true_iff decide_eq_true_iff)
  rw [hval, UInt32.le_iff_toNat_le, UInt32.le_iff_toNat_le]
  rfl

/-- A capital letter is a letter. -/
theorem isAlpha_of_isUpper {c : Char} (h : c.isUpper = true) : c.isAlpha = true :=
  Bool.or_eq_true_iff.mpr (.inl h)

/-- What is the same for a capital letter and its small letter. -/
def IsCaseBlind {α : Type} (f : Char → α) : Prop := ∀ c, f c.toLower = f c

/-- The codes of the capital letters. -/
def capitalCodes : List Nat := List.range' 65 26

/-- The code of a capital letter is one of these. -/
theorem mem_capitalCodes {c : Char} (h : c.isUpper = true) : c.toNat ∈ capitalCodes :=
  have hcode := isUpper_iff.mp h
  List.mem_range'_1.mpr ⟨hcode.1, Nat.lt_succ_of_le hcode.2⟩

/-- No character but a capital letter is changed. -/
theorem toLower_of_isUpper_eq_false {c : Char} (h : c.isUpper = false) : c.toLower = c :=
  dif_neg (of_decide_eq_false h)

/-- **What is the same for the letters from `A` to `Z` is the same for all characters.** -/
theorem isCaseBlind_of_capitals {α : Type} {f : Char → α}
    (h : ∀ n ∈ capitalCodes, f (Char.ofNat n).toLower = f (Char.ofNat n)) : IsCaseBlind f := by
  intro c
  cases hupper : c.isUpper with
  | true =>
    have hc := h c.toNat (mem_capitalCodes hupper)
    rwa [Char.ofNat_toNat] at hc
  | false => rw [toLower_of_isUpper_eq_false hupper]

namespace IsCaseBlind

variable {α : Type}

/-- What does not depend on case is the same behind the change to small letters. -/
theorem comp_toLower {f : Char → α} (h : IsCaseBlind f) : f ∘ Char.toLower = f := funext h

/-- A class without case cuts a text in the same place. -/
theorem dropWhile {p : Char → Bool} (h : IsCaseBlind p) (s : List Char) :
    (s.map Char.toLower).dropWhile p = (s.dropWhile p).map Char.toLower := by
  rw [List.dropWhile_map, h.comp_toLower]

/-- The first character is in the class in either case. -/
theorem head?_any {p : Char → Bool} (h : IsCaseBlind p) (s : List Char) :
    (s.map Char.toLower).head?.any p = s.head?.any p := by
  cases s with
  | nil => rfl
  | cons c s => exact h c

/-- The same characters of a text are left. -/
theorem filter {p : Char → Bool} (h : IsCaseBlind p) (s : List Char) :
    (s.map Char.toLower).filter p = (s.filter p).map Char.toLower := by
  rw [List.filter_map, h.comp_toLower]

end IsCaseBlind

/-- Letters are letters in either case. -/
theorem isCaseBlind_isAlpha : IsCaseBlind Char.isAlpha := isCaseBlind_of_capitals (by decide)

/-- **Only letters are made from letters**: any other character comes only from itself. -/
theorem toLower_eq_iff {c d : Char} (hd : d.isAlpha = false) : c.toLower = d ↔ c = d := by
  cases hupper : c.isUpper with
  | true =>
    have hc : c.isAlpha = true := isAlpha_of_isUpper hupper
    constructor
    · rintro rfl
      rw [isCaseBlind_isAlpha, hc] at hd
      cases hd
    · rintro rfl
      rw [hc] at hd
      cases hd
  | false => rw [toLower_of_isUpper_eq_false hupper]

/-- Small letters of small letters are the same. -/
theorem isCaseBlind_toLower : IsCaseBlind Char.toLower := isCaseBlind_of_capitals (by decide)

/-- Blanks have no case. -/
theorem isCaseBlind_isBlank : IsCaseBlind isBlank := isCaseBlind_of_capitals (by decide)

/-- Digits have none. -/
theorem isCaseBlind_digit? : IsCaseBlind digit? := isCaseBlind_of_capitals (by decide)

/-- So whether a character is a digit does not depend on it. -/
theorem isCaseBlind_isDigit : IsCaseBlind isDigit := fun c =>
  congrArg Option.isSome (isCaseBlind_digit? c)

/-- Nor does whether a character is passed by in search of a letter. -/
theorem isCaseBlind_isCaseIgnorable : IsCaseBlind isCaseIgnorable :=
  isCaseBlind_of_capitals (by decide)

/-- Nor does whether it counts as a letter. -/
theorem isCaseBlind_isCased : IsCaseBlind isCased := isCaseBlind_of_capitals (by decide)

/-- Lowering a character gives the same in either case. -/
theorem isCaseBlind_lowerChar : IsCaseBlind lowerChar := isCaseBlind_of_capitals (by decide)

/-- So does raising it. -/
theorem isCaseBlind_upperOf : IsCaseBlind upperOf := isCaseBlind_of_capitals (by decide)

/-! ### Texts -/

/-- The same blanks are trimmed at the head. -/
@[simp] theorem trimStart_toLower (s : List Char) :
    trimStart (s.map Char.toLower) = (trimStart s).map Char.toLower :=
  isCaseBlind_isBlank.dropWhile s

/-- The same blanks are trimmed at the end. -/
@[simp] theorem trimEnd_toLower (s : List Char) :
    trimEnd (s.map Char.toLower) = (trimEnd s).map Char.toLower := by
  simp only [trimEnd, ← List.map_reverse, isCaseBlind_isBlank.dropWhile]

/-- **The blanks at the ends of a text** are the same. -/
@[simp] theorem trim_toLower (s : List Char) :
    trim (s.map Char.toLower) = (trim s).map Char.toLower := by
  rw [trim, trimStart_toLower, trimEnd_toLower, trim]

/-- A letter follows in either case. -/
theorem casedFollows_toLower (s : List Char) :
    casedFollows (s.map Char.toLower) = casedFollows s := by
  rw [casedFollows, isCaseBlind_isCaseIgnorable.dropWhile, isCaseBlind_isCased.head?_any,
    casedFollows]

/-- **Lowering a text** gives the same in either case, whatever stands before the text. -/
theorem lowerAfter_toLower (casedBefore : Bool) (s : List Char) :
    lowerAfter casedBefore (s.map Char.toLower) = lowerAfter casedBefore s := by
  induction s generalizing casedBefore with
  | nil => rfl
  | cons c s ih =>
    simp only [List.map_cons, lowerAfter, isCaseBlind_isCaseIgnorable c, isCaseBlind_isCased c,
      isCaseBlind_lowerChar c, casedFollows_toLower, ih, toLower_eq_iff (d := '\u03a3') rfl,
      toLower_eq_iff (d := '\u0130') rfl]

/-- **The lower case of a text** does not depend on the case of its letters. -/
@[simp] theorem lower_toLower (s : List Char) : lower (s.map Char.toLower) = lower s :=
  lowerAfter_toLower false s

/-- **The upper case of a text** does not depend on the case of its letters. -/
@[simp] theorem upper_toLower (s : List Char) : upper (s.map Char.toLower) = upper s := by
  rw [upper, List.flatMap_map]
  exact congrArg s.flatMap isCaseBlind_upperOf.comp_toLower

/-- The characters of a text with small letters. -/
theorem toList_toLower (s : String) : s.toLower.toList = s.toList.map Char.toLower :=
  String.toList_map

/-- Texts differ only in the case of letters if they are the same with small letters. -/
theorem toLower_eq_toLower_iff {s t : String} :
    s.toLower = t.toLower ↔ s.toList.map Char.toLower = t.toList.map Char.toLower := by
  rw [← String.toList_inj, toList_toLower, toList_toLower]

end Reckoner.Text
