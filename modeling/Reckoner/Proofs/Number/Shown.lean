import Mathlib.Data.List.Basic
import Reckoner.Number.Display
import Reckoner.Proofs.Query.Grammar

/-!
# Finite numbers are shown as numerals

A finite float is shown in digits: grouped in threes with or without decimals, or with a power of
ten.  No word for infinity or for no number is ever part of what is shown of it.

    number    := '-'? magnitude
    magnitude := grouped | grouped '.' digits | digits '.' digits 'e' ('+' | '-') digits
    grouped   := digit{1,3} (',' digit digit digit)*

* `IsGrouped`, `IsMagnitude`, `IsShownNumber` — the texts of numbers that are shown.
* `isGrouped_grouped` — digits are grouped in threes from their end.
* `isMagnitude_fixedText` — digits with a point are shown as such a text.
* `isShownNumber_floatText`, `isShownNumber_fixedFloat` — every finite float is shown as a number.
* `display_of_isFinite` — showing a finite float does not fail.
-/

namespace Reckoner.Number

open Reckoner.Query (IsRun)

/-! ### The grammar of shown numbers -/

/-- Digits in groups of three with commas between them.  The first group may be shorter. -/
def IsGrouped (s : List Char) : Prop :=
  ∃ (first : List Char) (rest : List (List Char)), s = first ++ rest.flatMap (',' :: ·) ∧
    IsRun Char.isDigit first ∧ first.length ≤ 3 ∧
    ∀ group ∈ rest, IsRun Char.isDigit group ∧ group.length = 3

/-- The text of a number without its sign. -/
inductive IsMagnitude : List Char → Prop where
  | whole {s : List Char} : IsGrouped s → IsMagnitude s
  | decimal {s ds : List Char} : IsGrouped s → IsRun Char.isDigit ds → IsMagnitude (s ++ '.' :: ds)
  | scientific {s ds es : List Char} {sign : Char} : IsRun Char.isDigit s → IsRun Char.isDigit ds →
      sign = '+' ∨ sign = '-' → IsRun Char.isDigit es →
      IsMagnitude (s ++ '.' :: ds ++ 'e' :: sign :: es)

/-- The text of a number, with a minus sign if it is negative. -/
def IsShownNumber (s : List Char) : Prop := IsMagnitude s ∨ ∃ t, IsMagnitude t ∧ s = '-' :: t

/-- A digit is no space. -/
theorem ne_space_of_isDigit {c : Char} (h : c.isDigit = true) : c ≠ ' ' := by
  rintro rfl
  exact absurd h (by decide)

/-- Nothing in a grouped number is a space. -/
theorem IsGrouped.ne_space {s : List Char} (h : IsGrouped s) : ∀ c ∈ s, c ≠ ' ' := by
  obtain ⟨first, rest, rfl, hfirst, -, hrest⟩ := h
  refine List.forall_mem_append.mpr ⟨fun c hc => ne_space_of_isDigit (hfirst.2 c hc), ?_⟩
  intro c hc
  obtain ⟨group, hgroup, hc⟩ := List.mem_flatMap.mp hc
  obtain rfl | hc := List.mem_cons.mp hc
  · decide
  · exact ne_space_of_isDigit ((hrest group hgroup).1.2 c hc)

/-- Nor is anything in a magnitude. -/
theorem IsMagnitude.ne_space {s : List Char} (h : IsMagnitude s) : ∀ c ∈ s, c ≠ ' ' := by
  have hdigits : ∀ {ds : List Char}, IsRun Char.isDigit ds → ∀ c ∈ ds, c ≠ ' ' :=
    fun hds c hc => ne_space_of_isDigit (hds.2 c hc)
  cases h with
  | whole hs => exact hs.ne_space
  | decimal hs hds =>
    exact List.forall_mem_append.mpr
      ⟨hs.ne_space, List.forall_mem_cons.mpr ⟨by decide, hdigits hds⟩⟩
  | scientific hs hds hsign hes =>
    have hsign_ne : ∀ sign : Char, sign = '+' ∨ sign = '-' → sign ≠ ' ' := by
      rintro _ (rfl | rfl) <;> decide
    refine List.forall_mem_append.mpr ⟨List.forall_mem_append.mpr
      ⟨hdigits hs, List.forall_mem_cons.mpr ⟨by decide, hdigits hds⟩⟩, ?_⟩
    exact List.forall_mem_cons.mpr ⟨by decide,
      List.forall_mem_cons.mpr ⟨hsign_ne _ hsign, hdigits hes⟩⟩

/-- There is no space in a shown number. -/
theorem IsShownNumber.ne_space {s : List Char} (h : IsShownNumber s) : ∀ c ∈ s, c ≠ ' ' := by
  obtain h | ⟨t, h, rfl⟩ := h
  · exact h.ne_space
  · exact List.forall_mem_cons.mpr ⟨by decide, h.ne_space⟩

/-! ### Digits -/

/-- The digits of a whole number are digits, and there is at least one. -/
theorem isRun_natDigits (n : Nat) : IsRun Char.isDigit (natDigits n) :=
  ⟨Nat.toDigits_ne_nil, fun _ hc => Nat.isDigit_of_mem_toDigits (by decide) (by decide) hc⟩

/-- So are the last ones of them. -/
theorem isDigit_of_mem_lastDigits {width n : Nat} {c : Char} (h : c ∈ lastDigits width n) :
    c.isDigit = true := by
  induction width generalizing n with
  | zero => cases h
  | succ width ih =>
    rw [lastDigits] at h
    obtain h | h := List.mem_append.mp h
    · exact ih h
    · rw [List.mem_singleton.mp h, Nat.isDigit_digitChar, decide_eq_true_eq]
      exact Nat.mod_lt n (by decide)

/-- Zeros are put in front of the last digits where there are not enough. -/
theorem length_lastDigits (width n : Nat) : (lastDigits width n).length = width := by
  induction width generalizing n with
  | zero => rfl
  | succ width ih => rw [lastDigits, List.length_append, ih, List.length_singleton]

/-- **Digits are grouped in threes from their end.** -/
theorem isGrouped_grouped {ds : List Char} (h : IsRun Char.isDigit ds) :
    IsGrouped (grouped ds) := by
  -- The first group is as long as it has to be for the others to have three digits.
  suffices hfirst : ∃ (first : List Char) (rest : List (List Char)),
      grouped ds = first ++ rest.flatMap (',' :: ·) ∧ IsRun Char.isDigit first ∧
        first.length ≤ 3 ∧ first.length % 3 = ds.length % 3 ∧
        ∀ group ∈ rest, IsRun Char.isDigit group ∧ group.length = 3 by
    obtain ⟨first, rest, heq, hrun, hle, -, hrest⟩ := hfirst
    exact ⟨first, rest, heq, hrun, hle, hrest⟩
  obtain ⟨hne, hall⟩ := h
  induction ds with
  | nil => exact absurd rfl hne
  | cons d ds ih =>
    obtain ⟨hd, hall⟩ := List.forall_mem_cons.mp hall
    by_cases hnil : ds = []
    · subst hnil
      exact ⟨[d], [], rfl, .singleton hd, by simp, rfl, by simp⟩
    obtain ⟨first, rest, heq, hrun, hle, hmod, hrest⟩ := ih hnil hall
    have hpos := List.length_pos_iff.mpr hrun.1
    by_cases hgroup : ds.length % 3 = 0
    · have hthree : first.length = 3 := by omega
      have hstep : grouped (d :: ds) = d :: ',' :: grouped ds := if_pos ⟨hnil, hgroup⟩
      refine ⟨[d], first :: rest, ?_, .singleton hd, by simp, ?_, ?_⟩
      · rw [hstep, heq]
        rfl
      · rw [List.length_singleton, List.length_cons]
        omega
      · exact List.forall_mem_cons.mpr ⟨⟨hrun, hthree⟩, hrest⟩
    · have hstep : grouped (d :: ds) = d :: grouped ds := if_neg fun hand => hgroup hand.2
      refine ⟨d :: first, rest, ?_, .cons hd hrun.2, ?_, ?_, hrest⟩
      · rw [hstep, heq]
        rfl
      · simp only [List.length_cons]
        omega
      · simp only [List.length_cons]
        omega

/-- The digits of a whole number are grouped in threes. -/
theorem isGrouped_natDigits (n : Nat) : IsGrouped (grouped (natDigits n)) :=
  isGrouped_grouped (isRun_natDigits n)

/-! ### Numbers -/

/-- A number is shown with a sign or without one. -/
theorem IsMagnitude.signed {s : List Char} (h : IsMagnitude s) (minus : Prop) [Decidable minus] :
    IsShownNumber (if minus then '-' :: s else s) := by
  split
  · exact .inr ⟨s, h, rfl⟩
  · exact .inl h

/-- **Whole numbers are shown as numbers.** -/
theorem isShownNumber_groupedInt (n : Int) : IsShownNumber (groupedInt n) :=
  (IsMagnitude.whole (isGrouped_natDigits n.natAbs)).signed (n < 0)

/-- The digits before the point are grouped, and those behind it are not. -/
theorem isMagnitude_fixedText (places units : Nat) : IsMagnitude (fixedText places units) := by
  have hwhole := isGrouped_natDigits (units / Nat.pow 10 places)
  unfold fixedText
  dsimp only
  split
  · exact .whole hwhole
  · next hne =>
    -- What is left of the decimals are digits.
    refine .decimal hwhole ⟨hne, fun c hc => ?_⟩
    have hmem : c ∈ (lastDigits places units).reverse :=
      (List.dropWhile_suffix _).subset (List.mem_reverse.mp hc)
    exact isDigit_of_mem_lastDigits (List.mem_reverse.mp hmem)

/-- Multiples of a power of ten are shown as numbers. -/
theorem isShownNumber_fixed (places : Nat) (b : Binary) : IsShownNumber (fixed places b) :=
  (isMagnitude_fixedText places (b.scaled places)).signed _

/-- So are numbers with a power of ten, if there are digits behind the point. -/
theorem isShownNumber_scientific {places : Nat} (hplaces : places ≠ 0) (b : Binary) :
    IsShownNumber (scientific places b) := by
  have hdigits : ∀ n, IsRun Char.isDigit (lastDigits places n) := by
    intro n
    refine ⟨List.ne_nil_of_length_pos ?_, fun c hc => isDigit_of_mem_lastDigits hc⟩
    rw [length_lastDigits]
    omega
  have hsign : ∀ e : Int,
      (if e < 0 then '-' else '+') = '+' ∨ (if e < 0 then '-' else '+') = '-' := by
    intro e
    split
    · exact .inr rfl
    · exact .inl rfl
  exact (IsMagnitude.scientific (isRun_natDigits _) (hdigits _) (hsign _)
    (isRun_natDigits _)).signed _

/-! ### Finite floats -/

/-- A finite float has an exact value. -/
theorem exists_ofFloat?_of_isFinite {x : Float} (h : x.isFinite = true) :
    ∃ b, Binary.ofFloat? x = some b := by
  unfold Float.isFinite Float.Model.isFinite at h
  unfold Binary.ofFloat?
  cases hx : x.toModel.unpack with
  | finite sign mantissa exponent _ => exact ⟨_, rfl⟩
  | zero sign => exact ⟨_, rfl⟩
  | infinity sign =>
    rw [hx] at h
    cases h
  | notANumber =>
    rw [hx] at h
    cases h

/-- It is a number. -/
theorem isNaN_eq_false_of_isFinite {x : Float} (h : x.isFinite = true) : x.isNaN = false := by
  unfold Float.isFinite Float.Model.isFinite at h
  unfold Float.isNaN Float.Model.isNaN
  cases hx : x.toModel.unpack with
  | finite | zero | infinity => rfl
  | notANumber =>
    rw [hx] at h
    cases h

/-- **A finite float with decimals is shown as a number.** -/
theorem isShownNumber_fixedFloat {x : Float} (h : x.isFinite = true) (places : Nat) :
    IsShownNumber (fixedFloat places x) := by
  obtain ⟨b, hb⟩ := exists_ofFloat?_of_isFinite h
  unfold fixedFloat
  rw [hb]
  exact isShownNumber_fixed places b

/-- **Every finite float that is not near a whole number is shown as a number**, whatever its size
    is. -/
theorem isShownNumber_decimalText {x : Float} (h : x.isFinite = true) :
    IsShownNumber (decimalText x) := by
  obtain ⟨b, hb⟩ := exists_ofFloat?_of_isFinite h
  unfold decimalText
  split_ifs
  · exact isShownNumber_fixedFloat h 2
  · exact isShownNumber_fixedFloat h 6
  · exact isShownNumber_fixedFloat h 8
  · unfold scientificFloat
    rw [hb]
    exact isShownNumber_scientific (by decide) b

/-- **A finite float is shown as a number.** -/
theorem isShownNumber_floatText {x : Float} (h : x.isFinite = true) :
    IsShownNumber (floatText x) := by
  unfold floatText
  split
  · split_ifs
    · exact isShownNumber_groupedInt _
    · exact isShownNumber_decimalText h
  · exact isShownNumber_decimalText h

/-- **Showing a finite float does not fail.** -/
theorem display_of_isFinite {x : Float} (h : x.isFinite = true) :
    display (.real x) = .ok (showFloat x) := by
  have hnot : ¬ x.isNaN = true := by
    rw [isNaN_eq_false_of_isFinite h]
    decide
  exact if_neg hnot

end Reckoner.Number
