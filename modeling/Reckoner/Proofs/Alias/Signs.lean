import Reckoner.Proofs.Query.Phrases
import Reckoner.Proofs.Service.Assets
import Reckoner.Proofs.Text.Bytes
import Reckoner.Proofs.Text.Runs

/-!
# Currency signs name no unit

The names of units and temperature scales are made of the first 256 characters, and so are their
keys.  A phrase whose key holds another character, such as the sign of a currency, names neither a
unit nor a scale.

* `IsLatin` — texts made of the first 256 characters.
* `IsLatin.unitKey`, `IsLatin.scaleKey` — the keys of such texts are such texts.
* `unit?_eq_none`, `scale?_eq_none` — phrases with other keys.
-/

namespace Reckoner.Alias

open Reckoner.Text

/-- A text made of the first 256 characters. -/
def IsLatin (s : List Char) : Prop := ∀ c ∈ s, c.toNat < 256

instance (s : List Char) : Decidable (IsLatin s) :=
  decidable_of_iff (s.all (·.toNat < 256) = true) (by simp [IsLatin])

namespace IsLatin

variable {s t : List Char}

/-- A part of such a text is one. -/
theorem of_subset (h : IsLatin s) (hts : t ⊆ s) : IsLatin t := fun c hc => h c (hts hc)

/-- Two such texts together are one. -/
theorem append (hs : IsLatin s) (ht : IsLatin t) : IsLatin (s ++ t) :=
  List.forall_mem_append.mpr ⟨hs, ht⟩

/-- Such a character in front of such a text is. -/
theorem cons {c : Char} (hc : c.toNat < 256) (hs : IsLatin s) : IsLatin (c :: s) :=
  List.forall_mem_cons.mpr ⟨hc, hs⟩

/-- Changing characters one by one keeps such texts if it keeps such characters. -/
theorem map (h : IsLatin s) {f : Char → Char} (hf : ∀ c, c.toNat < 256 → (f c).toNat < 256) :
    IsLatin (s.map f) := by
  intro c hc
  obtain ⟨d, hd, rfl⟩ := List.mem_map.mp hc
  exact hf d (h d hd)

/-! ### Steps of a key -/

/-- Trimming takes characters away only. -/
theorem trim (h : IsLatin s) : IsLatin (trim s) := h.of_subset (Query.trim_subset s)

/-- The lower-case forms of the first 256 characters are among them. -/
theorem toNat_lowerChar_lt : ∀ n < 256, (lowerChar (Char.ofNat n)).toNat < 256 := by
  decide +kernel

/-- The lower case of these characters is among them. -/
theorem lowerAfter (h : IsLatin s) (casedBefore : Bool) : IsLatin (lowerAfter casedBefore s) := by
  induction s generalizing casedBefore with
  | nil => exact h
  | cons c s ih =>
    obtain ⟨hc, hs⟩ := List.forall_mem_cons.mp h
    have hrest := ih hs (if isCaseIgnorable c then casedBefore else isCased c)
    unfold Text.lowerAfter
    -- The two characters with a form of their own are not among the first ones.
    rw [if_neg, if_neg]
    · have hlower := toNat_lowerChar_lt c.toNat hc
      rw [Char.ofNat_toNat] at hlower
      exact cons hlower hrest
    · rintro rfl
      exact absurd hc (by decide)
    · rintro rfl
      exact absurd hc (by decide)

/-- A text whose runs are changed to such texts is such a text. -/
theorem mapRuns {p : Char → Bool} {f : List Char → List Char} (h : IsLatin s)
    (hf : ∀ w, IsLatin w → IsLatin (f w)) : IsLatin (mapRuns p f s) :=
  forall_mem_mapRuns h hf

/-- Dropping carets takes characters away only. -/
theorem dropCarets (h : IsLatin s) (digit : Char) : IsLatin (dropCarets digit s) := by
  induction s with
  | nil => exact h
  | cons c s ih =>
    obtain ⟨hc, hs⟩ := List.forall_mem_cons.mp h
    unfold Alias.dropCarets
    split
    · exact ih hs
    · exact cons hc (ih hs)

/-- So does joining exponents. -/
theorem joinExponentsFrom (h : IsLatin s) (afterLetter : Bool) :
    IsLatin (joinExponentsFrom afterLetter s) := by
  induction s generalizing afterLetter with
  | nil => exact h
  | cons c s ih =>
    obtain ⟨hc, hs⟩ := List.forall_mem_cons.mp h
    unfold Alias.joinExponentsFrom
    dsimp only
    split_ifs
    · exact ih hs _
    · exact cons hc (ih hs _)
    · exact cons hc (ih hs _)

/-- A word is replaced by a slash, by nothing or by a shorter word. -/
theorem unitWord (h : IsLatin s) : IsLatin (unitWord s) := by
  unfold Alias.unitWord
  split_ifs
  · decide
  · decide
  · decide
  · decide
  · exact h

/-! ### Keys -/

/-- **The key of such a text as the name of a unit is such a text.** -/
theorem unitKey (h : IsLatin s) : IsLatin (unitKey s) := by
  -- What other forms of characters and punctuation become are such characters.
  have hplain : ∀ c : Char, c.toNat < 256 → (plainChar c).toNat < 256 := by
    intro c hc
    unfold plainChar
    split_ifs <;> first | decide | exact hc
  have hpunctuation : ∀ c : Char, c.toNat < 256 → (unitPunctuation c).toNat < 256 := by
    intro c hc
    unfold unitPunctuation
    split_ifs <;> first | decide | exact hc
  have hspelled : IsLatin ((lower (Text.trim s)).map plainChar) := (h.trim.lowerAfter _).map hplain
  have hcarets := (hspelled.dropCarets '2').dropCarets '3'
  have hkept := hcarets.of_subset (List.filter_subset_self (p := (· ≠ '°')) _)
  have hwords := hkept.mapRuns (p := isWordChar) fun _ => unitWord
  have hslashes := hwords.mapRuns (p := isSlashOrBlank)
    (f := fun run => if '/' ∈ run then ['/'] else run) fun w hw => by
      split_ifs
      · decide
      · exact hw
  have hjoined := (hslashes.map hpunctuation).joinExponentsFrom false
  exact (hjoined.mapRuns fun _ _ => by decide).trim

@[inherit_doc unitKey]
theorem scaleKey (h : IsLatin s) : IsLatin (scaleKey s) := by
  have hwords := h.unitKey.mapRuns (p := isWordChar) (f := scaleWord) fun w hw => by
    unfold scaleWord
    split_ifs
    · decide
    · exact hw
  exact (hwords.mapRuns fun _ _ => by decide).trim

end IsLatin

/-! ### Phrases -/

/-- **The names of all units are such texts.** -/
theorem isLatin_measures : ∀ entry ∈ Measure.catalogue, ∀ name ∈ entry.2.aliases,
    IsLatin name.toList := by
  have hchars : ∀ entry ∈ Measure.catalogue, ∀ name ∈ entry.2.aliases, IsLatin (charsOf name) := by
    decide +kernel
  simpa only [charsOf_eq] using hchars

/-- So are the names of the temperature scales. -/
theorem isLatin_scales : ∀ scale ∈ Scale.all, ∀ name ∈ scale.aliases, IsLatin name.toList := by
  decide +kernel

/-- **A phrase with another character in its key names no unit.** -/
theorem unit?_eq_none {phrase : String} (h : ¬ IsLatin (unitKey phrase.toList)) :
    unit? phrase = none := by
  refine Option.eq_none_iff_forall_ne_some.mpr fun x hx => h ?_
  obtain ⟨name, hname, hkey⟩ := exists_of_lookup_tableOf hx
  obtain ⟨entry, hentry, hname⟩ := List.mem_flatMap.mp hname
  obtain ⟨name', hmem, hpair⟩ := List.mem_map.mp hname
  cases hpair
  rw [← String.ofList_injective hkey]
  exact (isLatin_measures _ hentry _ hmem).unitKey

@[inherit_doc unit?_eq_none]
theorem scale?_eq_none {phrase : String} (h : ¬ IsLatin (scaleKey phrase.toList)) :
    scale? phrase = none := by
  refine Option.eq_none_iff_forall_ne_some.mpr fun x hx => h ?_
  obtain ⟨name, hname, hkey⟩ := exists_of_lookup_tableOf hx
  obtain ⟨scale, hscale, hname⟩ := List.mem_flatMap.mp hname
  obtain ⟨name', hmem, hpair⟩ := List.mem_map.mp hname
  cases hpair
  rw [← String.ofList_injective hkey]
  exact (isLatin_scales _ hscale _ hmem).scaleKey

end Reckoner.Alias
