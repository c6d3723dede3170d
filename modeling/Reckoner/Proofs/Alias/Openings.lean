import Mathlib.Data.Bool.AllAny
import Reckoner.Proofs.Query.Phrases
import Reckoner.Proofs.Service.Assets
import Reckoner.Proofs.Text.Bytes
import Reckoner.Proofs.Text.Runs

/-!
# How keys begin

What a phrase begins with is what its key begins with, as long as it is no blank, no punctuation and
no word that is dropped.  No listed name begins as a number does; so a phrase that does has none of
their keys, and it names nothing except by the letters of a code.

* `Opens` — texts that begin with one of some characters.
* `IsPlain.opens_assetKey`, `IsSteady.opens_unitKey` — characters that stay at the head of a key.
* `unitKey_comma`, `assetKey_mark` — a comma or point before a number does not count.
* `GoesOn` — texts that begin as a number goes on: with a digit, or with a point or comma and one.
* `exists_cons_of_firstByte?` — the first character of a text, without a look at the others.
* `GoesOn.unit?_eq_none`, `GoesOn.scale?_eq_none`, `GoesOn.asset?_eq` — what such phrases name.
-/

namespace Reckoner.Alias

open Reckoner.Text Reckoner.Query

/-! ### The first character -/

/-- The text begins with one of these characters. -/
def Opens (chars s : List Char) : Prop := ∃ c r, s = c :: r ∧ c ∈ chars

/-- A text begins with its first character. -/
theorem opens_cons {chars : List Char} {c : Char} (h : c ∈ chars) (s : List Char) :
    Opens chars (c :: s) :=
  ⟨c, s, rfl, h⟩

/-- A step that changes each character by itself keeps the beginning if it
    keeps these characters. -/
theorem Opens.map {chars s : List Char} (h : Opens chars s) {f : Char → Char}
    (hf : ∀ c ∈ chars, f c = c) : Opens chars (s.map f) := by
  obtain ⟨c, s, rfl, hc⟩ := h
  rw [List.map_cons, hf c hc]
  exact opens_cons hc _

/-- No text begins with two characters. -/
theorem Opens.not_of_apart {chars chars' s : List Char} (h : Opens chars s)
    (hapart : ∀ c ∈ chars, c ∉ chars') : ¬ Opens chars' s := by
  rintro ⟨c', r', heq, hc'⟩
  obtain ⟨c, r, rfl, hc⟩ := h
  rw [(List.cons.inj heq).1] at hc
  exact hapart _ hc hc'

/-! ### Steps of a key -/

/-- A run at the head of a text, as it is changed. -/
theorem exists_mapRunsFrom (p : Char → Bool) (f : List Char → List Char) (run s : List Char) :
    ∃ more rest : List Char,
      mapRunsFrom p f run s = changedRun f (more.reverse ++ run) ++ rest := by
  induction s generalizing run with
  | nil => exact ⟨[], [], by simp [mapRunsFrom]⟩
  | cons c s ih =>
    rw [mapRunsFrom]
    split_ifs with hc
    · obtain ⟨more, rest, heq⟩ := ih (c :: run)
      exact ⟨c :: more, rest, by rw [heq]; simp⟩
    · exact ⟨[], _, rfl⟩

/-- What a run at the head of a text is changed to stands at the head. -/
theorem exists_mapRuns_cons {p : Char → Bool} {c : Char} (h : p c = true)
    (f : List Char → List Char) (s : List Char) :
    ∃ more rest, mapRuns p f (c :: s) = f (c :: more) ++ rest := by
  obtain ⟨more, rest, heq⟩ := exists_mapRunsFrom p f [c] s
  refine ⟨more, rest, ?_⟩
  rw [mapRuns, mapRunsFrom, if_pos h, heq]
  have hrun : more.reverse ++ [c] = (c :: more).reverse := by simp
  cases hcases : more.reverse ++ [c] with
  | nil => simp at hcases
  | cons d run =>
    rw [changedRun, ← hcases, hrun, List.reverse_reverse]

/-- Runs that are changed to texts with one of these characters at the head keep one there. -/
theorem Opens.mapRuns {chars s : List Char} (h : Opens chars s) {p : Char → Bool}
    {f : List Char → List Char} (hf : ∀ c ∈ chars, p c = true → ∀ w, Opens chars (f (c :: w))) :
    Opens chars (mapRuns p f s) := by
  obtain ⟨c, s, rfl, hc⟩ := h
  cases hp : p c with
  | false => exact mapRuns_cons_of_not hp s ▸ opens_cons hc _
  | true =>
    obtain ⟨more, rest, heq⟩ := exists_mapRuns_cons hp f s
    obtain ⟨d, r, hd, hmem⟩ := hf c hc hp more
    rw [heq, hd]
    exact opens_cons hmem _

/-- Characters that are no blanks and that have no other case. -/
structure IsPlain (chars : List Char) : Prop where
  not_blank : ∀ c ∈ chars, isBlank c = false
  lowerChar_eq : ∀ c ∈ chars, lowerChar c = c
  not_special : ∀ c ∈ chars, c ≠ '\u03a3' ∧ c ≠ '\u0130'

instance (chars : List Char) : Decidable (IsPlain chars) :=
  decidable_of_iff ((chars.all fun c => decide (isBlank c = false ∧ lowerChar c = c ∧
    c ≠ '\u03a3' ∧ c ≠ '\u0130')) = true) <| by
      rw [List.all_iff_forall_prop]
      exact ⟨fun h => ⟨fun c hc => (h c hc).1, fun c hc => (h c hc).2.1, fun c hc => (h c hc).2.2⟩,
        fun h c hc => ⟨h.not_blank c hc, h.lowerChar_eq c hc, h.not_special c hc⟩⟩

namespace IsPlain

variable {chars s : List Char}

/-- Trimming takes only blanks away. -/
theorem opens_trim (h : IsPlain chars) (hs : Opens chars s) : Opens chars (trim s) := by
  obtain ⟨c, s, rfl, hc⟩ := hs
  exact trim_cons (h.not_blank c hc) s ▸ opens_cons hc _

/-- Such characters are no capital letters, so that lowering keeps them. -/
theorem opens_lower (h : IsPlain chars) (hs : Opens chars s) : Opens chars (lower s) := by
  obtain ⟨c, s, rfl, hc⟩ := hs
  obtain ⟨hsigma, hdotted⟩ := h.not_special c hc
  rw [lower, lowerAfter, if_neg hsigma, if_neg hdotted, h.lowerChar_eq c hc]
  exact opens_cons hc _

/-- Only runs of blanks are squeezed. -/
theorem opens_squeeze (h : IsPlain chars) (hs : Opens chars s) : Opens chars (squeeze s) := by
  refine hs.mapRuns fun c hc hblank => ?_
  rw [h.not_blank c hc] at hblank
  cases hblank

/-- **Characters that are no punctuation stay at the head of the key of an asset.** -/
theorem opens_assetKey (h : IsPlain chars) (hchars : ∀ c ∈ chars, assetPunctuation c = c)
    (hs : Opens chars s) : Opens chars (assetKey s) := by
  have hmap := (h.opens_lower (h.opens_trim hs)).map hchars
  exact h.opens_trim (h.opens_squeeze hmap)

end IsPlain

/-- Characters that stay at the head of the key of a unit: besides, they have no other form and are
    no punctuation, and no word that begins with one of them is dropped. -/
structure IsSteady (chars : List Char) : Prop extends IsPlain chars where
  plainChar_eq : ∀ c ∈ chars, plainChar c = c
  unitPunctuation_eq : ∀ c ∈ chars, unitPunctuation c = c
  not_dropped : ∀ c ∈ chars, c ∉ ['^', '°', 'd']
  slash : 'p' ∈ chars → '/' ∈ chars

instance (chars : List Char) : Decidable (IsSteady chars) :=
  decidable_of_iff (IsPlain chars ∧ (chars.all fun c => decide (plainChar c = c ∧
    unitPunctuation c = c ∧ c ∉ ['^', '°', 'd'])) = true ∧ ('p' ∈ chars → '/' ∈ chars)) <| by
      rw [List.all_iff_forall_prop]
      exact ⟨fun h => ⟨h.1, fun c hc => (h.2.1 c hc).1, fun c hc => (h.2.1 c hc).2.1,
          fun c hc => (h.2.1 c hc).2.2, h.2.2⟩,
        fun h => ⟨h.toIsPlain, fun c hc => ⟨h.plainChar_eq c hc, h.unitPunctuation_eq c hc,
          h.not_dropped c hc⟩, h.slash⟩⟩

namespace IsSteady

variable {chars s : List Char}

/-- Characters that stay at the head of the key of a unit are none of those that are dropped. -/
theorem ne_of_dropped (h : IsSteady chars) {c d : Char} (hc : c ∈ chars)
    (hd : d ∈ ['^', '°', 'd']) : c ≠ d := by
  rintro rfl
  exact h.not_dropped _ hc hd

/-- Carets are dropped, and such a text begins with none. -/
theorem opens_dropCarets (h : IsSteady chars) (hs : Opens chars s) (digit : Char) :
    Opens chars (dropCarets digit s) := by
  obtain ⟨c, s, rfl, hc⟩ := hs
  have hcaret : c ≠ '^' := h.ne_of_dropped hc (by decide)
  rw [dropCarets, if_neg (fun hand => hcaret hand.1)]
  exact opens_cons hc _

/-- Degree signs are dropped, and no others. -/
theorem opens_filter_degree (h : IsSteady chars) (hs : Opens chars s) :
    Opens chars (s.filter (· ≠ '°')) := by
  obtain ⟨c, s, rfl, hc⟩ := hs
  have hdegree : c ≠ '°' := h.ne_of_dropped hc (by decide)
  rw [List.filter_cons_of_pos (by simpa using hdegree)]
  exact opens_cons hc _

/-- A word is written as itself, or with the same first letter, or as a slash. -/
theorem opens_unitWord (h : IsSteady chars) {c : Char} (hc : c ∈ chars) (w : List Char) :
    Opens chars (unitWord (c :: w)) := by
  have hdropped : c ≠ 'd' := h.ne_of_dropped hc (by decide)
  have hfirst : ∀ {word : List Char}, c :: w = word → c ∈ word.head? := by
    rintro _ rfl
    rfl
  unfold unitWord
  -- Words for degrees begin with `d`; squares and cubes keep their first letter; `per` is a slash.
  split_ifs with hdegree hsquare hcubic hper
  · obtain hdegree | hdegree := hdegree
    · exact absurd (Option.mem_some.mp (hfirst hdegree)) hdropped.symm
    · exact absurd (Option.mem_some.mp (hfirst hdegree)) hdropped.symm
  · obtain rfl := Option.mem_some.mp (hfirst hsquare)
    exact opens_cons hc _
  · obtain rfl := Option.mem_some.mp (hfirst hcubic)
    exact opens_cons hc _
  · obtain rfl := Option.mem_some.mp (hfirst hper)
    exact opens_cons (h.slash hc) _
  · exact opens_cons hc _

/-- Blanks are dropped around slashes.  A slash stays, and nothing else is changed. -/
theorem opens_tightenSlashes (h : IsSteady chars) (hs : Opens chars s) :
    Opens chars (tightenSlashes s) := by
  refine hs.mapRuns fun c hc hslash w => ?_
  rw [isSlashOrBlank, h.not_blank c hc, Bool.or_false, beq_iff_eq] at hslash
  subst hslash
  rw [if_pos List.mem_cons_self]
  exact opens_cons hc _

/-- Only blanks before an exponent are dropped. -/
theorem opens_joinExponents (h : IsSteady chars) (hs : Opens chars s) :
    Opens chars (joinExponents s) := by
  obtain ⟨c, s, rfl, hc⟩ := hs
  rw [joinExponents, joinExponentsFrom, if_neg (by simp [h.not_blank c hc])]
  exact opens_cons hc _

end IsSteady

/-! ### Keys -/

/-- The key of the name of a unit before the blanks in it are put in order. -/
def unitForm (s : List Char) : List Char :=
  (tightenSlashes (mapWords unitWord ((dropCarets '3' (dropCarets '2'
    ((lower (trim s)).map plainChar))).filter (· ≠ '°')))).map unitPunctuation

/-- The last steps of a key put the exponents and the blanks in order. -/
theorem unitKey_eq (s : List Char) : unitKey s = trim (squeeze (joinExponents (unitForm s))) := rfl

namespace IsSteady

variable {chars s : List Char}

/-- **Every step before that keeps such characters** at the head of the text. -/
theorem opens_unitForm (h : IsSteady chars) (hs : Opens chars s) : Opens chars (unitForm s) := by
  have hlower := h.opens_lower (h.opens_trim hs)
  have hcarets := h.opens_dropCarets (h.opens_dropCarets (hlower.map h.plainChar_eq) '2') '3'
  have hfiltered := h.opens_filter_degree hcarets
  have hwords := hfiltered.mapRuns (p := isWordChar) fun c hc _ w => h.opens_unitWord hc w
  exact (h.opens_tightenSlashes hwords).map h.unitPunctuation_eq

/-- **Such characters stay at the head of the key of a unit.** -/
theorem opens_unitKey (h : IsSteady chars) (hs : Opens chars s) : Opens chars (unitKey s) :=
  h.opens_trim (h.opens_squeeze (h.opens_joinExponents (h.opens_unitForm hs)))

/-- **Characters at the head of the key of a unit stay there** in that of a temperature scale. -/
theorem opens_scaleKey (h : IsSteady chars) (hs : Opens chars (unitKey s)) :
    Opens chars (scaleKey s) := by
  have hwords := hs.mapRuns (p := isWordChar) (f := scaleWord) fun c hc _ w => by
    unfold scaleWord
    split_ifs with hdeg
    · obtain rfl : c = 'd' := (List.cons.inj hdeg).1
      exact absurd (by decide) (h.not_dropped _ hc)
    · exact opens_cons hc w
  exact h.opens_trim (h.opens_squeeze hwords)

end IsSteady

/-- The digits. -/
def digitHeads : List Char := ['0', '1', '2', '3', '4', '5', '6', '7', '8', '9']

/-- What stands at the head of a number: a digit or a point. -/
def numberHeads : List Char := digitHeads ++ ['.']

/-- Digits are no blanks and have no case. -/
theorem isPlain_digitHeads : IsPlain digitHeads := by decide

/-- Digits and points stay at the head of the key of a unit. -/
theorem isSteady_numberHeads : IsSteady numberHeads := by decide

/-- Small letters other than `d`, and the slash: what stands at the head of the names of units, with
    one exception. -/
def unitHeads : List Char :=
  ['a', 'b', 'c', 'e', 'f', 'g', 'h', 'i', 'j', 'k', 'l', 'm', 'n', 'o', 'p', 'q', 'r', 's', 't',
   'u', 'v', 'w', 'x', 'y', 'z', '/']

/-- So do these letters; `d` is left out because words for degrees are dropped. -/
theorem isSteady_unitHeads : IsSteady unitHeads := by decide

/-- Small letters and currency symbols: what stands at the head of the names of assets. -/
def assetHeads : List Char := 'd' :: unitHeads ++ currencySymbols

/-- Currency symbols have no case, either. -/
theorem isPlain_assetHeads : IsPlain assetHeads := by decide

/-! ### A comma or point before a number -/

/-- Commas and points are no blanks. -/
theorem isBlank_of_mark {mark : Char} (h : mark ∈ [',', '.']) : isBlank mark = false := by
  have hall : ∀ c ∈ [',', '.'], isBlank c = false := List.all_iff_forall_prop.mp (by decide)
  exact hall mark h

/-- A comma or a point has no case, and it does not count as a letter before what follows. -/
theorem lower_mark {mark : Char} (h : mark ∈ [',', '.']) (s : List Char) :
    lower (mark :: s) = mark :: lower s := by
  have hplain : IsPlain [',', '.'] := by decide
  have hcased : ∀ c ∈ [',', '.'], (if isCaseIgnorable c then false else isCased c) = false :=
    List.all_iff_forall_prop.mp (by decide)
  obtain ⟨hsigma, hdotted⟩ := hplain.not_special mark h
  rw [lower, lowerAfter, if_neg hsigma, if_neg hdotted, hplain.lowerChar_eq mark h, hcased mark h]
  rfl

namespace IsPlain

variable {chars s : List Char}

/-- Before such characters nothing is trimmed behind another character. -/
theorem trim_cons (h : IsPlain chars) (hs : Opens chars s) {c : Char} (hc : isBlank c = false) :
    trim (c :: s) = c :: trim s := by
  obtain ⟨d, r, rfl, hd⟩ := hs
  have hblank := h.not_blank d hd
  rw [Text.trim_cons hc, Text.trim_cons hblank, trimEnd_cons hblank]

/-- A blank that stands before such characters is trimmed. -/
theorem trim_squeeze_space (h : IsPlain chars) (hs : Opens chars s) :
    trim (squeeze (' ' :: s)) = trim (squeeze s) := by
  obtain ⟨d, r, rfl, hd⟩ := hs
  have hblank := h.not_blank d hd
  have hspace : squeeze (' ' :: d :: r) = ' ' :: squeeze (d :: r) := by
    rw [squeeze, squeeze, mapRuns_cons_of_not hblank, mapRuns, mapRunsFrom, if_pos (by decide),
      mapRunsFrom, if_neg (by simp [hblank])]
    rfl
  rw [hspace, trim, trim, trimStart, List.dropWhile_cons_of_pos (by decide), ← trimStart]

end IsPlain

/-- A comma before a number becomes a blank and changes nothing else. -/
theorem unitForm_comma {s : List Char} (hs : Opens numberHeads s) :
    unitForm (',' :: s) = ' ' :: unitForm s := by
  have hplain : plainChar ',' = ',' := by decide
  have hcarets : ∀ (digit : Char) (t : List Char),
      dropCarets digit (',' :: t) = ',' :: dropCarets digit t := fun _ _ => by
    rw [dropCarets, if_neg (by simp)]
  rw [unitForm, isSteady_numberHeads.trim_cons hs (by decide), lower_mark (by decide),
    List.map_cons, hplain, hcarets, hcarets, List.filter_cons_of_pos (by decide), mapWords,
    mapRuns_cons_of_not (by decide), tightenSlashes, mapRuns_cons_of_not (by decide)]
  rfl

/-- **A comma before a number does not count** in the key of a unit. -/
theorem unitKey_comma {s : List Char} (hs : Opens numberHeads s) :
    unitKey (',' :: s) = unitKey s := by
  have hjoined : ∀ t, joinExponents (' ' :: t) = ' ' :: joinExponents t := fun _ => rfl
  have hopens := isSteady_numberHeads.opens_joinExponents (isSteady_numberHeads.opens_unitForm hs)
  rw [unitKey_eq, unitForm_comma hs, hjoined, isSteady_numberHeads.trim_squeeze_space hopens,
    ← unitKey_eq]

/-- **A comma or point before digits does not count** in the key of an asset. -/
theorem assetKey_mark {mark : Char} (h : mark ∈ [',', '.']) {s : List Char}
    (hs : Opens digitHeads s) : assetKey (mark :: s) = assetKey s := by
  have hspace : ∀ c ∈ [',', '.'], assetPunctuation c = ' ' :=
    List.all_iff_forall_prop.mp (by decide)
  have hdigits : ∀ c ∈ digitHeads, assetPunctuation c = c := List.all_iff_forall_prop.mp (by decide)
  have hopens : Opens digitHeads ((lower (trim s)).map assetPunctuation) :=
    (isPlain_digitHeads.opens_lower (isPlain_digitHeads.opens_trim hs)).map hdigits
  rw [assetKey, isPlain_digitHeads.trim_cons hs (isBlank_of_mark h), lower_mark h, List.map_cons,
    hspace _ h, isPlain_digitHeads.trim_squeeze_space hopens, ← assetKey]

/-! ### Phrases that begin as a number goes on -/

/-- A text that begins as a number goes on: with a digit, or with a point or comma and a digit. -/
def GoesOn (s : List Char) : Prop :=
  Opens digitHeads s ∨ ∃ mark r, s = mark :: r ∧ mark ∈ [',', '.'] ∧ Opens digitHeads r

namespace GoesOn

variable {s : List Char}

/-- A text that begins with a digit begins as a number does. -/
theorem opens_numberHeads (h : Opens digitHeads s) : Opens numberHeads s := by
  obtain ⟨c, r, rfl, hc⟩ := h
  exact opens_cons (List.mem_append_left _ hc) r

/-- **The key of a unit begins as a number does** if the phrase goes on as one. -/
theorem opens_unitKey (h : GoesOn s) : Opens numberHeads (unitKey s) := by
  obtain h | ⟨mark, r, rfl, hmark, h⟩ := h
  · exact isSteady_numberHeads.opens_unitKey (opens_numberHeads h)
  · simp only [List.mem_cons, List.not_mem_nil, or_false] at hmark
    obtain rfl | rfl := hmark
    · rw [unitKey_comma (opens_numberHeads h)]
      exact isSteady_numberHeads.opens_unitKey (opens_numberHeads h)
    · exact isSteady_numberHeads.opens_unitKey (opens_cons (by decide) r)

/-- So does the key of a temperature scale. -/
theorem opens_scaleKey (h : GoesOn s) : Opens numberHeads (scaleKey s) :=
  isSteady_numberHeads.opens_scaleKey h.opens_unitKey

/-- **The key of an asset begins with a digit** if the phrase goes on as a number: a point before it
    is dropped as a comma is. -/
theorem opens_assetKey (h : GoesOn s) : Opens digitHeads (assetKey s) := by
  have hdigits : ∀ {t}, Opens digitHeads t → Opens digitHeads (assetKey t) :=
    isPlain_digitHeads.opens_assetKey (List.all_iff_forall_prop.mp (by decide))
  obtain h | ⟨mark, r, rfl, hmark, h⟩ := h
  · exact hdigits h
  · rw [assetKey_mark hmark h]
    exact hdigits h

end GoesOn

/-! ### The names of the tables -/

/-- Whether a text begins with one of these characters. -/
def opens (chars s : List Char) : Bool := s.head?.any (· ∈ chars)

/-- The test says whether a text begins so. -/
theorem opens_iff {chars s : List Char} : opens chars s = true ↔ Opens chars s := by
  cases s with
  | nil => simp [opens, Opens]
  | cons c s => simp [opens, Opens]

/-- The first byte of a text. -/
def firstByte? (s : String) : Option UInt8 := s.toByteArray.data.toList.head?

/-- The first byte of a text is the first byte of its first character. -/
theorem firstByte?_ofList_cons (c : Char) (r : List Char) :
    firstByte? (String.ofList (c :: r)) = (String.utf8EncodeChar c).head? := by
  show (bytesOf (String.ofList (c :: r))).head? = _
  rw [bytesOf_ofList_cons, List.head?_append_of_ne_nil _ String.utf8EncodeChar_ne_nil]

/-- A byte below 128 at the head of a text is its first character. -/
theorem exists_cons_of_firstByte? {s : String} {b : UInt8} (h : firstByte? s = some b)
    (hb : b.toNat < 128) : ∃ c r, s.toList = c :: r ∧ c.toNat = b.toNat := by
  rw [← String.ofList_toList (s := s)] at h
  cases hs : s.toList with
  | nil =>
    rw [hs] at h
    cases h
  | cons c r =>
    rw [hs, firstByte?_ofList_cons] at h
    exact ⟨c, r, rfl, (utf8EncodeChar_eq_singleton h hb).2⟩

/-- Whether the first byte of a text is one of these characters, which takes no look at the rest. -/
def opensAt (chars : List Char) (s : String) : Bool :=
  (firstByte? s).any fun b => chars.any fun c => c.toNat < 128 && c.toNat == b.toNat

/-- The first byte shows how a text begins, because these characters have only one byte. -/
theorem opens_of_opensAt {chars : List Char} {s : String} (h : opensAt chars s = true) :
    Opens chars s.toList := by
  obtain ⟨b, hb, hchars⟩ := (Option.any_eq_true _ _).mp h
  obtain ⟨c, hc, hcode⟩ := List.any_eq_true.mp hchars
  simp only [Bool.and_eq_true, decide_eq_true_eq, beq_iff_eq] at hcode
  obtain ⟨d, r, hs, hd⟩ := exists_cons_of_firstByte? hb (hcode.2 ▸ hcode.1)
  rw [hs, Char.toNat_inj.mp (hd.trans hcode.2.symm)]
  exact opens_cons hc r

/-- How the names of the tables begin, or else their keys. -/
theorem heads_of_names :
    (unitNames.all fun entry =>
      opensAt unitHeads entry.1 || !opens numberHeads (unitKey (charsOf entry.1))) = true ∧
    (scaleNames.all fun entry =>
      opensAt unitHeads entry.1 || !opens numberHeads (scaleKey (charsOf entry.1))) = true ∧
    (assetNames.all fun entry =>
      opensAt assetHeads entry.1 || opens assetHeads (charsOf entry.1)) = true := by
  decide +kernel

/-- Small letters stand at no head of a number. -/
theorem not_opens_numberHeads {s : List Char} (h : Opens unitHeads s) : ¬ Opens numberHeads s :=
  h.not_of_apart (List.all_iff_forall_prop.mp (by decide))

/-- No key of a unit begins as a number does. -/
theorem not_opens_unitKey : ∀ entry ∈ unitNames, ¬ Opens numberHeads (unitKey entry.1.toList) := by
  intro entry hentry
  obtain hhead | hkey := (Bool.or_eq_true _ _).mp (List.all_eq_true.mp heads_of_names.1 _ hentry)
  · exact not_opens_numberHeads (isSteady_unitHeads.opens_unitKey (opens_of_opensAt hhead))
  · rw [charsOf_eq, Bool.not_eq_true'] at hkey
    exact fun hopens => absurd (opens_iff.mpr hopens) (by rw [hkey]; decide)

/-- No key of a temperature scale begins as a number does. -/
theorem not_opens_scaleKey :
    ∀ entry ∈ scaleNames, ¬ Opens numberHeads (scaleKey entry.1.toList) := by
  intro entry hentry
  obtain hhead | hkey := (Bool.or_eq_true _ _).mp (List.all_eq_true.mp heads_of_names.2.1 _ hentry)
  · have hunit := isSteady_unitHeads.opens_unitKey (opens_of_opensAt hhead)
    exact not_opens_numberHeads (isSteady_unitHeads.opens_scaleKey hunit)
  · rw [charsOf_eq, Bool.not_eq_true'] at hkey
    exact fun hopens => absurd (opens_iff.mpr hopens) (by rw [hkey]; decide)

/-- No key of an asset begins with a digit. -/
theorem not_opens_assetKey :
    ∀ entry ∈ assetNames, ¬ Opens digitHeads (assetKey entry.1.toList) := by
  have hapart : ∀ c ∈ assetHeads, c ∉ digitHeads := List.all_iff_forall_prop.mp (by decide)
  have hpunctuation : ∀ c ∈ assetHeads, assetPunctuation c = c :=
    List.all_iff_forall_prop.mp (by decide)
  intro entry hentry
  have hhead := List.all_eq_true.mp heads_of_names.2.2 _ hentry
  rw [charsOf_eq, Bool.or_eq_true] at hhead
  have hhead : Opens assetHeads entry.1.toList := hhead.elim opens_of_opensAt opens_iff.mp
  exact (isPlain_assetHeads.opens_assetKey hpunctuation hhead).not_of_apart hapart

/-- A table has nothing under a key that is not the key of a name. -/
theorem lookup_tableOf_eq_none {α : Type} {key : List Char → List Char} {names : List (String × α)}
    {P : List Char → Prop} (hnames : ∀ entry ∈ names, ¬ P (key entry.1.toList)) {k : List Char}
    (hk : P k) : (tableOf key names).lookup (String.ofList k) = none := by
  refine Option.eq_none_iff_forall_ne_some.mpr fun v hv => ?_
  obtain ⟨name, hname, hkey⟩ := exists_of_lookup_tableOf hv
  exact hnames _ hname (String.ofList_injective hkey ▸ hk)

namespace GoesOn

variable {phrase : String}

/-- **A phrase that begins as a number goes on names no unit.** -/
theorem unit?_eq_none (h : GoesOn phrase.toList) : unit? phrase = none :=
  lookup_tableOf_eq_none not_opens_unitKey h.opens_unitKey

/-- **A phrase that begins as a number goes on names no temperature scale.** -/
theorem scale?_eq_none (h : GoesOn phrase.toList) : scale? phrase = none :=
  lookup_tableOf_eq_none not_opens_scaleKey h.opens_scaleKey

/-- **A phrase that begins as a number goes on is no listed name of an asset.** -/
theorem lookup_assets (h : GoesOn phrase.toList) :
    assets.lookup (String.ofList (assetKey phrase.toList)) = none :=
  lookup_tableOf_eq_none not_opens_assetKey h.opens_assetKey

/-- Such a phrase names at most the asset whose code its letters are. -/
theorem asset?_eq (h : GoesOn phrase.toList) : asset? phrase = assetByCode? phrase.toList := by
  have hne : assetKey phrase.toList ≠ [] := by
    obtain ⟨c, r, heq, -⟩ := h.opens_assetKey
    rw [heq]
    exact List.cons_ne_nil c r
  rw [asset?, if_neg hne, h.lookup_assets, Option.none_or]

end GoesOn

end Reckoner.Alias
