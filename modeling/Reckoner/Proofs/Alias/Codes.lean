import Reckoner.Proofs.Alias.Openings
import Reckoner.Proofs.Text.Bytes
import Reckoner.Proofs.Text.Lowered

/-!
# Codes and keys

An asset is found by the key of a phrase, which is in lower case, or by the letters of its code,
which are in upper case.  The two cases of a text do not have to agree: the Kelvin sign has the
small letter `k`, but is no form of the capital one, and some characters become capital letters
only in upper case.  Still no phrase has the key of one asset and the code of another one.

* `keyCodes` — what the characters of the key of an asset are made from.
* `keep`, `keep_upper` — the capital letters of such a text, other than `K`, are its small ones.
* `keep_codeLetters` — the letters of a phrase are those of its key, the letter `K` aside.
* `spell_of_names` — no name of an asset has the letters of the code of another one.
* `asset?_follows_code` — what a phrase with the letters of a code names.
-/

namespace Reckoner.Alias

open Reckoner.Text Reckoner.Query

/-! ### Letters in both cases -/

/-- A capital letter that its small letter comes from alone.  The letter `k` comes from the Kelvin
    sign, too. -/
def isKept (c : Char) : Bool := c.isUpper && c != 'K'

/-- The capital letters of a text, without `K`. -/
def keep (s : List Char) : List Char := s.filter isKept

/-- The characters of the names of assets. -/
def isNameChar (c : Char) : Bool := c.isLower || c == ' ' || currencySymbols.contains c

/-- The marks that become blanks in a key. -/
def keyMarks : List Char := ['(', ')', ',', '.', '-']

/-- The characters that become blanks or characters of a key. -/
def keyCodes : List Nat :=
  codesOf blankRanges ++ (keyMarks ++ currencySymbols).map Char.toNat ++ List.range' 97 26

/-- The characters of names are among those of keys. -/
theorem toNat_mem_of_isNameChar {c : Char} (h : isNameChar c = true) : c.toNat ∈ keyCodes := by
  unfold isNameChar at h
  unfold keyCodes
  rw [Bool.or_eq_true, Bool.or_eq_true, List.contains_iff_mem, beq_iff_eq] at h
  rw [List.mem_append, List.mem_append, List.map_append, List.mem_append]
  obtain (hlower | rfl) | hsign := h
  · have hcode := isLower_iff.mp hlower
    exact .inr (List.mem_range'_1.mpr ⟨hcode.1, Nat.lt_succ_of_le hcode.2⟩)
  · exact .inl (.inl (mem_codesOf (by decide)))
  · exact .inl (.inr (.inr (List.mem_map_of_mem hsign)))

/-- These characters are in lower case, and every character with one of them for its lower case has
    the same letters in upper case. -/
theorem forms_of_keyCodes : (keyCodes.all fun m =>
    decide (m ≠ 0 ∧ m ≠ 0x3a3 ∧ m ≠ 0x130 ∧ lowerChar (Char.ofNat m) = Char.ofNat m) &&
    (m :: preimages lowerRuns m).all fun n =>
      keep (upperOf (Char.ofNat n)) == keep [(Char.ofNat m).toUpper]) = true := by
  decide +kernel

/-- The characters of keys are in lower case. -/
theorem isLowered_of_mem_keyCodes {c : Char} (h : c.toNat ∈ keyCodes) : IsLowered c := by
  have hforms := List.all_eq_true.mp forms_of_keyCodes _ h
  obtain ⟨-, hsigma, hdotted, hsame⟩ := of_decide_eq_true ((Bool.and_eq_true _ _).mp hforms).1
  rw [Char.ofNat_toNat] at hsame
  refine ⟨hsame, ?_, ?_⟩
  · rintro rfl
    exact hsigma rfl
  · rintro rfl
    exact hdotted rfl

/-- A character with a character of a key for its lower case has the letter of that
    in upper case. -/
theorem keep_upperOf {c d : Char} (h : lowerChar c = d) (hd : d.toNat ∈ keyCodes) :
    keep (upperOf c) = keep [d.toUpper] := by
  have hall := List.all_eq_true.mp forms_of_keyCodes _ hd
  obtain ⟨hforms, hall⟩ := (Bool.and_eq_true _ _).mp hall
  have hne := (of_decide_eq_true hforms).1
  have hpre := List.all_eq_true.mp hall _ (toNat_mem_preimages h hne)
  rw [Char.ofNat_toNat, Char.ofNat_toNat] at hpre
  exact eq_of_beq hpre

/-- The letters of a text are those of its parts. -/
theorem keep_append (s t : List Char) : keep (s ++ t) = keep s ++ keep t := List.filter_append ..

/-- The first character of a text has its letters before those of the rest. -/
theorem keep_cons (c : Char) (s : List Char) : keep (c :: s) = keep [c] ++ keep s :=
  keep_append [c] s

/-- The letters of a text in upper case are those of the text in lower case, whatever stands before
    it. -/
theorem keep_upperAfter {casedBefore : Bool} {s : List Char}
    (h : ∀ d ∈ lowerAfter casedBefore s, d.toNat ∈ keyCodes) :
    keep (upper s) = keep ((lowerAfter casedBefore s).map Char.toUpper) := by
  induction s generalizing casedBefore with
  | nil => rfl
  | cons c s ih =>
    rw [lowerAfter] at h ⊢
    generalize (if isCaseIgnorable c then casedBefore else isCased c) = next at h ⊢
    -- The characters with special forms are in no key.
    split_ifs at h ⊢ with hsigma hend hdotted
    · exact absurd (h _ List.mem_cons_self) (by decide)
    · exact absurd (h _ List.mem_cons_self) (by decide)
    · exact absurd (h '\u0307' (by simp)) (by decide)
    · obtain ⟨hfirst, hrest⟩ := List.forall_mem_cons.mp h
      have hletters := keep_upperOf rfl hfirst
      rw [upper, List.flatMap_cons, ← upper, keep_append, ih hrest, hletters, List.map_cons,
        keep_cons _ ((lowerAfter next s).map _)]

/-- **The letters of a text in upper case** are those of the text in lower case. -/
theorem keep_upper {s : List Char} (h : ∀ d ∈ lower s, d.toNat ∈ keyCodes) :
    keep (upper s) = keep ((lower s).map Char.toUpper) :=
  keep_upperAfter h

/-! ### Letters of a key -/

section Filter

variable {p : Char → Bool} (hp : ∀ c, p c = true → isBlank c = false)

include hp

/-- The blanks at the head of a text do not count. -/
theorem filter_dropWhile_isBlank (s : List Char) : (s.dropWhile isBlank).filter p = s.filter p := by
  induction s with
  | nil => rfl
  | cons c s ih =>
    cases hblank : isBlank c with
    | false => rw [List.dropWhile_cons_of_neg (by simp [hblank])]
    | true =>
      have hnot : ¬ p c = true := fun hc => by
        rw [hp c hc] at hblank
        cases hblank
      rw [List.dropWhile_cons_of_pos hblank, ih, List.filter_cons_of_neg hnot]

/-- The blanks at the ends of a text do not count. -/
theorem filter_trim (s : List Char) : (trim s).filter p = s.filter p := by
  rw [trim, trimEnd, trimStart, List.filter_reverse, filter_dropWhile_isBlank hp,
    ← List.filter_reverse, List.reverse_reverse, filter_dropWhile_isBlank hp]

/-- Nor do runs of blanks, one of which may be under way. -/
theorem filter_mapRunsFrom_isBlank {run : List Char} (hrun : ∀ c ∈ run, isBlank c = true)
    (s : List Char) :
    (mapRunsFrom isBlank (fun _ => [' ']) run s).filter p = s.filter p := by
  have hnone : ∀ c, isBlank c = true → ¬ p c = true := fun c hblank hc => by
    rw [hp c hc] at hblank
    cases hblank
  -- A run becomes a single space, which is a blank as well.
  have hchanged : ∀ run, (changedRun (fun _ => [' ']) run).filter p = [] := fun run => by
    cases run with
    | nil => rfl
    | cons c run => exact List.filter_cons_of_neg (hnone ' ' (by decide))
  induction s generalizing run with
  | nil => exact hchanged run
  | cons c s ih =>
    rw [mapRunsFrom]
    split_ifs with hblank
    · rw [ih (List.forall_mem_cons.mpr ⟨hblank, hrun⟩), List.filter_cons_of_neg (hnone c hblank)]
    · rw [List.filter_append, hchanged, List.nil_append, List.filter_cons, List.filter_cons,
        ih (by simp)]

/-- Runs of blanks do not count. -/
theorem filter_squeeze (s : List Char) : (squeeze s).filter p = s.filter p :=
  filter_mapRunsFrom_isBlank hp (by simp) s

/-- **Only marks are left to change** in the key of an asset if blanks do not count. -/
theorem filter_assetKey (s : List Char) :
    (assetKey s).filter p = ((lower (trim s)).map assetPunctuation).filter p := by
  rw [assetKey, filter_trim hp, filter_squeeze hp]

end Filter

/-- A mark becomes a blank. -/
theorem assetPunctuation_of_mem {c : Char} (h : c ∈ keyMarks) : assetPunctuation c = ' ' := if_pos h

/-- Nothing else is changed. -/
theorem assetPunctuation_of_not_mem {c : Char} (h : c ∉ keyMarks) : assetPunctuation c = c :=
  if_neg h

/-- Marks and blanks are no letters in either case. -/
theorem not_isKept_of_codes : ((codesOf blankRanges ++ keyMarks.map Char.toNat).all fun m =>
    !isKept (Char.ofNat m).toUpper) = true := by
  decide

/-- No mark and no blank has a capital letter that is kept. -/
theorem isKept_toUpper_of_mem {c : Char}
    (h : c.toNat ∈ codesOf blankRanges ++ keyMarks.map Char.toNat) : isKept c.toUpper = false := by
  have hall := List.all_eq_true.mp not_isKept_of_codes _ h
  rwa [Char.ofNat_toNat, Bool.not_eq_true'] at hall

/-- So a blank has none. -/
theorem isBlank_of_isKept_toUpper (c : Char) (h : (isKept ∘ Char.toUpper) c = true) :
    isBlank c = false := by
  by_contra hblank
  have hmem := mem_codesOf (eq_true_of_ne_false hblank)
  have hnot := isKept_toUpper_of_mem (List.mem_append_left _ hmem)
  rw [Function.comp_apply, hnot] at h
  cases h

/-- **The letters of a text are kept** when its marks become blanks. -/
theorem keep_map_assetPunctuation (s : List Char) :
    keep ((s.map assetPunctuation).map Char.toUpper) = keep (s.map Char.toUpper) := by
  induction s with
  | nil => rfl
  | cons c s ih =>
    have hfirst : keep [(assetPunctuation c).toUpper] = keep [c.toUpper] := by
      by_cases hmark : c ∈ keyMarks
      · have hnot := isKept_toUpper_of_mem (List.mem_append_right _ (List.mem_map_of_mem hmark))
        have hspace : keep [Char.toUpper ' '] = [] := by decide
        have hnone : keep [c.toUpper] = [] := List.filter_cons_of_neg (by simp [hnot])
        rw [assetPunctuation_of_mem hmark, hspace, hnone]
      · rw [assetPunctuation_of_not_mem hmark]
    rw [List.map_cons, List.map_cons, List.map_cons, keep_cons, keep_cons c.toUpper, ih, hfirst]

/-- **The letters of a key** are those of the phrase in lower case. -/
theorem keep_assetKey (s : List Char) :
    keep ((assetKey s).map Char.toUpper) = keep ((lower (trim s)).map Char.toUpper) := by
  rw [← keep_map_assetPunctuation (lower (trim s)), keep, keep, List.filter_map,
    filter_assetKey isBlank_of_isKept_toUpper, ← List.filter_map]

/-- Of the characters in lower case, only marks and blanks are not in the key. -/
theorem mem_assetKey_iff {s : List Char} {d : Char} (hblank : ¬ isBlank d = true) :
    d ∈ assetKey s ↔ d ∈ (lower (trim s)).map assetPunctuation := by
  have hfilter := filter_assetKey (p := fun c => !isBlank c) (by simp) s
  have hmem := congrArg (d ∈ ·) hfilter
  simpa [List.mem_filter, hblank] using hmem

/-- A key is made of such characters only if the phrase in lower case is. -/
theorem toNat_mem_of_assetKey {s : List Char} (h : ∀ c ∈ assetKey s, c.toNat ∈ keyCodes) :
    ∀ d ∈ lower (trim s), d.toNat ∈ keyCodes := by
  intro d hd
  by_cases hmark : d ∈ keyMarks
  · exact List.mem_append_left _
      (List.mem_append_right _ (List.mem_map_of_mem (List.mem_append_left _ hmark)))
  · by_cases hblank : isBlank d = true
    · exact List.mem_append_left _ (List.mem_append_left _ (mem_codesOf hblank))
    · refine h d ((mem_assetKey_iff hblank).mpr ?_)
      exact List.mem_map.mpr ⟨d, hd, assetPunctuation_of_not_mem hmark⟩

/-- **The letters of a phrase are those of its key**, the letter `K` aside. -/
theorem keep_codeLetters {s : List Char} (h : ∀ c ∈ assetKey s, c.toNat ∈ keyCodes) :
    keep (codeLetters s) = keep ((assetKey s).map Char.toUpper) := by
  have hletters : keep (codeLetters s) = keep (upper (trim s)) := by
    unfold keep codeLetters
    rw [List.filter_filter]
    refine List.filter_congr fun c _ => ?_
    rw [isKept]
    cases c.isUpper <;> simp
  rw [hletters, keep_upper (toNat_mem_of_assetKey h), keep_assetKey]

/-! ### Codes -/

section Name

variable {s : List Char} (hs : ∀ c ∈ s, isNameChar c = true)

include hs

/-- Names are in lower case already. -/
theorem lower_trim_name : lower (trim s) = trim s :=
  lower_eq_self fun c hc =>
    isLowered_of_mem_keyCodes (toNat_mem_of_isNameChar (hs c (trim_subset s hc)))

/-- The key of a name is made of characters of names and blanks. -/
theorem toNat_mem_key : ∀ c ∈ assetKey s, c.toNat ∈ keyCodes := by
  have hmarks : ∀ c ∈ keyMarks, isNameChar c = false := List.all_iff_forall_prop.mp (by decide)
  intro c hc
  by_cases hblank : isBlank c = true
  · exact List.mem_append_left _ (List.mem_append_left _ (mem_codesOf hblank))
  · rw [mem_assetKey_iff hblank, lower_trim_name hs] at hc
    obtain ⟨d, hd, rfl⟩ := List.mem_map.mp hc
    have hname := hs d (trim_subset s hd)
    have hmark : d ∉ keyMarks := fun hmark => by
      rw [hmarks d hmark] at hname
      cases hname
    rw [assetPunctuation_of_not_mem hmark]
    exact toNat_mem_of_isNameChar hname

/-- The letters of the key of a name are those of the name. -/
theorem keep_key_name : keep ((assetKey s).map Char.toUpper) = keep (s.map Char.toUpper) := by
  rw [keep_assetKey, lower_trim_name hs, keep, keep, List.filter_map,
    filter_trim isBlank_of_isKept_toUpper, ← List.filter_map]

end Name

/-- Letters as one number, so that they are compared at once. -/
def spell (s : List Char) : Nat := s.foldl (fun n c => 128 * n + c.toNat) 0

/-- **No name of an asset has the letters of the code of another one.** -/
theorem spell_of_names : (assetNames.all fun entry =>
    (charsOf entry.1).all isNameChar &&
      ((Asset.fiatCurrencies ++ Asset.cryptoAssets).filter fun a =>
        (spell (keep a.code.toList)).beq
          (spell (keep ((charsOf entry.1).map Char.toUpper)))).all (· == entry.2)) = true := by
  decide +kernel

/-- What is registered under a key has the letters of its code. -/
theorem eq_of_lookup_assets {s : List Char} {a b : Asset} (ha : a.IsListed)
    (hcode : keep a.code.toList = keep (codeLetters s))
    (hb : assets.lookup (String.ofList (assetKey s)) = some b) : a = b := by
  obtain ⟨name, hname, hkey⟩ := exists_of_lookup_tableOf hb
  have hkey := String.ofList_injective hkey
  have hchecked := List.all_eq_true.mp spell_of_names _ hname
  rw [charsOf_eq, Bool.and_eq_true] at hchecked
  obtain ⟨hchars, hletters⟩ := hchecked
  have hchars := List.all_eq_true.mp hchars
  have hcodes := toNat_mem_key hchars
  have hkept := keep_key_name hchars
  rw [hkey] at hcodes hkept
  -- The name and the code have the same letters, the letter `K` aside.
  have hspell : keep a.code.toList = keep (name.toList.map Char.toUpper) := by
    rw [hcode, keep_codeLetters hcodes, hkept]
  refine eq_of_beq (List.all_eq_true.mp hletters a ?_)
  exact List.mem_filter.mpr ⟨List.mem_append.mpr ha, Nat.beq_eq.mpr (congrArg spell hspell)⟩

/-- A listed code is made of three to five letters, one of which is not `K`, and no fiat currency
    has the code of a crypto asset. -/
theorem code_of_listed : ((Asset.fiatCurrencies ++ Asset.cryptoAssets).all fun a =>
      keep a.code.toList != [] && decide (3 ≤ a.code.toList.length ∧ a.code.toList.length ≤ 5)) =
        true ∧
    (Asset.cryptoAssets.all fun a => (Asset.fiat? a.code).isNone) = true := by
  decide

/-- No code consists of the letter `K` only. -/
theorem keep_code_ne_nil {a : Asset} (ha : a.IsListed) : keep a.code.toList ≠ [] := by
  have hall := List.all_eq_true.mp code_of_listed.1 a (List.mem_append.mpr ha)
  simpa using ((Bool.and_eq_true _ _).mp hall).1

/-- **A listed asset has the code that its letters are.** -/
theorem assetByCode?_eq_some {s : List Char} {a : Asset} (ha : a.IsListed)
    (hcode : a.code.toList = codeLetters s) : assetByCode? s = some a := by
  have hall := List.all_eq_true.mp code_of_listed.1 a (List.mem_append.mpr ha)
  have hlength := of_decide_eq_true ((Bool.and_eq_true _ _).mp hall).2
  unfold assetByCode?
  dsimp only
  rw [← hcode, if_pos hlength, String.ofList_toList]
  obtain ha | ha := ha
  · rw [(Asset.fiat?_code a ha).2.1, Option.some_or]
  · have hnone := Option.isNone_iff_eq_none.mp (List.all_eq_true.mp code_of_listed.2 a ha)
    rw [hnone, (Asset.crypto?_code a ha).2.1, Option.none_or]

/-- **An asset that is found by its code** has the letters of the phrase for it. -/
theorem code_of_assetByCode? {s : List Char} {a : Asset} (h : assetByCode? s = some a) :
    a.code = String.ofList (codeLetters s) := by
  unfold assetByCode? at h
  dsimp only at h
  split_ifs at h
  obtain h | ⟨-, h⟩ := Option.or_eq_some_iff.mp h
  · exact (Asset.fiat?_eq_some h).2
  · exact (Asset.crypto?_eq_some h).2

/-- A phrase without a key has no letters but `K`. -/
theorem assetKey_ne_nil {s : List Char} (h : keep (codeLetters s) ≠ []) : assetKey s ≠ [] := by
  intro hnil
  refine h ?_
  rw [keep_codeLetters (by simp [hnil]), hnil]
  rfl

/-- **The key of a phrase and the letters of a code never disagree.**  A phrase whose letters in
    upper case are the code of a listed asset names that asset, whether it is found by its key or
    by its letters.  What is not found by its key has these letters for its code. -/
theorem asset?_follows_code (phrase : String) :
    (∀ a : Asset, a.IsListed → a.code = String.ofList (codeLetters phrase.toList) →
      asset? phrase = some a) ∧
    (assets.lookup (String.ofList (assetKey phrase.toList)) = none →
      ∀ a, asset? phrase = some a → a.code = String.ofList (codeLetters phrase.toList)) := by
  refine ⟨fun a ha hcode => ?_, fun hnone a h => ?_⟩
  · have hletters : a.code.toList = codeLetters phrase.toList := by
      rw [hcode, String.toList_ofList]
    have hkept := keep_code_ne_nil ha
    rw [hletters] at hkept
    rw [asset?, if_neg (assetKey_ne_nil hkept)]
    -- Where the key of the phrase names an asset, it is this one.
    cases hlookup : assets.lookup (String.ofList (assetKey phrase.toList)) with
    | some b =>
      obtain rfl := eq_of_lookup_assets ha (by rw [hletters]) hlookup
      rfl
    | none => rw [Option.none_or, assetByCode?_eq_some ha hletters]
  · unfold asset? at h
    dsimp only at h
    split_ifs at h
    rw [hnone, Option.none_or] at h
    exact code_of_assetByCode? h

/-- The dollar behind a digit, with a long `s`, which is a capital letter only in upper case. -/
theorem asset?_follows_code_long_s :
    let phrase := "1uſd"
    let dollar := Asset.fiatCurrencies[0]
    dollar.IsListed ∧ assets.lookup (String.ofList (assetKey phrase.toList)) = none ∧
      asset? phrase = some dollar ∧ dollar.code = String.ofList (codeLetters phrase.toList) := by
  intro phrase dollar
  have hlisted : dollar.IsListed := .inl List.mem_cons_self
  have hcode : dollar.code = String.ofList (codeLetters phrase.toList) := by decide
  have hgoesOn : GoesOn phrase.toList :=
    .inl ⟨'1', ['u', 'ſ', 'd'], by decide, by decide⟩
  have hasset := (asset?_follows_code phrase).1 dollar hlisted hcode
  exact ⟨hlisted, hgoesOn.lookup_assets, hasset,
    (asset?_follows_code phrase).2 hgoesOn.lookup_assets dollar hasset⟩

end Reckoner.Alias
