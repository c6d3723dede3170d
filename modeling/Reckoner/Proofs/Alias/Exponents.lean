import Reckoner.Proofs.Alias.Spelling

/-!
# Spellings of an exponent

Behind a letter a raised digit, a digit behind a caret and a digit behind blanks are brought
together at different steps of a key: the raised digit is replaced first, then the caret is dropped,
and the blanks go last.  What stands before the letter has the same form in all three cases, for no
step looks over the letter.

* `IsExponent` — the spellings of an exponent.
* `replacedWords` — the words that a key has another form of.
* `dropCarets_append_word`, `exists_spelled_exponent` — the steps up to the blanks.
* `joinExponentsFrom_append_blanks`, `exists_joinExponents` — the blanks before an exponent.
* `unitKey_exponent` — **all spellings of an exponent have one key.**
-/

namespace Reckoner.Alias

open Reckoner.Text Reckoner.Query

/-- The spellings of an exponent: the raised digit, and the digit behind a caret or behind blanks,
    of which there may be none. -/
inductive IsExponent (digit raised : Char) : List Char → Prop
  | raised : IsExponent digit raised [raised]
  | caret : IsExponent digit raised ['^', digit]
  | behind (blanks : List Char) (h : ∀ c ∈ blanks, isBlank c = true) :
      IsExponent digit raised (blanks ++ [digit])

/-- The digits that are exponents, with their raised forms. -/
def exponents : List (Char × Char) := [('2', '²'), ('3', '³')]

/-! ### Words -/

/-- The words that are dropped or replaced in the key of a unit. -/
def replacedWords : List (List Char) :=
  ["degree".toList, "degrees".toList, "square".toList, "cubic".toList, "per".toList]

/-- Every other word stays as it is. -/
theorem unitWord_eq_self {w : List Char} (h : w ∉ replacedWords) : unitWord w = w := by
  simp only [replacedWords, List.mem_cons, List.not_mem_nil, or_false, not_or] at h
  obtain ⟨hdegree, hdegrees, hsquare, hcubic, hper⟩ := h
  rw [unitWord, if_neg (not_or.mpr ⟨hdegree, hdegrees⟩), if_neg hsquare, if_neg hcubic, if_neg hper]

/-- A word with an exponent behind it stays as it is. -/
theorem unitWord_concat {digit raised : Char} (h : (digit, raised) ∈ exponents) (w : List Char) :
    unitWord (w ++ [digit]) = w ++ [digit] := by
  have hlast : ∀ v ∈ replacedWords, ∀ e ∈ exponents, v.getLast? ≠ some e.1 := by decide
  exact unitWord_eq_self fun hmem => hlast _ hmem _ h List.getLast?_concat

/-- Other forms of characters are in words where the characters are. -/
theorem isWordChar_plainChar (c : Char) : isWordChar (plainChar c) = isWordChar c := by
  unfold plainChar
  split_ifs with hmicro htwo hthree
  · obtain rfl | rfl := hmicro <;> decide
  · subst htwo
    decide
  · subst hthree
    decide
  · rfl

/-- A character that has no plain form of its own unless as an exponent. -/
theorem plainChar_eq_self {c : Char} (hmicro : c ∉ ['\u00b5', '\u03bc'])
    (hexponent : plainChar c ∉ ['2', '3']) : plainChar c = c := by
  simp only [List.mem_cons, List.not_mem_nil, or_false, not_or] at hmicro
  unfold plainChar at hexponent ⊢
  rw [if_neg (by tauto)] at hexponent ⊢
  split_ifs at hexponent ⊢ with htwo hthree
  · exact absurd (by decide) hexponent
  · exact absurd (by decide) hexponent
  · rfl

/-- **A word with its exponents in plain form is replaced only if the word itself is.** -/
theorem map_plainChar_not_mem {w : List Char} (hmicro : ∀ c ∈ w, c ∉ ['\u00b5', '\u03bc'])
    (h : w ∉ replacedWords) : w.map plainChar ∉ replacedWords := by
  have hletters : (replacedWords.all fun v => v.all (· ∉ ['2', '3'])) = true := by decide
  intro hmem
  have hsame : w.map plainChar = w := by
    refine map_eq_self fun c hc => ?_
    have hletter := List.all_eq_true.mp (List.all_eq_true.mp hletters _ hmem) _
      (List.mem_map_of_mem (f := plainChar) hc)
    exact plainChar_eq_self (hmicro c hc) (of_decide_eq_true hletter)
  exact h (hsame ▸ hmem)

/-! ### Carets before a word -/

/-- In front of a text without carets none is dropped. -/
theorem dropCarets_append_of_not_mem {w : List Char} (hw : '^' ∉ w) (digit : Char) (s : List Char) :
    dropCarets digit (w ++ s) = w ++ dropCarets digit s := by
  induction w with
  | nil => rfl
  | cons c w ih =>
    obtain ⟨hc, hw⟩ := not_or.mp (mt List.mem_cons.mpr hw)
    rw [List.cons_append, dropCarets, if_neg (fun h => hc h.1.symm), ih hw, List.cons_append]

/-- Without carets nothing is dropped. -/
theorem dropCarets_eq_self {s : List Char} (hs : '^' ∉ s) (digit : Char) :
    dropCarets digit s = s := by
  have h := dropCarets_append_of_not_mem hs digit []
  rwa [List.append_nil, dropCarets, List.append_nil] at h

/-- Dropping carets leaves characters out and puts none in. -/
theorem dropCarets_sublist (digit : Char) (s : List Char) : (dropCarets digit s).Sublist s := by
  induction s with
  | nil => exact .slnil
  | cons c s ih =>
    rw [dropCarets]
    split_ifs
    · exact ih.cons c
    · exact ih.cons_cons c

/-- No caret is dropped at the end. -/
theorem getLast?_dropCarets (digit : Char) (s : List Char) :
    (dropCarets digit s).getLast? = s.getLast? := by
  induction s with
  | nil => rfl
  | cons c s ih =>
    rw [dropCarets]
    split_ifs with h
    · have hs : s ≠ [] := by
        rintro rfl
        cases h.2
      rw [ih, List.getLast?_cons_of_ne_nil hs]
    · rw [List.getLast?_cons, List.getLast?_cons, ih]

/-- A word that ends in a letter is no lone digit. -/
theorem startsWithLone_word {digit letter : Char} {w : List Char} (hne : letter ≠ digit)
    (hw : ∀ c ∈ w, isWordChar c = true) (hletter : isWordChar letter = true) (s : List Char) :
    startsWithLone digit (w ++ letter :: s) = false := by
  refine Bool.eq_false_iff.mpr fun hlone => ?_
  cases w with
  | nil => exact hne ((startsWithLone_cons digit letter s).mp hlone).1
  | cons c w =>
    have hnext := ((startsWithLone_cons digit c _).mp hlone).2
    cases w with
    | nil => simp [hletter] at hnext
    | cons d w => simp [hw d (by simp)] at hnext

/-- **No caret is dropped before a word that ends in a letter.** -/
theorem dropCarets_append_word {digit letter : Char} (hdigit : isWordChar digit = true)
    (hne : letter ≠ digit) {s w : List Char} (hs : ∀ c ∈ s.getLast?, isWordChar c = false)
    (hw : ∀ c ∈ w ++ [letter], isWordChar c = true) (t : List Char) :
    dropCarets digit (s ++ (w ++ letter :: t)) =
      dropCarets digit s ++ (w ++ letter :: dropCarets digit t) := by
  obtain ⟨hrest, hletter⟩ := List.forall_mem_append.mp hw
  have hletter := hletter letter (List.mem_singleton_self letter)
  have hcaret : '^' ∉ w ++ [letter] := fun hmem => absurd (hw _ hmem) (by decide)
  -- The text before the word does not end with a digit, so that no caret in it stands before one.
  have hlast : ∀ c ∈ s.getLast?, c ≠ digit := by
    rintro c hc rfl
    rw [hs c hc] at hdigit
    cases hdigit
  have hword := dropCarets_append_of_not_mem hcaret digit t
  rw [← List.append_cons, ← List.append_cons] at hword
  rw [dropCarets_append (startsWithLone_word hne hrest hletter t) (fun _ => hlast), hword]

/-! ### The steps up to the blanks -/

/-- An exponent behind a text does not change the lower case of the text. -/
theorem lower_append_exponent {digit raised : Char} (hdigit : (digit, raised) ∈ exponents)
    {e : List Char} (he : IsExponent digit raised e) (s : List Char) :
    lower (s ++ e) = lower s ++ e := by
  have hforms : ∀ p ∈ exponents, IsCaseless p.1 ∧ IsCaseless p.2 := by decide +kernel
  have hcaret : IsLowered '^' ∧ isCaseIgnorable '^' = true := by decide +kernel
  obtain ⟨hplain, hraised⟩ := hforms _ hdigit
  have hcaseless : ∀ {c t}, IsCaseless c → casedFollows (c :: t) = false := fun hc => by
    rw [casedFollows, List.dropWhile_cons_of_neg (by simp [hc.not_ignorable])]
    exact hc.not_cased
  have happend : casedFollows e = false → (∀ c ∈ e, IsLowered c) →
      lower (s ++ e) = lower s ++ e := by
    intro hfollows hlowered
    obtain ⟨casedBetween, heq⟩ := exists_lowerAfter_append hfollows false s
    rw [lower, heq, lowerAfter_eq_self hlowered, lower]
  -- Each form of an exponent is without case, and it begins with nothing that counts as a letter.
  cases he with
  | raised => exact happend (hcaseless hraised) (List.forall_mem_singleton.mpr hraised.isLowered)
  | caret =>
    refine happend ?_ (List.forall_mem_cons.mpr ⟨hcaret.1, List.forall_mem_singleton.mpr hplain.1⟩)
    rw [casedFollows, List.dropWhile_cons_of_pos hcaret.2, ← casedFollows]
    exact hcaseless hplain
  | behind blanks h =>
    have hblanks : ∀ c ∈ blanks, IsCaseless c :=
      fun c hc => (isCut_of_isBlank (h c hc)).toIsCaseless
    refine happend ?_ (List.forall_mem_append.mpr
      ⟨fun c hc => (hblanks c hc).isLowered, List.forall_mem_singleton.mpr hplain.1⟩)
    cases blanks with
    | nil => exact hcaseless hplain
    | cons c blanks => exact hcaseless (hblanks c List.mem_cons_self)

/-- An exponent in plain form, with its caret dropped, is the digit behind blanks. -/
theorem exists_blanks_of_isExponent {digit raised : Char} (hdigit : (digit, raised) ∈ exponents)
    {e : List Char} (he : IsExponent digit raised e) :
    ∃ blanks, (∀ c ∈ blanks, isBlank c = true) ∧
      dropCarets '3' (dropCarets '2' (e.map plainChar)) = blanks ++ [digit] := by
  have hsigns : ∀ p ∈ exponents,
      dropCarets '3' (dropCarets '2' ([p.2].map plainChar)) = [p.1] ∧
      dropCarets '3' (dropCarets '2' (['^', p.1].map plainChar)) = [p.1] ∧
      plainChar p.1 = p.1 ∧ p.1 ≠ '^' := by
    decide +kernel
  obtain ⟨hraised, hcaret, hplain, hne⟩ := hsigns _ hdigit
  cases he with
  | raised => exact ⟨[], by simp, hraised⟩
  | caret => exact ⟨[], by simp, hcaret⟩
  | behind blanks h =>
    -- Behind blanks the digit is written as it is, and there is no caret.
    refine ⟨blanks, h, ?_⟩
    have hsame : (blanks ++ [digit]).map plainChar = blanks ++ [digit] := by
      refine map_eq_self fun c hc => ?_
      obtain hc | hc := List.mem_append.mp hc
      · exact (isCut_of_isBlank (h c hc)).plainChar_eq
      · exact List.mem_singleton.mp hc ▸ hplain
    have hnone : '^' ∉ blanks ++ [digit] := by
      rw [List.mem_append, List.mem_singleton, not_or]
      exact ⟨fun hc => (isCut_of_isBlank (h _ hc)).not_caret rfl, hne.symm⟩
    rw [hsame, dropCarets_eq_self hnone, dropCarets_eq_self hnone]

/-! ### Words before an exponent -/

/-- Characters of other classes before the last word do not count. -/
theorem rtakeWhile_append_of_not {p : Char → Bool} {s : List Char} (hs : ∀ c ∈ s, p c = false)
    (t : List Char) : (s ++ t).rtakeWhile p = t.rtakeWhile p := by
  induction t using List.reverseRecOn with
  | nil =>
    rw [List.append_nil, List.rtakeWhile_nil, List.rtakeWhile_eq_nil_iff]
    intro hne
    simp [hs _ (List.getLast_mem hne)]
  | append_singleton t c ih =>
    rw [← List.append_assoc, List.rtakeWhile_concat, List.rtakeWhile_concat, ih]

/-- The last word of a text stays its last word. -/
theorem rtakeWhile_map_plainChar (s : List Char) :
    (s.map plainChar).rtakeWhile isWordChar = (s.rtakeWhile isWordChar).map plainChar := by
  have hcomp : isWordChar ∘ plainChar = isWordChar := funext isWordChar_plainChar
  rw [List.rtakeWhile, ← List.map_reverse, List.takeWhile_map, hcomp, ← List.map_reverse,
    List.rtakeWhile]

/-- The last character of a text is lowered by itself, unless it has a special form. -/
theorem getLast?_lowerAfter {s : List Char} {c : Char} (hs : s.getLast? = some c)
    (hsigma : c ≠ '\u03a3') (hdotted : c ≠ '\u0130') (casedBefore : Bool) :
    (lowerAfter casedBefore s).getLast? = some (lowerChar c) := by
  induction s generalizing casedBefore with
  | nil => cases hs
  | cons d s ih =>
    -- Only the last character decides, and what is lowered before it stays before it.
    by_cases hnil : s = []
    · rw [hnil, List.getLast?_singleton] at hs
      obtain rfl := Option.some.inj hs
      rw [hnil, lowerAfter, if_neg hsigma, if_neg hdotted]
      rfl
    · rw [List.getLast?_cons_of_ne_nil hnil] at hs
      obtain ⟨form, casedBetween, heq, -⟩ := exists_lowerAfter_cons casedBefore d s
      rw [heq, List.getLast?_append, ih hs]
      rfl

/-- The small letters. -/
theorem forms_of_isLower : ∀ n ∈ List.range' 97 26, isWordChar (Char.ofNat n) = true ∧
    plainChar (Char.ofNat n) = Char.ofNat n ∧ Char.ofNat n ∉ ['2', '3'] ∧
    (lowerChar (Char.ofNat n)).isLower = true ∧
      (lowerChar (Char.ofNat (n - 32))).isLower = true := by
  decide +kernel

/-- The small letters by their codes. -/
theorem toNat_mem_of_isLower {c : Char} (h : c.isLower = true) : c.toNat ∈ List.range' 97 26 :=
  have hcode := isLower_iff.mp h
  List.mem_range'_1.mpr ⟨hcode.1, Nat.lt_succ_of_le hcode.2⟩

/-- Small letters are characters of words. -/
theorem isWordChar_of_isLower {c : Char} (h : c.isLower = true) : isWordChar c = true := by
  have hforms := (forms_of_isLower _ (toNat_mem_of_isLower h)).1
  rwa [Char.ofNat_toNat] at hforms

/-- They have no other form. -/
theorem plainChar_of_isLower {c : Char} (h : c.isLower = true) : plainChar c = c := by
  have hforms := (forms_of_isLower _ (toNat_mem_of_isLower h)).2.1
  rwa [Char.ofNat_toNat] at hforms

/-- They are no exponents. -/
theorem not_mem_exponents_of_isLower {c : Char} (h : c.isLower = true) : c ∉ ['2', '3'] := by
  have hforms := (forms_of_isLower _ (toNat_mem_of_isLower h)).2.2.1
  rwa [Char.ofNat_toNat] at hforms

/-- The lower case of a letter is a small letter. -/
theorem isLower_lowerChar {c : Char} (h : c.isAlpha = true) : (lowerChar c).isLower = true := by
  obtain hupper | hlower := (Bool.or_eq_true _ _).mp h
  · have hcode := isUpper_iff.mp hupper
    have hmem : c.toNat + 32 ∈ List.range' 97 26 := List.mem_range'_1.mpr (by omega)
    have hforms := (forms_of_isLower _ hmem).2.2.2.2
    rwa [Nat.add_sub_cancel, Char.ofNat_toNat] at hforms
  · have hforms := (forms_of_isLower _ (toNat_mem_of_isLower hlower)).2.2.2.1
    rwa [Char.ofNat_toNat] at hforms

/-- A text that ends in a word that is not replaced, and whose letters are in lower case and without
    the signs that are dropped or have a plain form. -/
structure EndsInWord (s : List Char) : Prop where
  getLast?_isLower : ∃ c ∈ s.getLast?, c.isLower = true
  no_sign : ∀ c ∈ s, c ∉ ['°', '\u00b5', '\u03bc']
  not_replaced : s.rtakeWhile isWordChar ∉ replacedWords

/-- Nothing else has the degree sign for its other form. -/
theorem eq_degree_of_plainChar {c : Char} (h : plainChar c = '°') : c = '°' := by
  unfold plainChar at h
  split_ifs at h
  · exact absurd h (by decide)
  · exact absurd h (by decide)
  · exact absurd h (by decide)
  · exact h

/-- **The last word with its exponents in plain form**, and what stands before it. -/
theorem EndsInWord.exists_word {s : List Char} (hs : EndsInWord s) :
    ∃ before w c, s.map plainChar = before ++ (w ++ [c]) ∧ c.isLower = true ∧
      (∀ d ∈ before.getLast?, isWordChar d = false) ∧ (∀ d ∈ w ++ [c], isWordChar d = true) ∧
      unitWord (w ++ [c]) = w ++ [c] := by
  -- The last letter has no plain form of its own, so that the last word may be split before it.
  obtain ⟨c, hc, hlower⟩ := hs.getLast?_isLower
  obtain ⟨r, rfl⟩ := List.getLast?_eq_some_iff.mp hc
  have hplain := plainChar_of_isLower hlower
  have hword : ((r ++ [c]).map plainChar).rtakeWhile isWordChar =
      (r.map plainChar).rtakeWhile isWordChar ++ [c] := by
    rw [List.map_append, List.map_singleton, hplain,
      List.rtakeWhile_concat_pos _ _ _ (isWordChar_of_isLower hlower)]
  refine ⟨((r ++ [c]).map plainChar).rdropWhile isWordChar, (r.map plainChar).rtakeWhile isWordChar,
    c, ?_, hlower, fun d hd => of_mem_getLast?_rdropWhile hd, ?_, ?_⟩
  · rw [← hword, List.rdropWhile_append_rtakeWhile]
  · rw [← hword]
    exact fun d hd => List.mem_rtakeWhile_imp hd
  · rw [← hword, rtakeWhile_map_plainChar]
    refine unitWord_eq_self (map_plainChar_not_mem (fun d hd hmicro => ?_) hs.not_replaced)
    exact hs.no_sign d ((List.rtakeWhile_suffix _ _).subset hd) (List.mem_cons_of_mem _ hmicro)

/-- A text of words that are not replaced, with an exponent behind it. -/
theorem mapWords_append_exponent {digit raised : Char} (hdigit : (digit, raised) ∈ exponents)
    {w blanks : List Char} (hw : ∀ c ∈ w, isWordChar c = true) (hne : w ≠ [])
    (hfix : unitWord w = w) (hblanks : ∀ c ∈ blanks, isBlank c = true) :
    mapWords unitWord (w ++ (blanks ++ [digit])) = w ++ (blanks ++ [digit]) := by
  have hword : ∀ p ∈ exponents, isWordChar p.1 = true := by decide
  have hdigits : ∀ c ∈ [digit], isWordChar c = true :=
    List.forall_mem_singleton.mpr (hword _ hdigit)
  have halone := unitWord_concat hdigit []
  refine mapRuns_eq_self ?_
  -- Without blanks the digit belongs to the word, with blanks it is a word of its own.
  by_cases hnil : blanks = []
  · have hrun : ∀ c ∈ w ++ [digit], isWordChar c = true := List.forall_mem_append.mpr ⟨hw, hdigits⟩
    rw [hnil, List.nil_append, runs_of_forall hrun (by simp), List.forall_mem_singleton]
    exact unitWord_concat hdigit w
  · rw [runs_append_gap (fun c hc => (isCut_of_isBlank (hblanks c hc)).not_word) hnil,
      runs_of_forall hw hne, runs_of_forall hdigits (by simp)]
    simpa using ⟨hfix, halone⟩

/-- **Up to the blanks, an exponent is the digit behind blanks**, and what stands before it has one
    form. -/
theorem exists_spelled_exponent {x : List Char} (hx : EndsInWord (lower x)) {digit raised : Char}
    (hdigit : (digit, raised) ∈ exponents) :
    ∃ before c, c.isLower = true ∧ ∀ e, IsExponent digit raised e →
      ∃ blanks, (∀ c ∈ blanks, isBlank c = true) ∧
        spelled (x ++ e) = before ++ c :: (blanks ++ [digit]) := by
  obtain ⟨before, w, c, hsplit, hlower, hbefore, hword, hfix⟩ := hx.exists_word
  have htwo : isWordChar '2' = true := by decide
  have hthree : isWordChar '3' = true := by decide
  have hne := not_mem_exponents_of_isLower hlower
  simp only [List.mem_cons, List.not_mem_nil, or_false, not_or] at hne
  -- No caret is dropped at the end of what stands before the word.
  have hlast : ∀ d ∈ (dropCarets '2' before).getLast?, isWordChar d = false := by
    rwa [getLast?_dropCarets]
  have hlast' : ∀ d ∈ (dropCarets '3' (dropCarets '2' before)).getLast?, isWordChar d = false := by
    rwa [getLast?_dropCarets]
  refine ⟨mapWords unitWord (dropCarets '3' (dropCarets '2' before)) ++ w, c, hlower,
    fun e he => ?_⟩
  obtain ⟨blanks, hblanks, hexponent⟩ := exists_blanks_of_isExponent hdigit he
  have hdegree : ∀ d ∈ dropCarets '3' (dropCarets '2' before) ++
      ((w ++ [c]) ++ (blanks ++ [digit])), d ≠ '°' := by
    have hsplit : ∀ d ∈ before ++ (w ++ [c]), d ≠ '°' := by
      rw [← hsplit, List.forall_mem_map]
      intro d hd hdegree
      exact hx.no_sign d hd (by simp [eq_degree_of_plainChar hdegree])
    obtain ⟨hfirst, hrest⟩ := List.forall_mem_append.mp hsplit
    have hexponents : ∀ p ∈ exponents, p.1 ≠ '°' := by decide
    have hkept : ∀ d ∈ dropCarets '3' (dropCarets '2' before), d ∈ before := fun d hd =>
      (dropCarets_sublist '2' before).subset ((dropCarets_sublist '3' _).subset hd)
    refine List.forall_mem_append.mpr ⟨fun d hd => hfirst d (hkept d hd),
      List.forall_mem_append.mpr ⟨hrest, List.forall_mem_append.mpr ⟨fun d hd => ?_, ?_⟩⟩⟩
    · exact (isCut_of_isBlank (hblanks d hd)).not_degree
    · exact List.forall_mem_singleton.mpr (hexponents _ hdigit)
  refine ⟨blanks, hblanks, ?_⟩
  have hcarets : dropCarets '3' (dropCarets '2' ((lower (x ++ e)).map plainChar)) =
      dropCarets '3' (dropCarets '2' before) ++ ((w ++ [c]) ++ (blanks ++ [digit])) := by
    rw [lower_append_exponent hdigit he, List.map_append, hsplit, List.append_assoc,
      List.append_assoc, List.singleton_append, dropCarets_append_word htwo hne.1 hbefore hword,
      dropCarets_append_word hthree hne.2 hlast hword, hexponent, ← List.append_cons]
  have hwords : mapWords unitWord ((w ++ [c]) ++ (blanks ++ [digit])) =
      (w ++ [c]) ++ (blanks ++ [digit]) :=
    mapWords_append_exponent hdigit hword (by simp) hfix hblanks
  rw [spelled, hcarets, List.filter_eq_self.mpr fun d hd => by simpa using hdegree d hd, mapWords,
    mapRuns_append_of_getLast? hlast', ← mapWords, ← mapWords, hwords]
  simp

/-! ### Blanks before an exponent -/

/-- Whether a text begins with an exponent. -/
def startsWithExponent (s : List Char) : Bool := startsWithLone '2' s || startsWithLone '3' s

/-- A character that is no blank is left where it is. -/
theorem joinExponentsFrom_cons {c : Char} (hc : isBlank c = false) (afterLetter : Bool)
    (s : List Char) :
    joinExponentsFrom afterLetter (c :: s) = c :: joinExponentsFrom c.isLower s := by
  rw [joinExponentsFrom, if_neg (by simp [hc])]

/-- A blank is dropped between a letter and an exponent. -/
theorem joinExponentsFrom_blank {c : Char} (hc : isBlank c = true) (afterLetter : Bool)
    (s : List Char) :
    joinExponentsFrom afterLetter (c :: s) =
      if afterLetter && startsWithExponent (trimStart s) then joinExponentsFrom afterLetter s
      else c :: joinExponentsFrom afterLetter s := by
  rw [joinExponentsFrom, if_pos hc]
  rfl

/-- **All blanks between a letter and an exponent are dropped**, and all others are kept. -/
theorem joinExponentsFrom_append_blanks {blanks : List Char}
    (hblanks : ∀ c ∈ blanks, isBlank c = true) {s : List Char} (hs : StartsInText s)
    (afterLetter : Bool) :
    joinExponentsFrom afterLetter (blanks ++ s) =
      (if afterLetter && startsWithExponent s then [] else blanks) ++
        joinExponentsFrom afterLetter s := by
  -- Behind all blanks the same text follows, so that they are dropped together or not at all.
  have hstart : trimStart s = s := by
    cases s with
    | nil => rfl
    | cons c s => exact trimStart_cons_of_not_blank (hs c rfl) s
  induction blanks with
  | nil => simp
  | cons c blanks ih =>
    obtain ⟨hc, hblanks⟩ := List.forall_mem_cons.mp hblanks
    rw [List.cons_append, joinExponentsFrom_blank hc, trimStart_append_of_blanks hblanks, hstart,
      ih hblanks]
    split_ifs <;> rfl

/-- **Up to a letter, blanks are dropped whatever stands behind it.** -/
theorem exists_joinExponents {c : Char} (hc : isBlank c = false) (hne : c ∉ ['2', '3'])
    (s : List Char) : ∃ before, ∀ t,
      joinExponents (s ++ c :: t) = before ++ c :: joinExponentsFrom c.isLower t := by
  simp only [List.mem_cons, List.not_mem_nil, or_false, not_or] at hne
  -- A blank is dropped for what stands behind it up to the letter, as the letter ends every digit.
  suffices h : ∀ afterLetter, ∃ before, ∀ t, joinExponentsFrom afterLetter (s ++ c :: t) =
      before ++ c :: joinExponentsFrom c.isLower t from h false
  have hlone : ∀ {digit}, c ≠ digit → ∀ s t,
      startsWithLone digit (s ++ c :: t) = startsWithLone digit (s ++ [c]) := by
    intro digit hne s t
    rw [List.append_cons]
    refine startsWithLone_append (by simp) fun _ d hd => ?_
    rw [List.getLast?_concat] at hd
    exact Option.some.inj hd ▸ hne
  have hexponent : ∀ s t, startsWithExponent (s ++ c :: t) = startsWithExponent (s ++ [c]) :=
    fun s t => by rw [startsWithExponent, hlone hne.1, hlone hne.2, startsWithExponent]
  induction s with
  | nil => exact fun afterLetter => ⟨[], fun t => joinExponentsFrom_cons hc afterLetter t⟩
  | cons d s ih =>
    intro afterLetter
    cases hd : isBlank d with
    | false =>
      obtain ⟨before, heq⟩ := ih d.isLower
      refine ⟨d :: before, fun t => ?_⟩
      rw [List.cons_append, joinExponentsFrom_cons hd, heq, List.cons_append]
    | true =>
      obtain ⟨before, heq⟩ := ih afterLetter
      refine ⟨if afterLetter && startsWithExponent (trimStart s ++ [c]) then before
        else d :: before, fun t => ?_⟩
      rw [List.cons_append, joinExponentsFrom_blank hd, trimStart_append_cons hc, heq, hexponent]
      split_ifs <;> rfl

/-! ### One key -/

/-- Blanks at the head of a text stay there in lower case. -/
theorem lower_append_of_blanks {blanks : List Char} (h : ∀ c ∈ blanks, isBlank c = true)
    (s : List Char) : lower (blanks ++ s) = blanks ++ lower s := by
  induction blanks with
  | nil => rfl
  | cons c blanks ih =>
    obtain ⟨hc, h⟩ := List.forall_mem_cons.mp h
    have hcut := lower_append_cons (isCut_of_isBlank hc).toIsCaseless [] (blanks ++ s)
    rw [List.cons_append, ← List.nil_append (c :: (blanks ++ s)), hcut, ih h]
    rfl

/-- No letter is a blank. -/
theorem isBlank_eq_false_of_isAlpha {c : Char} (h : c.isAlpha = true) : isBlank c = false := by
  have hblanks : ((codesOf blankRanges).all fun n => !(Char.ofNat n).isAlpha) = true := by decide
  by_contra hblank
  have hmem := mem_codesOf (eq_true_of_ne_false hblank)
  have hnot := List.all_eq_true.mp hblanks _ hmem
  rw [Char.ofNat_toNat, h] at hnot
  cases hnot

/-- A text that ends in a letter ends in a small one in lower case. -/
theorem exists_isLower_of_isAlpha {s : List Char} {letter : Char} (hs : s.getLast? = some letter)
    (hletter : letter.isAlpha = true) : ∃ c ∈ (lower s).getLast?, c.isLower = true := by
  have hspecial : ¬ '\u03a3'.isAlpha = true ∧ ¬ '\u0130'.isAlpha = true := by decide
  refine ⟨lowerChar letter, getLast?_lowerAfter hs ?_ ?_ false, isLower_lowerChar hletter⟩
  · rintro rfl
    exact hspecial.1 hletter
  · rintro rfl
    exact hspecial.2 hletter

/-- An exponent ends with no blank. -/
theorem IsExponent.trimEnd_eq {digit raised : Char} (hdigit : (digit, raised) ∈ exponents)
    {e : List Char} (he : IsExponent digit raised e) : trimEnd e = e := by
  have hforms : ∀ p ∈ exponents, isBlank p.1 = false ∧ isBlank p.2 = false := by decide
  obtain ⟨hplain, hraised⟩ := hforms _ hdigit
  cases he with
  | raised => exact trimEnd_append_cons hraised [] []
  | caret => exact trimEnd_append_cons hplain ['^'] []
  | behind blanks _ => exact trimEnd_append_cons hplain blanks []

/-- Slashes and marks before a word character do not reach the exponent behind it. -/
theorem tightenSlashes_append_exponent {c digit raised : Char} (hc : isWordChar c = true)
    (hdigit : (digit, raised) ∈ exponents) {blanks : List Char}
    (hblanks : ∀ c ∈ blanks, isBlank c = true) (s : List Char) :
    (tightenSlashes (s ++ c :: (blanks ++ [digit]))).map unitPunctuation =
      (tightenSlashes s).map unitPunctuation ++ c :: (blanks ++ [digit]) := by
  have hdigits : ∀ p ∈ exponents, isWordChar p.1 = true := by decide
  have hword : isWordChar digit = true := hdigits _ hdigit
  have hslash : '/' ∉ blanks ++ [digit] := by
    rw [List.mem_append, List.mem_singleton, not_or]
    exact ⟨fun h => absurd (hblanks _ h) (by decide), fun h => absurd (h ▸ hword) (by decide)⟩
  have hkept : (blanks ++ [digit]).map unitPunctuation = blanks ++ [digit] := by
    refine map_eq_self fun d hd => unitPunctuation_eq_self ?_
    exact (List.mem_append.mp hd).elim (fun h => .inr (hblanks d h))
      fun h => .inl (List.mem_singleton.mp h ▸ hword)
  -- The letter before the exponent cuts the text, and there is no slash behind it.
  have hcut := mapRuns_append_cons (f := fun run => if '/' ∈ run then ['/'] else run)
    (isSlashOrBlank_eq_false hc) s (blanks ++ [digit])
  rw [← tightenSlashes, ← tightenSlashes, ← tightenSlashes, tightenSlashes_eq_self hslash] at hcut
  rw [hcut, List.map_append, List.map_cons, hkept, unitPunctuation_eq_self (.inl hc)]

/-- **The blanks between a letter and an exponent do not count.** -/
theorem joinExponentsFrom_exponent {digit raised : Char} (hdigit : (digit, raised) ∈ exponents)
    {blanks : List Char} (hblanks : ∀ c ∈ blanks, isBlank c = true) :
    joinExponentsFrom true (blanks ++ [digit]) = [digit] := by
  have hforms : ∀ p ∈ exponents, StartsInText [p.1] ∧ startsWithExponent [p.1] = true ∧
      joinExponentsFrom true [p.1] = [p.1] := by decide
  obtain ⟨hstart, hexponent, halone⟩ := hforms _ hdigit
  rw [joinExponentsFrom_append_blanks hblanks hstart, hexponent, halone]
  rfl

/-- **All spellings of an exponent have one key** behind a text that ends in a letter and, in lower
    case, in a word that is not replaced, and that has no sign for degrees or micro. -/
theorem unitKey_exponent {x : List Char} {letter : Char} (hx : x.getLast? = some letter)
    (hletter : letter.isAlpha = true) (hsigns : ∀ c ∈ lower x, c ∉ ['°', '\u00b5', '\u03bc'])
    (hword : (lower x).rtakeWhile isWordChar ∉ replacedWords) {digit raised : Char}
    (hdigit : (digit, raised) ∈ exponents) {e : List Char} (he : IsExponent digit raised e) :
    unitKey (x ++ e) = unitKey (x ++ [digit]) := by
  have hblank := isBlank_eq_false_of_isAlpha hletter
  obtain ⟨r, rfl⟩ := List.getLast?_eq_some_iff.mp hx
  obtain ⟨blanks, hsplit, hblanks⟩ := exists_blanks (r ++ [letter])
  have hlower : lower (r ++ [letter]) = blanks ++ lower (trimStart (r ++ [letter])) := by
    rw [← lower_append_of_blanks hblanks, hsplit]
  have hlast : (trimStart (r ++ [letter])).getLast? = some letter := by
    rw [trimStart_append_cons hblank, List.getLast?_concat]
  rw [hlower] at hsigns hword
  rw [rtakeWhile_append_of_not fun c hc => (isCut_of_isBlank (hblanks c hc)).not_word] at hword
  have hends : EndsInWord (lower (trimStart (r ++ [letter]))) :=
    ⟨exists_isLower_of_isAlpha hlast hletter, (List.forall_mem_append.mp hsigns).2, hword⟩
  obtain ⟨before, c, hc, hspelled⟩ := exists_spelled_exponent hends hdigit
  obtain ⟨joined, hjoined⟩ := exists_joinExponents (isBlank_eq_false (isWordChar_of_isLower hc))
    (not_mem_exponents_of_isLower hc) ((tightenSlashes before).map unitPunctuation)
  -- Behind the letter nothing but the digit is left, however it was written.
  have hkey : ∀ e, IsExponent digit raised e →
      unitKey (r ++ [letter] ++ e) = trim (squeeze (joined ++ c :: [digit])) := by
    intro e he
    obtain ⟨gap, hgap, heq⟩ := hspelled e he
    have htrim : trim (r ++ [letter] ++ e) = trimStart (r ++ [letter]) ++ e := by
      rw [← List.append_cons, trim_append_cons hblank, trimStart_append_cons hblank,
        he.trimEnd_eq hdigit, ← List.append_cons]
    rw [unitKey_eq, unitForm_eq, htrim, heq,
      tightenSlashes_append_exponent (isWordChar_of_isLower hc) hdigit hgap, hjoined, hc,
      joinExponentsFrom_exponent hdigit hgap]
  rw [hkey e he, hkey [digit] (.behind [] (by simp))]

/-- A square metre, in the other spellings. -/
theorem unitKey_metre_squared :
    unitKey "m²".toList = unitKey "m2".toList ∧ unitKey "m^2".toList = unitKey "m2".toList ∧
      unitKey "m 2".toList = unitKey "m2".toList := by
  have hsigns : ∀ c ∈ lower "m".toList, c ∉ ['°', '\u00b5', '\u03bc'] :=
    List.all_iff_forall_prop.mp (by decide)
  have hblank : ∀ c ∈ [' '], isBlank c = true := List.forall_mem_singleton.mpr (by decide)
  have hkey : ∀ e, IsExponent '2' '²' e → unitKey ("m".toList ++ e) = unitKey "m2".toList :=
    fun e he => unitKey_exponent rfl (by decide) hsigns (by decide) (by decide) he
  exact ⟨hkey _ .raised, hkey _ .caret, hkey _ (.behind [' '] hblank)⟩

end Reckoner.Alias
