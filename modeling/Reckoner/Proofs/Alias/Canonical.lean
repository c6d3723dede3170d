import Reckoner.Proofs.Alias.Joining

/-!
# Keys of keys

Each step of a key is done once, in a fixed order, so that a late step may leave something behind
that an earlier one would have changed: the last caret of `^^2` is kept, and a bracket beside a
slash becomes a space there.  These are the only two ways.  A key in which neither is left is its
own key, and the key of every phrase that names a unit is one of these.

* `IsSettled` — keys that have no caret before an exponent and no blank beside a slash.
* `isKeyChar_of_mem_unitKey` — what keys are made of.
* `unitWord_of_mem_runs_unitKey` — no word of a key is replaced.
* `IsSettled.unitKey_eq`, `isSettled_of_unitKey_eq` — the settled keys are their own keys.
* `isSettled_unitKey` — phrases without carets and marks have such keys.
* `unitKey_unitKey_iff` — **which keys are their own keys.**
-/

namespace Reckoner.Alias

open Reckoner.Text Reckoner.Query

/-- A caret stands before an exponent. -/
def HasLoneCaret (s : List Char) : Prop :=
  ∃ before behind, s = before ++ '^' :: behind ∧ startsWithExponent behind = true

/-- **A text in which no caret stands before an exponent, and no blank beside a slash.** -/
structure IsSettled (s : List Char) : Prop where
  no_caret : ¬ HasLoneCaret s
  isTight : IsTight s

/-! ### Characters of keys -/

/-- A character that no step of a key changes or drops for itself. -/
structure IsKeyChar (c : Char) : Prop where
  isLowered : IsLowered c
  plainChar_eq : plainChar c = c
  not_degree : c ≠ '°'
  unitPunctuation_eq : unitPunctuation c = c

/-- What words are replaced by is made of five characters. -/
theorem forall_mem_unitWord {P : Char → Prop} (hletters : ∀ c ∈ "sqcu/".toList, P c)
    (w : List Char) (hw : ∀ c ∈ w, P c) : ∀ c ∈ unitWord w, P c := by
  have hreplaced : (replacedWords.all fun w => (unitWord w).all (· ∈ "sqcu/".toList)) = true := by
    decide
  by_cases hmem : w ∈ replacedWords
  · have hall := List.all_eq_true.mp (List.all_eq_true.mp hreplaced w hmem)
    exact fun c hc => hletters c (of_decide_eq_true (hall c hc))
  · rwa [unitWord_eq_self hmem]

/-- The characters of a text up to its slashes come from the text in lower case and from what words
    are replaced by. -/
theorem forall_mem_tightenSlashes {P : Char → Prop} (hletters : ∀ c ∈ "sqcu/".toList, P c)
    {s : List Char} (hs : ∀ c ∈ (lower s).map plainChar, c ≠ '°' → P c) :
    ∀ c ∈ tightenSlashes (spelled s), P c := by
  have hspelled : ∀ c ∈ spelled s, P c := by
    refine forall_mem_mapRuns (fun c hc => ?_) (forall_mem_unitWord hletters)
    obtain ⟨hc, hdegree⟩ := List.mem_filter.mp hc
    refine hs c ?_ (of_decide_eq_true hdegree)
    exact (dropCarets_sublist '2' _).subset ((dropCarets_sublist '3' _).subset hc)
  refine forall_mem_mapRuns hspelled fun w hw => ?_
  split_ifs
  · exact List.forall_mem_singleton.mpr (hletters '/' (by decide))
  · exact hw

/-- **The characters of a key** are those of such a text, with marks as spaces. -/
theorem forall_mem_unitKey {P Q : Char → Prop} (hletters : ∀ c ∈ "sqcu/".toList, P c)
    (hmarks : ∀ c, P c → Q (unitPunctuation c)) (hspace : Q ' ') {s : List Char}
    (hs : ∀ c ∈ (lower (trim s)).map plainChar, c ≠ '°' → P c) : ∀ c ∈ unitKey s, Q c := by
  have hform : ∀ c ∈ unitForm s, Q c := by
    rw [unitForm_eq, List.forall_mem_map]
    exact fun c hc => hmarks c (forall_mem_tightenSlashes hletters hs c hc)
  have hjoined : ∀ c ∈ joinExponents (unitForm s), Q c := fun c hc =>
    hform c ((joinExponentsFrom_sublist false _).subset hc)
  have hspaced : ∀ c ∈ squeeze (joinExponents (unitForm s)), Q c :=
    forall_mem_mapRuns hjoined fun _ _ => List.forall_mem_singleton.mpr hspace
  exact fun c hc => hspaced c (trim_subset _ hc)

/-- A character has no plain form but three. -/
theorem plainChar_mem_or_eq (c : Char) : plainChar c ∈ ['u', '2', '3'] ∨ plainChar c = c := by
  unfold plainChar
  split_ifs <;> simp

/-- Punctuation becomes a space, and nothing else is changed. -/
theorem unitPunctuation_eq_or (c : Char) :
    unitPunctuation c = ' ' ∨ unitPunctuation c = c := by
  unfold unitPunctuation
  split_ifs
  · exact .inl rfl
  · exact .inr rfl

/-- **Keys are made of characters that no step changes.** -/
theorem isKeyChar_of_mem_unitKey {s : List Char} {c : Char} (h : c ∈ unitKey s) : IsKeyChar c := by
  have hdigits : ∀ c ∈ ['u', '2', '3'], IsLowered c ∧ plainChar c = c :=
    List.all_iff_forall_prop.mp (by decide +kernel)
  have hletters : ∀ c ∈ "sqcu/".toList, IsLowered c ∧ plainChar c = c ∧ c ≠ '°' :=
    List.all_iff_forall_prop.mp (by decide +kernel)
  have hspace : IsKeyChar ' ' := ⟨by decide, by decide, by decide, by decide⟩
  -- What is put into a key besides its own characters are a few letters, the slash and the space.
  refine forall_mem_unitKey (P := fun c => IsLowered c ∧ plainChar c = c ∧ c ≠ '°') hletters
    (fun c hc => ?_) hspace (fun c hc hdegree => ?_) c h
  · obtain hsame | hsame := unitPunctuation_eq_or c
    · exact hsame ▸ hspace
    · rw [hsame]
      exact ⟨hc.1, hc.2.1, hc.2.2, hsame⟩
  · obtain ⟨d, hd, rfl⟩ := List.mem_map.mp hc
    obtain hplain | hplain := plainChar_mem_or_eq d
    · exact ⟨(hdigits _ hplain).1, (hdigits _ hplain).2, hdegree⟩
    · rw [hplain]
      exact ⟨isLowered_of_mem_lower hd, hplain, hplain ▸ hdegree⟩

/-! ### Words of keys -/

/-- What a word is replaced by is not replaced again. -/
theorem unitWord_of_mem_runs_unitWord {w : List Char} (hne : w ≠ [])
    (hw : ∀ c ∈ w, isWordChar c = true) : ∀ v ∈ runs isWordChar (unitWord w), unitWord v = v := by
  by_cases hmem : w ∈ replacedWords
  · have hreplaced : (replacedWords.all fun w =>
        (runs isWordChar (unitWord w)).all fun v => unitWord v == v) = true := by
      decide +kernel
    have hall := List.all_eq_true.mp (List.all_eq_true.mp hreplaced w hmem)
    exact fun v hv => eq_of_beq (hall v hv)
  · have hsame := unitWord_eq_self hmem
    rw [hsame, runs_of_forall hw hne, List.forall_mem_singleton]
    exact hsame

/-- No punctuation is in a word. -/
theorem isWordChar_unitPunctuation (c : Char) : isWordChar (unitPunctuation c) = isWordChar c := by
  have hmarks : ∀ m ∈ ['(', ')', ',', '-'], isWordChar ' ' = isWordChar m :=
    List.all_iff_forall_prop.mp (by decide)
  unfold unitPunctuation
  split_ifs with hmark
  · exact hmarks c hmark
  · rfl

/-- **No word of a key is replaced.** -/
theorem unitWord_of_mem_runs_unitKey (s : List Char) :
    ∀ w ∈ runs isWordChar (unitKey s), unitWord w = w := by
  -- Once the words are replaced, the later steps change what is between them; only an exponent may
  -- join the word before it, and no word that ends in one is replaced.
  have hblank : ∀ c, isBlank c = true → isWordChar c = false := fun c hc =>
    (isCut_of_isBlank hc).not_word
  have hslash : ∀ c, isSlashOrBlank c = true → isWordChar c = false := fun c hc =>
    (isCut_of_isSlashOrBlank hc).not_word
  have hspelled : ∀ w ∈ runs isWordChar (spelled (trim s)), unitWord w = w :=
    forall_mem_runs_mapRuns (fun w hne hw => unitWord_of_mem_runs_unitWord hne hw) _
  have htight : runs isWordChar (tightenSlashes (spelled (trim s))) =
      runs isWordChar (spelled (trim s)) := by
    refine runs_mapRuns hslash (fun w hne hw => ?_) _
    split_ifs
    · exact ⟨by simp, List.forall_mem_singleton.mpr (by decide)⟩
    · exact ⟨hne, fun c hc => hslash c (hw c hc)⟩
  have hform : runs isWordChar (unitForm s) = runs isWordChar (spelled (trim s)) := by
    rw [unitForm_eq, ← htight]
    exact runs_map isWordChar_unitPunctuation (fun c hc => unitPunctuation_eq_self (.inl hc)) _
  have hjoined : ∀ w ∈ runs isWordChar (joinExponents (unitForm s)), unitWord w = w := by
    rw [← hform] at hspelled
    exact forall_mem_runs_joinExponents (fun p hp w => unitWord_concat hp w) hspelled
  have hspaced : runs isWordChar (squeeze (joinExponents (unitForm s))) =
      runs isWordChar (joinExponents (unitForm s)) :=
    runs_mapRuns hblank
      (fun _ _ _ => ⟨by simp, List.forall_mem_singleton.mpr isCut_space.not_word⟩) _
  rwa [unitKey_eq, runs_trim hblank, hspaced]

/-! ### Carets -/

/-- **Where no caret stands before the digit, none is dropped.** -/
theorem dropCarets_of_not_lone {digit : Char} {s : List Char}
    (h : ∀ before behind, s = before ++ '^' :: behind → startsWithLone digit behind = false) :
    dropCarets digit s = s := by
  induction s with
  | nil => rfl
  | cons c s ih =>
    have hs := ih fun before behind heq => h (c :: before) behind (by rw [heq]; rfl)
    rw [dropCarets, hs, if_neg]
    rintro ⟨rfl, hlone⟩
    rw [h [] s rfl] at hlone
    cases hlone

/-- Dropping carets makes no text longer, wherever it begins. -/
theorem length_dropCarets_append_le (digit : Char) (s t : List Char) :
    (dropCarets digit (s ++ t)).length ≤ s.length + (dropCarets digit t).length := by
  induction s with
  | nil => simp
  | cons c s ih =>
    rw [List.cons_append, dropCarets]
    split_ifs
    · exact ih.trans (by simp)
    · simp only [List.length_cons]
      omega

/-- Where a caret stands before the digit, one is dropped. -/
theorem dropCarets_ne_self {digit : Char} {before behind : List Char}
    (h : startsWithLone digit behind = true) :
    dropCarets digit (before ++ '^' :: behind) ≠ before ++ '^' :: behind := by
  intro hsame
  have hle := length_dropCarets_append_le digit before ('^' :: behind)
  have hshort := (dropCarets_sublist digit behind).length_le
  rw [hsame, dropCarets, if_pos ⟨rfl, h⟩, List.length_append, List.length_cons] at hle
  omega

/-- **No caret is dropped** in a text exactly if none stands before an exponent. -/
theorem not_hasLoneCaret_iff (s : List Char) :
    ¬ HasLoneCaret s ↔ dropCarets '2' s = s ∧ dropCarets '3' s = s := by
  constructor
  · intro h
    have hnone : ∀ before behind, s = before ++ '^' :: behind →
        startsWithLone '2' behind = false ∧ startsWithLone '3' behind = false := by
      intro before behind heq
      have hexponent : ¬ startsWithExponent behind = true := fun hlone =>
        h ⟨before, behind, heq, hlone⟩
      exact Bool.or_eq_false_iff.mp (Bool.eq_false_iff.mpr hexponent)
    exact ⟨dropCarets_of_not_lone fun before behind heq => (hnone before behind heq).1,
      dropCarets_of_not_lone fun before behind heq => (hnone before behind heq).2⟩
  · rintro ⟨htwo, hthree⟩ ⟨before, behind, rfl, hlone⟩
    obtain hlone | hlone := (Bool.or_eq_true _ _).mp hlone
    · exact dropCarets_ne_self hlone htwo
    · exact dropCarets_ne_self hlone hthree

/-! ### Keys of keys -/

/-- The first steps change nothing about a key but its carets. -/
theorem carets_of_unitKey (s : List Char) :
    (lower (trim (unitKey s))).map plainChar = unitKey s := by
  have hchars := fun c (hc : c ∈ unitKey s) => isKeyChar_of_mem_unitKey hc
  have htrim : trim (unitKey s) = unitKey s := trim_trim _
  rw [htrim, lower_eq_self fun c hc => (hchars c hc).isLowered]
  exact map_eq_self fun c hc => (hchars c hc).plainChar_eq

/-- The first steps change nothing about a key without lone carets. -/
theorem spelled_unitKey {s : List Char} (h : ¬ HasLoneCaret (unitKey s)) :
    spelled (trim (unitKey s)) = unitKey s := by
  obtain ⟨htwo, hthree⟩ := (not_hasLoneCaret_iff _).mp h
  have hdegree : (unitKey s).filter (· ≠ '°') = unitKey s :=
    List.filter_eq_self.mpr fun c hc => by simpa using (isKeyChar_of_mem_unitKey hc).not_degree
  have hwords : mapWords unitWord (unitKey s) = unitKey s :=
    mapRuns_eq_self (unitWord_of_mem_runs_unitKey s)
  rw [spelled, carets_of_unitKey, htwo, hthree, hdegree, hwords]

/-- No punctuation is left in a key. -/
theorem map_unitPunctuation_unitKey (s : List Char) :
    (unitKey s).map unitPunctuation = unitKey s :=
  map_eq_self fun _ hc => (isKeyChar_of_mem_unitKey hc).unitPunctuation_eq

/-- The last steps change nothing about a key. -/
theorem trim_squeeze_joinExponents_unitKey (s : List Char) :
    trim (squeeze (joinExponents (unitKey s))) = unitKey s := by
  rw [unitKey_eq, joinExponents_trim, joinExponents_squeeze, joinExponents_joinExponents,
    squeeze_trim, squeeze_squeeze, trim_trim]

/-- **A settled key is its own key.** -/
theorem IsSettled.unitKey_eq {s : List Char} (h : IsSettled (unitKey s)) :
    unitKey (unitKey s) = unitKey s := by
  rw [Alias.unitKey_eq (unitKey s), unitForm_eq, spelled_unitKey h.no_caret,
    h.isTight.tightenSlashes_eq, map_unitPunctuation_unitKey, trim_squeeze_joinExponents_unitKey]

/-- No word is replaced by a longer one. -/
theorem length_unitWord_le (w : List Char) : (unitWord w).length ≤ w.length := by
  have hreplaced : (replacedWords.all fun w => (unitWord w).length ≤ w.length) = true := by decide
  by_cases hmem : w ∈ replacedWords
  · exact of_decide_eq_true (List.all_eq_true.mp hreplaced w hmem)
  · rw [unitWord_eq_self hmem]

/-- Squeezing blanks makes no text longer. -/
theorem length_squeeze_le (s : List Char) : (squeeze s).length ≤ s.length :=
  length_mapRuns_le (f := fun _ => [' ']) (fun _ hne => List.length_pos_iff.mpr hne) s

/-- The steps behind the slashes make no text longer. -/
theorem length_unitKey_le (s : List Char) :
    (unitKey s).length ≤ (tightenSlashes (spelled (trim s))).length := by
  have htrim := (trim_sublist (squeeze (joinExponents (unitForm s)))).length_le
  have hsqueeze := length_squeeze_le (joinExponents (unitForm s))
  have hjoin := (joinExponentsFrom_sublist false (unitForm s)).length_le
  rw [unitKey_eq]
  refine (htrim.trans hsqueeze).trans (hjoin.trans ?_)
  rw [unitForm_eq, List.length_map]

/-- Spelling makes a text longer only where lowering it does. -/
theorem length_spelled_le (s : List Char) :
    (spelled s).length ≤ (dropCarets '3' (dropCarets '2' ((lower s).map plainChar))).length :=
  (length_mapRuns_le (fun w _ => length_unitWord_le w) _).trans (List.length_filter_le _ _)

/-- **Only settled keys are their own keys**: with every caret that is dropped, and with every slash
    that is not tight, the key of a key is shorter. -/
theorem isSettled_of_unitKey_eq {s : List Char} (h : unitKey (unitKey s) = unitKey s) :
    IsSettled (unitKey s) := by
  -- No step makes a text longer, so that none makes a key shorter that is its own key.
  have hkey := length_unitKey_le (unitKey s)
  have htight := length_tightenSlashes_le (spelled (trim (unitKey s)))
  have hspelled := length_spelled_le (trim (unitKey s))
  rw [carets_of_unitKey] at hspelled
  rw [h] at hkey
  have htwo := dropCarets_sublist '2' (unitKey s)
  have hthree := dropCarets_sublist '3' (dropCarets '2' (unitKey s))
  have htwo_eq : dropCarets '2' (unitKey s) = unitKey s := by
    refine htwo.eq_of_length_le ?_
    have := hthree.length_le
    omega
  rw [htwo_eq] at hthree hspelled
  have hthree_eq : dropCarets '3' (unitKey s) = unitKey s := hthree.eq_of_length_le (by omega)
  have hcaret := (not_hasLoneCaret_iff _).mpr ⟨htwo_eq, hthree_eq⟩
  rw [spelled_unitKey hcaret] at hkey
  exact ⟨hcaret, .of_length hkey⟩

/-! ### Phrases with settled keys -/

/-- The characters that may leave something behind: the caret and the marks that become spaces. -/
def unsettling : List Char := ['^', '(', ')', ',', '-']

/-- **A phrase without carets and marks has a settled key.** -/
theorem isSettled_unitKey {s : List Char} (hs : ∀ c ∈ s, c ∉ unsettling) :
    IsSettled (unitKey s) := by
  have hletters : ∀ c ∈ "sqcu/".toList, c ∉ unsettling := List.all_iff_forall_prop.mp (by decide)
  have hdigits : ∀ c ∈ ['u', '2', '3'], c ∉ unsettling := List.all_iff_forall_prop.mp (by decide)
  have hforms : ∀ m ∈ unsettling, m ∉ ownForms ∧ m.toNat ≠ 0 ∧
      preimages lowerRuns m.toNat = [] := List.all_iff_forall_prop.mp (by decide +kernel)
  have hspace : ' ' ∉ unsettling := by decide
  -- Such a sign in lower case is the sign itself.
  have hlower : ∀ c ∈ (lower (trim s)).map plainChar, c ≠ '°' → c ∉ unsettling := by
    intro c hc _ hmem
    obtain ⟨d, hd, rfl⟩ := List.mem_map.mp hc
    obtain hplain | hplain := plainChar_mem_or_eq d
    · exact hdigits _ hplain hmem
    · rw [hplain] at hmem
      obtain ⟨hown, hne, hpre⟩ := hforms d hmem
      exact hs d (trim_subset s (mem_of_mem_lower hown hne hpre hd)) hmem
  have hmarks : ∀ c, c ∉ unsettling → unitPunctuation c ∉ unsettling := fun c hc =>
    (unitPunctuation_eq_or c).elim (fun h => h ▸ hspace) fun h => by rwa [h]
  have hkey : ∀ c ∈ unitKey s, c ∉ unsettling := forall_mem_unitKey hletters hmarks hspace hlower
  have hform : unitForm s = tightenSlashes (spelled (trim s)) := by
    refine map_eq_self fun c hc => ?_
    exact if_neg fun hmark =>
      forall_mem_tightenSlashes hletters hlower c hc (List.mem_cons_of_mem '^' hmark)
  constructor
  · rintro ⟨before, behind, heq, -⟩
    exact hkey '^' (by rw [heq]; simp) (by decide)
  · rw [Alias.unitKey_eq, hform]
    exact (((isTight_tightenSlashes _).joinExponentsFrom false).squeeze).trim

/-- A key without carets and slashes is settled. -/
theorem isSettled_of_not_mem {s : List Char} (hs : ∀ c ∈ s, c ∉ ['^', '/']) : IsSettled s := by
  constructor
  · rintro ⟨before, behind, rfl, -⟩
    exact hs '^' (by simp) (by simp)
  · refine List.isChain_iff_forall_rel_of_append_cons_cons.mpr ?_
    rintro a b before behind rfl _ _
    have hne : ∀ c ∈ before ++ a :: b :: behind, c ≠ '/' := fun c hc h => hs c hc (by simp [h])
    exact ⟨hne a (by simp), hne b (by simp)⟩

/-- The names of units have no caret or mark, or else no caret or slash is in their keys. -/
theorem unsettling_of_names : (unitNames.all fun entry =>
    (charsOf entry.1).all (· ∉ unsettling) ||
      (unitKey (charsOf entry.1)).all (· ∉ ['^', '/'])) = true := by
  decide +kernel

/-- **A phrase that names a unit has a settled key.** -/
theorem isSettled_of_unit? {phrase : String} {x : Dimension × Measure}
    (h : unit? phrase = some x) : IsSettled (unitKey phrase.toList) := by
  obtain ⟨name, hname, hkey⟩ := exists_of_lookup_tableOf h
  rw [← String.ofList_injective hkey]
  have hchecked := List.all_eq_true.mp unsettling_of_names _ hname
  rw [charsOf_eq, Bool.or_eq_true] at hchecked
  obtain hchars | hchars := hchecked
  · exact isSettled_unitKey fun c hc => of_decide_eq_true (List.all_eq_true.mp hchars c hc)
  · exact isSettled_of_not_mem fun c hc => of_decide_eq_true (List.all_eq_true.mp hchars c hc)

/-! ### Which keys are their own keys -/

/-- **A key is its own key exactly if it is settled**: no caret stands before an exponent in it, and
    no blank beside a slash.  Phrases without carets and marks have such keys, and so has every
    phrase that names a unit, which its key names, too. -/
theorem unitKey_unitKey_iff (s : List Char) :
    (unitKey (unitKey s) = unitKey s ↔ IsSettled (unitKey s)) ∧
      ((∀ c ∈ s, c ∉ unsettling) → IsSettled (unitKey s)) ∧
      ∀ x, unit? (String.ofList s) = some x →
        IsSettled (unitKey s) ∧ unit? (String.ofList (unitKey s)) = some x := by
  refine ⟨⟨isSettled_of_unitKey_eq, IsSettled.unitKey_eq⟩, isSettled_unitKey, fun x hx => ?_⟩
  have hsettled := isSettled_of_unit? hx
  rw [String.toList_ofList] at hsettled
  refine ⟨hsettled, ?_⟩
  unfold unit? at hx ⊢
  rwa [String.toList_ofList, hsettled.unitKey_eq, ← String.toList_ofList (l := s)]

/-- A metre has a settled key, and its key names it. -/
theorem unitKey_unitKey_metre : (∀ c ∈ "metre".toList, c ∉ unsettling) ∧
    IsSettled (unitKey "metre".toList) ∧
      unitKey (unitKey "metre".toList) = unitKey "metre".toList :=
  have hchars : ∀ c ∈ "metre".toList, c ∉ unsettling := List.all_iff_forall_prop.mp (by decide)
  have hkey := unitKey_unitKey_iff "metre".toList
  ⟨hchars, hkey.2.1 hchars, hkey.1.mpr (hkey.2.1 hchars)⟩

/-- A bracket beside a slash leaves a space there, which is gone in the key of the key. -/
theorem unitKey_unitKey_bracket :
    unitKey (unitKey "m/(s)".toList) ≠ unitKey "m/(s)".toList := by
  decide +kernel

end Reckoner.Alias
