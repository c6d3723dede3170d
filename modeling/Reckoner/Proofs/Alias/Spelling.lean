import Reckoner.Proofs.Alias.Openings
import Reckoner.Proofs.Text.Lowered
import Reckoner.Proofs.Text.Preimages

/-!
# Where keys can be cut

Most steps of the key of a unit look at no more than a word and the character behind it.  At a blank
or a slash they can be taken apart, so that what stands on one side has its form whatever stands on
the other.  The slash is the only thing that reaches over blanks: it takes in those on both sides.

* `spelled` — the first steps of a key: exponents, signs and words.
* `IsCut`, `spelled_append_cons` — blanks and slashes, where these steps can be cut.
* `tightenSlashes_append_slash` — the blanks around a slash do not count.
* `unitKey_per` — **the word `per` between blanks is a slash.**
-/

namespace Reckoner.Alias

open Reckoner.Text Reckoner.Query

/-! ### Exponents, signs and words -/

/-- A text with its letters in lower case, its exponents and signs in plain form, and its words
    replaced. -/
def spelled (s : List Char) : List Char :=
  mapWords unitWord
    ((dropCarets '3' (dropCarets '2' ((lower s).map plainChar))).filter (· ≠ '°'))

/-- The words are spelled first, and then the slashes and the punctuation are put in order. -/
theorem unitForm_eq (s : List Char) :
    unitForm s = (tightenSlashes (spelled (trim s))).map unitPunctuation := rfl

/-- A digit is no lone one if a word character stands behind it, and no text begins with two
    characters. -/
theorem startsWithLone_cons (digit c : Char) (s : List Char) :
    startsWithLone digit (c :: s) = true ↔ c = digit ∧ s.head?.any isWordChar = false := by
  simp [startsWithLone]

/-- Behind a text, another one changes nothing about what is a lone digit, unless the text ends in
    that digit and the other one begins with a word character. -/
theorem startsWithLone_append {digit : Char} {s t : List Char} (hs : s ≠ [])
    (h : t.head?.any isWordChar = true → ∀ c ∈ s.getLast?, c ≠ digit) :
    startsWithLone digit (s ++ t) = startsWithLone digit s := by
  cases s with
  | nil => exact absurd rfl hs
  | cons c s =>
    cases s with
    | cons d s => rfl
    | nil =>
      rw [Bool.eq_iff_iff, List.singleton_append, startsWithLone_cons, startsWithLone_cons]
      cases ht : t.head?.any isWordChar with
      | false => simp
      | true => simp [h ht c rfl]

/-- **Carets can be dropped in two parts of a text** if the second part begins with no lone digit
    and the first one does not end in a digit that the second one carries on. -/
theorem dropCarets_append {digit : Char} {s t : List Char} (ht : startsWithLone digit t = false)
    (h : t.head?.any isWordChar = true → ∀ c ∈ s.getLast?, c ≠ digit) :
    dropCarets digit (s ++ t) = dropCarets digit s ++ dropCarets digit t := by
  induction s with
  | nil => rfl
  | cons c s ih =>
    -- Whether the digit stands alone behind a caret does not show in `t`.
    have hlone : startsWithLone digit (s ++ t) = startsWithLone digit s := by
      by_cases hs : s = []
      · rw [hs, List.nil_append, ht]
        rfl
      · refine startsWithLone_append hs fun hword d hd => h hword d ?_
        rwa [List.getLast?_cons_of_ne_nil hs]
    have ih : dropCarets digit (s ++ t) = dropCarets digit s ++ dropCarets digit t := by
      refine ih fun hword d hd => h hword d ?_
      rw [List.getLast?_cons_of_ne_nil (List.ne_nil_of_mem (List.mem_of_getLast? hd))]
      exact hd
    rw [List.cons_append, dropCarets, dropCarets, hlone, ih]
    split_ifs <;> rfl

/-! ### Cuts -/

/-- **A character where the first steps of a key can be cut.** -/
structure IsCut (c : Char) : Prop extends IsCaseless c where
  not_word : isWordChar c = false
  plainChar_eq : plainChar c = c
  not_caret : c ≠ '^'
  not_degree : c ≠ '°'

instance (c : Char) : Decidable (IsCut c) :=
  decidable_of_iff (IsCaseless c ∧ isWordChar c = false ∧ plainChar c = c ∧ c ≠ '^' ∧ c ≠ '°')
    ⟨fun h => ⟨h.1, h.2.1, h.2.2.1, h.2.2.2.1, h.2.2.2.2⟩,
      fun h => ⟨h.1, h.2, h.3, h.4, h.5⟩⟩

/-- Blanks and the slash cut a text: nothing on one side of them depends on the other side. -/
theorem isCut_of_codes : ((0x2f :: codesOf blankRanges).all fun n =>
    decide (IsCut (Char.ofNat n))) = true := by
  decide +kernel

/-- **Keys can be cut at blanks and slashes.** -/
theorem isCut_of_isSlashOrBlank {c : Char} (h : isSlashOrBlank c = true) : IsCut c := by
  have hcode : c.toNat ∈ 0x2f :: codesOf blankRanges := by
    obtain hslash | hblank := (Bool.or_eq_true _ _).mp h
    · rw [beq_iff_eq.mp hslash]
      exact List.mem_cons_self
    · exact List.mem_cons_of_mem _ (mem_codesOf hblank)
  have hcut := of_decide_eq_true (List.all_eq_true.mp isCut_of_codes _ hcode)
  rwa [Char.ofNat_toNat] at hcut

/-- Every blank cuts a text. -/
theorem isCut_of_isBlank {c : Char} (h : isBlank c = true) : IsCut c :=
  isCut_of_isSlashOrBlank (by rw [isSlashOrBlank, h, Bool.or_true])

/-- No word character is a blank or a slash. -/
theorem isSlashOrBlank_eq_false {c : Char} (h : isWordChar c = true) :
    isSlashOrBlank c = false := by
  by_contra hcut
  rw [(isCut_of_isSlashOrBlank (eq_true_of_ne_false hcut)).not_word] at h
  cases h

/-- No character of a word is a blank. -/
theorem isBlank_eq_false {c : Char} (h : isWordChar c = true) : isBlank c = false :=
  (Bool.or_eq_false_iff.mp (isSlashOrBlank_eq_false h)).2

namespace IsCut

variable {c : Char} (hc : IsCut c)

include hc

/-- Carets on one side of such a character are dropped as if the other side were not there. -/
theorem dropCarets_append_cons {digit : Char} (hdigit : isWordChar digit = true)
    (s t : List Char) :
    dropCarets digit (s ++ c :: t) = dropCarets digit s ++ c :: dropCarets digit t := by
  have hne : c ≠ digit := by
    rintro rfl
    rw [hc.not_word] at hdigit
    cases hdigit
  have hlone : startsWithLone digit (c :: t) = false :=
    Bool.eq_false_iff.mpr fun h => hne ((startsWithLone_cons digit c t).mp h).1
  rw [dropCarets_append hlone (fun hword => absurd hword (by simp [hc.not_word])), dropCarets,
    if_neg (fun h => hc.not_caret h.1)]

/-- **Exponents, signs and words on either side of a cut.** -/
theorem spelled_append_cons (s t : List Char) :
    spelled (s ++ c :: t) = spelled s ++ c :: spelled t := by
  have htwo : isWordChar '2' = true := by decide
  have hthree : isWordChar '3' = true := by decide
  unfold spelled mapWords
  rw [lower_append_cons hc.toIsCaseless, List.map_append, List.map_cons, hc.plainChar_eq,
    hc.dropCarets_append_cons htwo, hc.dropCarets_append_cons hthree, List.filter_append,
    List.filter_cons_of_pos (by simpa using hc.not_degree), mapRuns_append_cons hc.not_word]

end IsCut

/-- A space cuts a text. -/
theorem isCut_space : IsCut ' ' := isCut_of_isBlank (by decide)

/-- A slash cuts a text. -/
theorem isCut_slash : IsCut '/' := isCut_of_isSlashOrBlank (by decide)

/-! ### Slashes -/

/-- Neither words nor blanks are punctuation. -/
theorem unitPunctuation_eq_self {c : Char} (h : isWordChar c = true ∨ isBlank c = true) :
    unitPunctuation c = c := by
  have hmarks : ∀ m ∈ ['(', ')', ',', '-'], isWordChar m = false ∧ isBlank m = false :=
    List.all_iff_forall_prop.mp (by decide)
  refine if_neg fun hmem => ?_
  obtain ⟨hword, hblank⟩ := hmarks c hmem
  rw [hword, hblank] at h
  simp at h

/-- What stands before a text may end in a run that goes on in it. -/
theorem mapRunsFrom_append_congr {p : Char → Bool} {f : List Char → List Char} {t t' : List Char}
    (h : ∀ run, mapRunsFrom p f run t = mapRunsFrom p f run t') (run s : List Char) :
    mapRunsFrom p f run (s ++ t) = mapRunsFrom p f run (s ++ t') := by
  induction s generalizing run with
  | nil => exact h run
  | cons c s ih => rw [List.cons_append, List.cons_append, mapRunsFrom, mapRunsFrom, ih, ih]

/-- A run of the class that has begun takes in the characters of the class that follow. -/
theorem mapRunsFrom_append_of_forall {p : Char → Bool} {f : List Char → List Char} {w : List Char}
    (hw : ∀ c ∈ w, p c = true) (run s : List Char) :
    mapRunsFrom p f run (w ++ s) = mapRunsFrom p f (w.reverse ++ run) s := by
  induction w generalizing run with
  | nil => rfl
  | cons c w ih =>
    obtain ⟨hc, hw⟩ := List.forall_mem_cons.mp hw
    rw [List.cons_append, mapRunsFrom, if_pos hc, ih hw, List.reverse_cons, List.append_assoc]
    rfl

/-- The slashes of a text behind blanks and slashes. -/
def tightenSlashesFrom (run s : List Char) : List Char :=
  mapRunsFrom isSlashOrBlank (fun run => if '/' ∈ run then ['/'] else run) run s

/-- A run with a slash is a slash, whatever else is in it. -/
theorem tightenSlashesFrom_congr {run run' : List Char} (hrun : '/' ∈ run) (hrun' : '/' ∈ run')
    (s : List Char) : tightenSlashesFrom run s = tightenSlashesFrom run' s := by
  have hchanged : ∀ {run}, '/' ∈ run →
      changedRun (fun run => if '/' ∈ run then ['/'] else run) run = ['/'] := by
    intro run h
    cases run with
    | nil => cases h
    | cons c run => exact if_pos (List.mem_reverse.mpr h)
  induction s generalizing run run' with
  | nil => exact (hchanged hrun).trans (hchanged hrun').symm
  | cons c s ih =>
    unfold tightenSlashesFrom at ih ⊢
    rw [mapRunsFrom, mapRunsFrom, hchanged hrun, hchanged hrun']
    split_ifs
    · exact ih (List.mem_cons_of_mem c hrun) (List.mem_cons_of_mem c hrun')
    · rfl

/-- Without a slash there is nothing to tighten. -/
theorem tightenSlashes_eq_self {s : List Char} (hs : '/' ∉ s) : tightenSlashes s = s :=
  mapRuns_eq_self fun _ hw => if_neg fun hslash => hs ((of_mem_runs hw).2.subset hslash)

/-- **Blanks and slashes around a slash do not count.** -/
theorem tightenSlashes_append_slash {before behind : List Char}
    (hbefore : ∀ c ∈ before, isSlashOrBlank c = true)
    (hbehind : ∀ c ∈ behind, isSlashOrBlank c = true) (s t : List Char) :
    tightenSlashes (s ++ (before ++ '/' :: (behind ++ t))) = tightenSlashes (s ++ '/' :: t) := by
  have hslash : ∀ c ∈ ['/'], isSlashOrBlank c = true := List.forall_mem_singleton.mpr (by decide)
  have hrun : ∀ c ∈ before ++ '/' :: behind, isSlashOrBlank c = true :=
    List.forall_mem_append.mpr ⟨hbefore, List.forall_mem_cons.mpr ⟨by decide, hbehind⟩⟩
  -- The text before may end in blanks, so that the run with the slash begins there.
  refine mapRunsFrom_append_congr (fun run => ?_) [] s
  have hwhole := mapRunsFrom_append_of_forall (f := fun run => if '/' ∈ run then ['/'] else run)
    hrun run t
  have halone := mapRunsFrom_append_of_forall (f := fun run => if '/' ∈ run then ['/'] else run)
    hslash run t
  rw [List.append_assoc, List.cons_append] at hwhole
  rw [List.singleton_append] at halone
  rw [hwhole, halone]
  exact tightenSlashesFrom_congr (by simp) (by simp) t

/-! ### The word `per` -/

/-- The word `per` is a slash, with the blanks around it. -/
theorem spelled_per : spelled "per".toList = ['/'] := by decide +kernel

/-- What stands before a space, without the blanks at its head, and the space, unless it is one of
    them. -/
theorem exists_spelled_trimStart_space (s : List Char) :
    ∃ blanks, (∀ c ∈ blanks, isSlashOrBlank c = true) ∧
      ∀ t, spelled (trimStart (s ++ [' ']) ++ t) =
        spelled (trimStart s) ++ (blanks ++ spelled t) := by
  rw [trimStart, List.dropWhile_append]
  split_ifs with hnil
  · refine ⟨[], by simp, fun t => ?_⟩
    rw [trimStart, List.isEmpty_iff.mp hnil]
    rfl
  · refine ⟨[' '], List.forall_mem_singleton.mpr (by decide), fun t => ?_⟩
    rw [List.append_assoc, List.singleton_append, isCut_space.spelled_append_cons]
    rfl

/-- What stands behind the word `per` and a space, without the blanks at its end. -/
theorem exists_spelled_per_trimEnd (t : List Char) :
    ∃ blanks, (∀ c ∈ blanks, isSlashOrBlank c = true) ∧
      spelled ("per".toList ++ trimEnd (' ' :: t)) = '/' :: (blanks ++ spelled (trimEnd t)) := by
  -- The space behind the word goes with the blanks at the end if nothing else is there.
  by_cases h : ∀ c ∈ t, isBlank c = true
  · refine ⟨[], by simp, ?_⟩
    rw [trimEnd_of_blanks h, trimEnd_of_blanks (List.forall_mem_cons.mpr ⟨by decide, h⟩)]
    exact spelled_per
  · refine ⟨[' '], List.forall_mem_singleton.mpr (by decide), ?_⟩
    push Not at h
    obtain ⟨c, hc, hblank⟩ := h
    obtain ⟨u, v, rfl⟩ := List.append_of_mem hc
    have hblank := Bool.eq_false_iff.mpr hblank
    rw [← List.cons_append, trimEnd_append_cons hblank, trimEnd_append_cons hblank,
      List.cons_append, isCut_space.spelled_append_cons, spelled_per]
    rfl

/-- **The word `per` between blanks and the slash are the same** in the key of a unit, whatever
    stands before and behind them. -/
theorem unitKey_per (s t : List Char) :
    unitKey (s ++ (" per ".toList ++ t)) = unitKey (s ++ '/' :: t) := by
  have hp : isBlank 'p' = false := by decide
  have hslash : isBlank '/' = false := by decide
  obtain ⟨before, hbefore, hleft⟩ := exists_spelled_trimStart_space s
  obtain ⟨behind, hbehind, hright⟩ := exists_spelled_per_trimEnd t
  have htrim : trim (s ++ (" per ".toList ++ t)) =
      trimStart (s ++ [' ']) ++ ("per".toList ++ trimEnd (' ' :: t)) := by
    have hcut := trim_append_cons hp (s ++ [' ']) ("er ".toList ++ t)
    have hword : trimEnd ("er ".toList ++ t) = "er".toList ++ trimEnd (' ' :: t) := by
      show trimEnd ('e' :: 'r' :: ' ' :: t) = 'e' :: 'r' :: trimEnd (' ' :: t)
      rw [trimEnd_cons (by decide), trimEnd_cons (by decide)]
    rw [hword, List.append_assoc] at hcut
    exact hcut
  -- In both texts a slash stands between the same sides, with blanks around it in the first one.
  have hform : unitForm (s ++ (" per ".toList ++ t)) = unitForm (s ++ '/' :: t) := by
    rw [unitForm_eq, unitForm_eq, htrim, hleft, hright, trim_append_cons hslash,
      isCut_slash.spelled_append_cons, tightenSlashes_append_slash hbefore hbehind]
  rw [unitKey_eq, unitKey_eq, hform]

end Reckoner.Alias
