import Mathlib.Data.List.Chain
import Mathlib.Data.Option.Basic
import Reckoner.Proofs.Alias.Exponents

/-!
# The last steps of a key

The last steps of a key only drop and replace blanks: those before an exponent are dropped, the
others become single spaces, and those at the ends go.  The steps do not get into each other's way,
so that each of them, done once more, changes nothing.

* `joinExponents_joinExponents` — exponents that are joined stay joined,
* `joinExponents_squeeze`, `joinExponents_trim` — also between single spaces and in a trimmed text.
* `forall_mem_runs_joinExponents` — the words of a text with joined exponents.
* `IsTight` — texts in which nothing but a slash stands where a slash is.
-/

namespace Reckoner.Alias

open Reckoner.Text Reckoner.Query

/-! ### Exponents behind letters -/

/-- Only the first character behind a digit decides whether it is an exponent. -/
theorem startsWithExponent_congr {s t : List Char}
    (h : s.head?.any isWordChar = t.head?.any isWordChar) (c : Char) :
    startsWithExponent (c :: s) = startsWithExponent (c :: t) := by
  simp only [startsWithExponent, startsWithLone, h]

/-- No text of blanks begins with an exponent. -/
theorem joinExponentsFrom_of_blanks {blanks : List Char} (h : ∀ c ∈ blanks, isBlank c = true)
    (afterLetter : Bool) : joinExponentsFrom afterLetter blanks = blanks := by
  have hnil : StartsInText [] := fun _ hc => absurd hc (by simp)
  have hblanks := joinExponentsFrom_append_blanks h hnil afterLetter
  have hnone : startsWithExponent [] = false := rfl
  rw [hnone, Bool.and_false, if_neg (by simp), List.append_nil] at hblanks
  exact hblanks.trans (List.append_nil blanks)

/-- **Blanks before a character**, and what stands behind it. -/
theorem joinExponentsFrom_append_cons {blanks : List Char} (h : ∀ c ∈ blanks, isBlank c = true)
    {c : Char} (hc : isBlank c = false) (afterLetter : Bool) (s : List Char) :
    joinExponentsFrom afterLetter (blanks ++ c :: s) =
      (if afterLetter && startsWithExponent (c :: s) then [] else blanks) ++
        c :: joinExponentsFrom c.isLower s := by
  have hstart : StartsInText (c :: s) := fun d hd => Option.some.inj hd ▸ hc
  rw [joinExponentsFrom_append_blanks h hstart, joinExponentsFrom_cons hc]

/-- The first character of a text is left where it is. -/
theorem joinExponents_cons (c : Char) (s : List Char) :
    joinExponents (c :: s) = c :: joinExponentsFrom c.isLower s := by
  cases hc : isBlank c with
  | false => exact joinExponentsFrom_cons hc false s
  | true =>
    have hlower : c.isLower = false := Bool.eq_false_iff.mpr fun hlower => by
      rw [isBlank_eq_false (isWordChar_of_isLower hlower)] at hc
      cases hc
    rw [joinExponents, joinExponentsFrom_blank hc, hlower]
    rfl

/-- Nothing is dropped from the head of a text that no letter precedes. -/
theorem head?_joinExponents (s : List Char) : (joinExponents s).head? = s.head? := by
  cases s with
  | nil => rfl
  | cons c s => rw [joinExponents_cons, List.head?_cons, List.head?_cons]

/-- What is an exponent stays one. -/
theorem startsWithExponent_joinExponentsFrom (c : Char) (s : List Char) :
    startsWithExponent (c :: joinExponentsFrom c.isLower s) = startsWithExponent (c :: s) := by
  cases hlower : c.isLower with
  | false => exact startsWithExponent_congr (by rw [← joinExponents, head?_joinExponents]) c
  | true =>
    have hne := not_mem_exponents_of_isLower hlower
    have hnone : ∀ t, startsWithExponent (c :: t) = false := by
      intro t
      simp only [List.mem_cons, List.not_mem_nil, or_false, not_or] at hne
      simp [startsWithExponent, startsWithLone, hne.1, hne.2]
    rw [hnone, hnone]

/-- **Exponents that are joined are not joined again.** -/
theorem joinExponentsFrom_joinExponentsFrom (afterLetter : Bool) (s : List Char) :
    joinExponentsFrom afterLetter (joinExponentsFrom afterLetter s) =
      joinExponentsFrom afterLetter s := by
  induction s using byRuns isBlank generalizing afterLetter with
  | run w hw => rw [joinExponentsFrom_of_blanks hw, joinExponentsFrom_of_blanks hw]
  | cut w c s hw hc ih =>
    rw [joinExponentsFrom_append_cons hw hc]
    cases hjoin : afterLetter && startsWithExponent (c :: s) with
    | true =>
      have halone := joinExponentsFrom_cons hc afterLetter (joinExponentsFrom c.isLower s)
      rw [if_pos rfl, List.nil_append, halone, ih]
    | false =>
      rw [if_neg (by simp), joinExponentsFrom_append_cons hw hc, ih,
        startsWithExponent_joinExponentsFrom, hjoin, if_neg (by simp)]

/-- **Exponents that are joined stay joined.** -/
theorem joinExponents_joinExponents (s : List Char) :
    joinExponents (joinExponents s) = joinExponents s :=
  joinExponentsFrom_joinExponentsFrom false s

/-! ### Single spaces and ends -/

/-- The first character is left, or is a single space. -/
theorem head?_squeeze (s : List Char) :
    (squeeze s).head? = s.head?.map fun c => if isBlank c then ' ' else c := by
  cases s with
  | nil => rfl
  | cons c s =>
    cases hc : isBlank c with
    | false =>
      have hcut : squeeze (c :: s) = c :: squeeze s := mapRuns_cons_of_not hc s
      simp [hcut, hc]
    | true =>
      obtain ⟨_, rest, heq⟩ := exists_mapRuns_cons hc (fun _ => [' ']) s
      simp [squeeze, heq, hc]

/-- So it is in a word or not, as before. -/
theorem head?_squeeze_any (s : List Char) :
    (squeeze s).head?.any isWordChar = s.head?.any isWordChar := by
  rw [head?_squeeze, Option.any_map]
  refine congrArg (s.head?.any ·) (funext fun c => ?_)
  split_ifs with hc
  · rw [(isCut_of_isBlank hc).not_word, isCut_space.not_word]
  · rfl

/-- It does not matter whether blanks are squeezed before or after exponents are joined. -/
theorem joinExponentsFrom_squeeze (afterLetter : Bool) (s : List Char) :
    joinExponentsFrom afterLetter (squeeze s) = squeeze (joinExponentsFrom afterLetter s) := by
  induction s using byRuns isBlank generalizing afterLetter with
  | run w hw =>
    rw [joinExponentsFrom_of_blanks hw, joinExponentsFrom_of_blanks (isBlank_of_mem_squeeze hw)]
  | cut w c s hw hc ih =>
    rw [squeeze_append_cons hc, joinExponentsFrom_append_cons (isBlank_of_mem_squeeze hw) hc,
      joinExponentsFrom_append_cons hw hc, squeeze_append_cons hc, ih,
      startsWithExponent_congr (head?_squeeze_any s)]
    split_ifs <;> rfl

/-- **Exponents can be joined between single spaces.** -/
theorem joinExponents_squeeze (s : List Char) :
    joinExponents (squeeze s) = squeeze (joinExponents s) :=
  joinExponentsFrom_squeeze false s

/-- Trimming the end leaves the first character, or nothing where there are only blanks. -/
theorem head?_trimEnd_any (s : List Char) :
    (trimEnd s).head?.any isWordChar = s.head?.any isWordChar := by
  cases s with
  | nil => rfl
  | cons c s =>
    cases hc : isBlank c with
    | false => rw [trimEnd_cons hc, List.head?_cons, List.head?_cons]
    | true =>
      -- A blank at the head is there or not, and is no word character.
      have hsub : ∀ d ∈ (trimEnd (c :: s)).head?, d = c := by
        intro d hd
        obtain ⟨blanks, hs, -⟩ := exists_blanks_behind (c :: s)
        obtain ⟨r, hr⟩ := List.head?_eq_some_iff.mp hd
        rw [hr] at hs
        exact (List.cons.inj hs).1
      rw [List.head?_cons, Option.any_some, (isCut_of_isBlank hc).not_word]
      cases hhead : (trimEnd (c :: s)).head? with
      | none => rfl
      | some d => rw [Option.any_some, hsub d hhead, (isCut_of_isBlank hc).not_word]

/-- Nor does it matter whether the end is trimmed before or after that. -/
theorem joinExponentsFrom_trimEnd (afterLetter : Bool) (s : List Char) :
    joinExponentsFrom afterLetter (trimEnd s) = trimEnd (joinExponentsFrom afterLetter s) := by
  induction s using byRuns isBlank generalizing afterLetter with
  | run w hw =>
    rw [joinExponentsFrom_of_blanks hw, trimEnd_of_blanks hw]
    rfl
  | cut w c s hw hc ih =>
    rw [trimEnd_append_cons hc, joinExponentsFrom_append_cons hw hc,
      joinExponentsFrom_append_cons hw hc, trimEnd_append_cons hc, ih,
      startsWithExponent_congr (head?_trimEnd_any s)]

/-- Nor whether the head is. -/
theorem joinExponents_trimStart (s : List Char) :
    joinExponents (trimStart s) = trimStart (joinExponents s) := by
  induction s using byRuns isBlank with
  | run w hw =>
    rw [joinExponents, joinExponents, joinExponentsFrom_of_blanks hw, trimStart_of_blanks hw]
    rfl
  | cut w c s hw hc _ =>
    rw [trimStart_append_cons hc, trimStart_of_blanks hw, List.nil_append, joinExponents,
      joinExponents, joinExponentsFrom_append_cons hw hc, Bool.false_and, if_neg (by simp),
      trimStart_append_cons hc, trimStart_of_blanks hw, joinExponentsFrom_cons hc, List.nil_append]

/-- **Exponents can be joined in a trimmed text.** -/
theorem joinExponents_trim (s : List Char) : joinExponents (trim s) = trim (joinExponents s) := by
  rw [trim, joinExponents, joinExponentsFrom_trimEnd, ← joinExponents, joinExponents_trimStart,
    trim]

/-- Joining leaves blanks out and puts nothing in. -/
theorem joinExponentsFrom_sublist (afterLetter : Bool) (s : List Char) :
    (joinExponentsFrom afterLetter s).Sublist s := by
  induction s generalizing afterLetter with
  | nil => exact .slnil
  | cons c s ih =>
    cases hc : isBlank c with
    | false =>
      rw [joinExponentsFrom_cons hc]
      exact (ih _).cons_cons c
    | true =>
      rw [joinExponentsFrom_blank hc]
      split_ifs
      · exact (ih _).cons c
      · exact (ih _).cons_cons c

/-! ### Words -/

/-- A text that begins with an exponent, taken apart. -/
theorem exists_of_startsWithExponent {s : List Char} (h : startsWithExponent s = true) :
    ∃ p ∈ exponents, ∃ t, s = p.1 :: t ∧ ∀ c ∈ t.head?, isWordChar c = false := by
  have hlone : ∀ {digit}, startsWithLone digit s = true →
      ∃ t, s = digit :: t ∧ ∀ c ∈ t.head?, isWordChar c = false := by
    intro digit h
    cases s with
    | nil => cases h
    | cons c s =>
      obtain ⟨rfl, hnext⟩ := (startsWithLone_cons digit c s).mp h
      refine ⟨s, rfl, fun d hd => ?_⟩
      rwa [hd, Option.any_some] at hnext
  obtain htwo | hthree := (Bool.or_eq_true _ _).mp h
  · exact ⟨('2', '²'), by decide, hlone htwo⟩
  · exact ⟨('3', '³'), by decide, hlone hthree⟩

/-- The words of a text with an exponent behind it are its words, those of the exponent, and words
    that end in one. -/
theorem forall_mem_runs_append_exponent {Q : List Char → Prop}
    (hQ : ∀ p ∈ exponents, ∀ w, Q (w ++ [p.1])) {s t : List Char}
    (hs : ∀ w ∈ runs isWordChar s, Q w) (ht : ∀ w ∈ runs isWordChar t, Q w)
    (hexponent : startsWithExponent (trimStart t) = true) :
    ∀ w ∈ runs isWordChar (s ++ t), Q w := by
  obtain ⟨p, hp, r, hr, hnext⟩ := exists_of_startsWithExponent hexponent
  have hword : ∀ p ∈ exponents, isWordChar p.1 = true := by decide
  obtain ⟨blanks, hsplit, hblanks⟩ := exists_blanks t
  have hnone : ∀ c ∈ blanks, isWordChar c = false := fun c hc =>
    (isCut_of_isBlank (hblanks c hc)).not_word
  by_cases hnil : blanks = []
  -- Without blanks the exponent joins the last word before it.
  · rw [hnil, hr, List.nil_append] at hsplit
    rw [← hsplit, ← List.singleton_append, runs_append_of_head? hnext, List.forall_mem_append] at ht
    rw [← hsplit, List.append_cons, runs_append_of_head? hnext, List.forall_mem_append]
    refine ⟨fun w hw => ?_, ht.2⟩
    obtain hw | ⟨v, rfl⟩ := of_mem_runs_concat (hword p hp) hw
    · exact hs w hw
    · exact hQ p hp v
  · have hgap := fun s => runs_append_gap hnone hnil s (trimStart t)
    have halone := hgap []
    rw [List.nil_append, hsplit, runs_nil, List.nil_append] at halone
    rw [← hsplit, hgap, ← halone]
    exact List.forall_mem_append.mpr ⟨hs, ht⟩

/-- **The words of a text with joined exponents** are its words, and words that end in an
    exponent. -/
theorem forall_mem_runs_joinExponentsFrom {Q : List Char → Prop}
    (hQ : ∀ p ∈ exponents, ∀ w, Q (w ++ [p.1])) (afterLetter : Bool) {s t : List Char}
    (h : ∀ w ∈ runs isWordChar (s ++ t), Q w) :
    ∀ w ∈ runs isWordChar (s ++ joinExponentsFrom afterLetter t), Q w := by
  -- What has been passed is part of the text before, since an exponent may join its last word.
  induction t generalizing afterLetter s with
  | nil => exact h
  | cons c t ih =>
    cases hc : isBlank c with
    | false =>
      rw [joinExponentsFrom_cons hc, List.append_cons]
      exact ih _ (by rwa [← List.append_cons])
    | true =>
      have hword := (isCut_of_isBlank hc).not_word
      rw [runs_append_cons hword, List.forall_mem_append] at h
      rw [joinExponentsFrom_blank hc]
      split_ifs with hjoin
      · have hexponent := ((Bool.and_eq_true _ _).mp hjoin).2
        exact ih _ (forall_mem_runs_append_exponent hQ h.1 h.2 hexponent)
      · rw [runs_append_cons hword, List.forall_mem_append]
        exact ⟨h.1, ih (s := []) _ h.2⟩

/-- A property of words that all words with an exponent at their end have is kept when exponents are
    joined. -/
theorem forall_mem_runs_joinExponents {Q : List Char → Prop}
    (hQ : ∀ p ∈ exponents, ∀ w, Q (w ++ [p.1])) {s : List Char}
    (h : ∀ w ∈ runs isWordChar s, Q w) : ∀ w ∈ runs isWordChar (joinExponents s), Q w :=
  forall_mem_runs_joinExponentsFrom (s := []) hQ false h

/-! ### Slashes -/

/-- Two neighbours of which neither is a slash beside a blank or beside another slash. -/
def AreTight (a b : Char) : Prop :=
  isSlashOrBlank a = true → isSlashOrBlank b = true → a ≠ '/' ∧ b ≠ '/'

/-- A text in which no slash stands beside a blank or another slash. -/
def IsTight (s : List Char) : Prop := s.IsChain AreTight

instance (a b : Char) : Decidable (AreTight a b) := inferInstanceAs (Decidable (_ → _ → _))

instance (s : List Char) : Decidable (IsTight s) := inferInstanceAs (Decidable (s.IsChain AreTight))

/-- Behind a blank, only a slash is not tight. -/
theorem areTight_of_blank_left {a b : Char} (ha : isBlank a = true) : AreTight a b ↔ b ≠ '/' := by
  have hne : a ≠ '/' := by
    rintro rfl
    exact absurd ha (by decide)
  have hcut : isSlashOrBlank a = true := by rw [isSlashOrBlank, ha, Bool.or_true]
  refine ⟨fun h => ?_, fun h _ _ => ⟨hne, h⟩⟩
  rintro rfl
  exact (h hcut (by decide)).2 rfl

/-- Before a blank, too, only a slash is not tight. -/
theorem areTight_of_blank_right {a b : Char} (hb : isBlank b = true) : AreTight a b ↔ a ≠ '/' := by
  have hne : b ≠ '/' := by
    rintro rfl
    exact absurd hb (by decide)
  have hcut : isSlashOrBlank b = true := by rw [isSlashOrBlank, hb, Bool.or_true]
  refine ⟨fun h => ?_, fun h _ _ => ⟨h, hne⟩⟩
  rintro rfl
  exact (h (by decide) hcut).1 rfl

/-- When exponents are joined, what stands at the head of a text is the same or an exponent. -/
theorem head?_joinExponentsFrom (afterLetter : Bool) (s : List Char) :
    (joinExponentsFrom afterLetter s).head? = s.head? ∨
      ∃ p ∈ exponents, (joinExponentsFrom afterLetter s).head? = some p.1 := by
  cases s with
  | nil => exact .inl rfl
  | cons c s =>
    cases hc : isBlank c with
    | false =>
      rw [joinExponentsFrom_cons hc]
      exact .inl rfl
    | true =>
      rw [joinExponentsFrom_blank hc]
      split_ifs with hjoin
      · -- The blanks are dropped, so that the exponent comes first.
        obtain ⟨hletter, hexponent⟩ := (Bool.and_eq_true _ _).mp hjoin
        obtain ⟨blanks, hsplit, hblanks⟩ := exists_blanks s
        obtain ⟨p, hp, t, ht, -⟩ := exists_of_startsWithExponent hexponent
        have hnot : ∀ p ∈ exponents, isBlank p.1 = false := by decide
        rw [ht] at hsplit hexponent
        rw [← hsplit, joinExponentsFrom_append_cons hblanks (hnot p hp), hletter, hexponent]
        exact .inr ⟨p, hp, rfl⟩
      · exact .inl rfl

namespace IsTight

variable {s : List Char}

/-- **A tight text stays tight when exponents are joined**, for none is a blank or a slash. -/
theorem joinExponentsFrom (hs : IsTight s) (afterLetter : Bool) :
    IsTight (joinExponentsFrom afterLetter s) := by
  have hexponents : ∀ p ∈ exponents, ∀ c, AreTight c p.1 := fun p hp c _ hcut => by
    have hnot : ∀ p ∈ exponents, isSlashOrBlank p.1 = false := by decide
    rw [hnot p hp] at hcut
    cases hcut
  induction s generalizing afterLetter with
  | nil => exact hs
  | cons c s ih =>
    obtain ⟨hhead, hs⟩ := List.isChain_cons.mp hs
    have hkept : ∀ afterLetter, IsTight (c :: Alias.joinExponentsFrom afterLetter s) := by
      intro afterLetter
      refine List.isChain_cons.mpr ⟨fun d hd => ?_, ih hs afterLetter⟩
      -- What follows the character is what followed it before, or an exponent, which is no slash.
      obtain hsame | ⟨p, hp, hexponent⟩ := head?_joinExponentsFrom afterLetter s
      · exact hhead d (hsame ▸ hd)
      · rw [hexponent] at hd
        exact Option.some.inj hd ▸ hexponents p hp c
    cases hc : isBlank c with
    | false => exact joinExponentsFrom_cons hc _ _ ▸ hkept _
    | true =>
      rw [joinExponentsFrom_blank hc]
      split_ifs
      · exact ih hs _
      · exact hkept _

/-- **A tight text stays tight with single spaces.** -/
theorem squeeze (hs : IsTight s) : IsTight (squeeze s) := by
  have hspace : isBlank ' ' = true := by decide
  induction s using byRuns isBlank with
  | run w hw =>
    by_cases hne : w = []
    · rw [hne]
      exact .nil
    · rw [Text.squeeze, mapRuns_of_forall hw hne]
      exact List.isChain_singleton _
  | cut w c s hw hc ih =>
    obtain ⟨hblanks, hrest, hlast⟩ := List.isChain_append.mp hs
    obtain ⟨hhead, hs⟩ := List.isChain_cons.mp hrest
    -- A single space stands for its run: next to it, too, there is no slash.
    have hbehind : IsTight (c :: Text.squeeze s) := by
      refine List.isChain_cons.mpr ⟨fun d hd => ?_, ih hs⟩
      rw [head?_squeeze] at hd
      obtain ⟨e, he, rfl⟩ := Option.mem_map.mp hd
      have htight := hhead e he
      split_ifs with hblank
      · exact (areTight_of_blank_right hspace).mpr ((areTight_of_blank_right hblank).mp htight)
      · exact htight
    rw [squeeze_append_cons hc]
    by_cases hne : w = []
    · rw [hne]
      exact hbehind
    · have hend := List.getLast?_eq_getLast_of_ne_nil hne
      have htight := (areTight_of_blank_left (hw _ (List.getLast_mem hne))).mp (hlast _ hend c rfl)
      rw [Text.squeeze, mapRuns_of_forall hw hne, List.singleton_append]
      refine List.isChain_cons.mpr ⟨fun d hd => ?_, hbehind⟩
      exact Option.some.inj hd ▸ (areTight_of_blank_left hspace).mpr htight

/-- A part of a tight text is tight. -/
theorem trim (hs : IsTight s) : IsTight (trim s) := List.IsChain.infix hs (isInfix_trim s)

end IsTight

/-- Tightening slashes makes no text longer. -/
theorem length_tightenSlashes_le (s : List Char) : (tightenSlashes s).length ≤ s.length := by
  refine length_mapRuns_le (fun w _ => ?_) s
  split_ifs with hslash
  · exact List.length_pos_of_mem hslash
  · exact Nat.le_refl _

/-- **A text that is not tight gets shorter.** -/
theorem IsTight.of_length {s : List Char} (h : s.length ≤ (tightenSlashes s).length) :
    IsTight s := by
  refine List.isChain_iff_forall_rel_of_append_cons_cons.mpr ?_
  rintro a b before behind rfl ha hb
  -- If a slash and a blank stood together, they would become one slash, and the text shorter.
  by_contra hslash
  have hshort : tightenSlashes (before ++ a :: b :: behind) =
      tightenSlashes (before ++ '/' :: behind) := by
    have hnone : ∀ c ∈ ([] : List Char), isSlashOrBlank c = true := by simp
    by_cases hslash' : a = '/'
    · subst hslash'
      exact tightenSlashes_append_slash hnone (List.forall_mem_singleton.mpr hb) before behind
    · have hb' : b = '/' := not_not.mp fun hne => hslash ⟨hslash', hne⟩
      subst hb'
      exact tightenSlashes_append_slash (List.forall_mem_singleton.mpr ha) hnone before behind
  have hle := length_tightenSlashes_le (before ++ '/' :: behind)
  rw [← hshort] at hle
  simp only [List.length_append, List.length_cons] at h hle
  omega

/-- **A tight text stays as it is.** -/
theorem IsTight.tightenSlashes_eq {s : List Char} (hs : IsTight s) : tightenSlashes s = s := by
  have hcut : isSlashOrBlank '/' = true := by decide
  refine mapRuns_eq_self fun w hw => ?_
  obtain ⟨hall, hpart⟩ := of_mem_runs hw
  split_ifs with hslash
  · obtain ⟨before, behind, rfl⟩ := List.append_of_mem hslash
    -- A neighbour of the slash in the run would be a blank or a slash.
    have hrun := List.IsChain.infix hs hpart
    have hchain := List.isChain_iff_forall_rel_of_append_cons_cons.mp hrun
    obtain rfl | ⟨before, a, rfl⟩ := List.eq_nil_or_concat' before
    · cases behind with
      | nil => rfl
      | cons b behind =>
        have hpair : [] ++ '/' :: b :: behind = ([] : List Char) ++ '/' :: b :: behind := rfl
        exact absurd rfl (hchain hpair hcut (hall b (by simp))).1
    · have hpair : before ++ [a] ++ '/' :: behind = before ++ a :: '/' :: behind := by simp
      exact absurd rfl (hchain hpair (hall a (by simp)) hcut).2
  · rfl

/-- **What is tightened is tight.** -/
theorem isTight_tightenSlashes (s : List Char) : IsTight (tightenSlashes s) := by
  refine IsTight.of_length (Nat.le_of_eq (congrArg List.length (Eq.symm ?_)))
  refine mapRuns_eq_self (forall_mem_runs_mapRuns (Q := fun w =>
    (if '/' ∈ w then ['/'] else w) = w) (fun w hne hw => ?_) s)
  have hslash : ∀ c ∈ ['/'], isSlashOrBlank c = true := List.forall_mem_singleton.mpr (by decide)
  split_ifs with hmem
  · rw [runs_of_forall hslash (by simp), List.forall_mem_singleton, if_pos (by simp)]
  · rw [runs_of_forall hw hne, List.forall_mem_singleton, if_neg hmem]

end Reckoner.Alias
