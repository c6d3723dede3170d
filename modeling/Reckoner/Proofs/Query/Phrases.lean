import Mathlib.Data.List.DropRight
import Mathlib.Data.List.TakeWhile
import Reckoner.Proofs.Query.Grammar
import Reckoner.Proofs.Text.LetterCase

/-!
# Finding separators and phrases

What is found behind the amount of a query is a first phrase, a separator and a second phrase of the
grammar, and they are found wherever they are.  Blanks between the separator and the second phrase
could belong to either; they are counted to the separator, which changes the second phrase by
blanks at its ends only.

* `separator?_eq_some` — what is found is a separator of the grammar.
* `targetPhrase?_of_isSeparator` — a phrase behind a separator is found, up to blanks at its ends.
* `phrasePair?_eq_some`, `phrasePair?_eq_none` — the first phrase that is found is the shortest one.
-/

namespace Reckoner.Query

open Reckoner.Text

/-! ### Blanks -/

/-- Blanks at the head are trimmed as a whole. -/
theorem trimStart_append_of_blanks {s : List Char} (h : ∀ c ∈ s, isBlank c = true)
    (t : List Char) : trimStart (s ++ t) = trimStart t :=
  List.dropWhile_append_of_pos h

/-- Nothing is trimmed before a character that is no blank. -/
theorem trimStart_cons_of_not_blank {c : Char} (h : isBlank c = false) (s : List Char) :
    trimStart (c :: s) = c :: s :=
  List.dropWhile_cons_of_neg (by rw [h]; decide)

/-- A text is the blanks at its head and the rest. -/
theorem exists_blanks (s : List Char) :
    ∃ blanks, blanks ++ trimStart s = s ∧ ∀ c ∈ blanks, isBlank c = true :=
  ⟨s.takeWhile isBlank, List.takeWhile_append_dropWhile, fun _ hc => List.mem_takeWhile_imp hc⟩

/-- A trimmed text stands in the text, all in one piece. -/
theorem isInfix_trim (s : List Char) : trim s <:+: s :=
  (List.rdropWhile_prefix isBlank (trimStart s)).isInfix.trans (List.dropWhile_suffix _).isInfix

/-- Trimming leaves characters out and puts none in. -/
theorem trim_sublist (s : List Char) : (trim s).Sublist s := (isInfix_trim s).sublist

/-- What stands in a trimmed text stands in the text. -/
theorem trim_subset (s : List Char) : trim s ⊆ s := (trim_sublist s).subset

/-- Trimming both ends makes good for an end that is trimmed already. -/
theorem trim_trimStart (s : List Char) : trim (trimStart s) = trim s := by
  unfold trim trimStart
  rw [List.dropWhile_idempotent isBlank s]

/-- A text whose first character is no blank. -/
def StartsInText (s : List Char) : Prop := ∀ c ∈ s.head?, isBlank c = false

instance (s : List Char) : Decidable (StartsInText s) :=
  decidable_of_iff (s.head?.all (!isBlank ·) = true) (by simp [StartsInText, Option.all_eq_true])

/-- What begins with no blank does so whatever follows it. -/
theorem StartsInText.append {s : List Char} (h : StartsInText s) (hs : s ≠ []) (t : List Char) :
    StartsInText (s ++ t) := by
  obtain ⟨c, r, rfl⟩ := List.exists_cons_of_ne_nil hs
  exact h

/-- So the text behind it is not trimmed with it. -/
theorem StartsInText.trimStart_append {s : List Char} (h : StartsInText s) (hs : s ≠ [])
    (t : List Char) : trimStart (s ++ t) = s ++ t := by
  obtain ⟨c, r, rfl⟩ := List.exists_cons_of_ne_nil hs
  exact trimStart_cons_of_not_blank (h c rfl) _

/-- **An amount begins with no blank.** -/
theorem IsAmount.startsInText {form : AmountForm} {s : List Char} (h : IsAmount form s) :
    StartsInText s :=
  fun c hc => h.isBlank_eq_false c (List.mem_of_mem_head? hc)

/-- A text whose last character is no blank. -/
def EndsInText (s : List Char) : Prop := ∀ c ∈ s.getLast?, isBlank c = false

instance (s : List Char) : Decidable (EndsInText s) :=
  decidable_of_iff (s.getLast?.all (!isBlank ·) = true) (by simp [EndsInText, Option.all_eq_true])

/-- The end of a text is the end of what stands last in it. -/
theorem EndsInText.of_append {s t : List Char} (h : EndsInText (s ++ t)) (ht : t ≠ []) :
    EndsInText t := by
  unfold EndsInText at h
  rwa [List.getLast?_append_of_ne_nil _ ht] at h

/-- What is left of a text without the characters of a class at its end ends in no such one. -/
theorem of_mem_getLast?_rdropWhile {p : Char → Bool} {s : List Char} {c : Char}
    (h : c ∈ (s.rdropWhile p).getLast?) : p c = false := by
  unfold List.rdropWhile at h
  rw [List.getLast?_reverse] at h
  have hfirst := List.head?_dropWhile_not p s.reverse
  rw [h] at hfirst
  exact hfirst

/-- Behind a text that is trimmed at its end there is no blank left. -/
theorem endsInText_trimEnd (s : List Char) : EndsInText (trimEnd s) :=
  fun _ hc => of_mem_getLast?_rdropWhile hc

/-- A trimmed text ends with no blank. -/
theorem endsInText_trim (s : List Char) : EndsInText (trim s) := endsInText_trimEnd (trimStart s)

/-- A text that does not end with a blank does not consist of blanks only. -/
theorem EndsInText.trimStart_ne_nil {s : List Char} (h : EndsInText s) (hs : s ≠ []) :
    trimStart s ≠ [] := by
  intro hnil
  have hlast := List.getLast?_eq_getLast_of_ne_nil hs
  have hblank := List.dropWhile_eq_nil_iff.mp hnil _ (List.getLast_mem hs)
  rw [h _ hlast] at hblank
  cases hblank

/-! ### Separator words -/

/-- A blank has no other case. -/
theorem caseless_of_isBlank {c : Char} (h : isBlank c = true) : caseless c = c := by
  -- No range of blanks has a capital letter in it.
  have hapart : ∀ r ∈ blankRanges, r.2 < 65 ∨ 90 < r.1 := by decide
  have hupper : ¬ c.isUpper = true := by
    rw [isUpper_iff]
    rintro ⟨hA, hZ⟩
    obtain ⟨r, hr, hlo, hhi⟩ := exists_range_of_inRanges h
    obtain hlt | hlt := hapart r hr
    · omega
    · omega
  have hne : ∀ d : Char, isBlank d = false → c ≠ d := by
    rintro d hd rfl
    rw [h] at hd
    cases hd
  simp [caseless, hupper, hne '\u0130' (by decide), hne '\u0131' (by decide),
    hne '\u017f' (by decide), hne '\u212a' (by decide), hne '\u03bc' (by decide),
    hne '\u039c' (by decide)]

/-- Nothing else is equal to the equals sign up to case. -/
theorem eq_of_caseless_eq {c : Char} (h : caseless c = '=') : c = '=' := by
  have hlower : c.isUpper = true → c.toLower ≠ '=' := by
    intro hupper heq
    have hval : 65 ≤ c.val ∧ c.val ≤ 90 := decide_eq_true_iff.mp hupper
    have hlower := congrArg Char.val heq
    unfold Char.toLower at hlower
    grind
  unfold caseless at h
  split_ifs at h with hupper
  · exact absurd h (hlower hupper)
  · exact absurd h (by decide)
  · exact absurd h (by decide)
  · exact absurd h (by decide)
  · exact absurd h (by decide)
  · exact h

/-- No word of a separator has a blank in it. -/
theorem isBlank_eq_false_of_word {word : List Char} (h : word.map caseless ∈ separatorWords) :
    ∀ c ∈ word, isBlank c = false := by
  have hwords : separatorWords.all (fun w => w.all (!isBlank ·)) = true := by decide
  intro c hc
  by_contra hblank
  have hblank := Bool.not_eq_false _ ▸ hblank
  have hword := List.all_eq_true.mp (List.all_eq_true.mp hwords _ h) _ (List.mem_map_of_mem hc)
  rw [caseless_of_isBlank hblank, hblank] at hword
  cases hword

/-- A word of a separator is found at the head of a text, in either case. -/
theorem afterWord?_append {word : List Char} (h : word.map caseless ∈ separatorWords)
    (s : List Char) : afterWord? (word ++ s) = some s := by
  have htwo : ∀ a b : Char, (caseless a, caseless b) ∈ [('t', 'o'), ('i', 'n'), ('a', 's')] →
      afterWord? ([a, b] ++ s) = some s := by
    intro a b hab
    show afterWord? (a :: b :: s) = some s
    unfold afterWord?
    split
    · -- The equals sign is the first letter of no other word.
      next heq =>
      obtain ⟨rfl, -⟩ := List.cons.inj heq
      exact absurd hab (by simp [show caseless '=' = '=' by decide])
    · next heq =>
      cases heq
      exact if_pos hab
    · next hnot => exact absurd rfl (hnot a b s)
  simp only [separatorWords, List.mem_cons, List.not_mem_nil, or_false, List.map_eq_cons_iff,
    List.map_eq_nil_iff] at h
  obtain ⟨a, _, rfl, ha, b, _, rfl, hb, rfl⟩ | ⟨a, _, rfl, ha, b, _, rfl, hb, rfl⟩ |
    ⟨a, _, rfl, ha, b, _, rfl, hb, rfl⟩ | ⟨a, _, rfl, ha, rfl⟩ := h
  · exact htwo a b (by simp [ha, hb])
  · exact htwo a b (by simp [ha, hb])
  · exact htwo a b (by simp [ha, hb])
  · rw [eq_of_caseless_eq ha]
    rfl

/-- What is found at the head of a text is a word of a separator. -/
theorem afterWord?_eq_some {s t : List Char} (h : afterWord? s = some t) :
    ∃ word, word.map caseless ∈ separatorWords ∧ word ++ t = s := by
  unfold afterWord? at h
  split at h
  · cases h
    exact ⟨['='], by decide, rfl⟩
  · next a b rest _ =>
    split_ifs at h with hword
    cases h
    refine ⟨[a, b], ?_, rfl⟩
    simpa [separatorWords] using hword
  · cases h

/-! ### Separators and the phrase behind them -/

/-- A run of blanks is left behind at once. -/
theorem afterBlanks?_append {blanks : List Char} (h : IsRun isBlank blanks) (s : List Char) :
    afterBlanks? (blanks ++ s) = some (trimStart s) := by
  obtain ⟨c, r, rfl, hc⟩ := h.exists_cons
  unfold afterBlanks?
  rw [if_pos (by simpa using hc), trimStart_append_of_blanks h.2]

/-- What is left behind is a run of blanks, and there is at least one. -/
theorem afterBlanks?_eq_some {s t : List Char} (h : afterBlanks? s = some t) :
    ∃ blanks, IsRun isBlank blanks ∧ blanks ++ t = s := by
  unfold afterBlanks? at h
  split_ifs at h with hhead
  cases h
  cases s with
  | nil => cases hhead
  | cons c s =>
    have hc : isBlank c = true := by simpa using hhead
    obtain ⟨blanks, hsplit, hblanks⟩ := exists_blanks s
    refine ⟨c :: blanks, .cons hc hblanks, ?_⟩
    rw [trimStart, List.dropWhile_cons_of_pos hc, List.cons_append]
    exact congrArg (c :: ·) hsplit

/-- **A separator is found where there is one**, and all blanks behind it belong to it. -/
theorem separator?_append {sep : List Char} (h : IsSeparator sep) (s : List Char) :
    separator? (sep ++ s) = some (trimStart s) := by
  obtain ⟨before, word, behind, rfl, hbefore, hword, hbehind⟩ := h
  have hstart : trimStart (word ++ (behind ++ s)) = word ++ (behind ++ s) := by
    cases word with
    | nil => exact absurd hword (by decide)
    | cons c word =>
      exact trimStart_cons_of_not_blank (isBlank_eq_false_of_word hword c List.mem_cons_self) _
  unfold separator?
  rw [List.append_assoc, List.append_assoc, afterBlanks?_append hbefore, Option.bind_some, hstart,
    afterWord?_append hword, Option.bind_some, afterBlanks?_append hbehind]

/-- **What is left behind is a separator**: blanks, a word, and blanks again. -/
theorem separator?_eq_some {s t : List Char} (h : separator? s = some t) :
    ∃ sep, IsSeparator sep ∧ sep ++ t = s := by
  unfold separator? at h
  obtain ⟨u, huv, ht⟩ := Option.bind_eq_some_iff.mp h
  obtain ⟨v, hv, hu⟩ := Option.bind_eq_some_iff.mp huv
  obtain ⟨before, hbefore, rfl⟩ := afterBlanks?_eq_some hv
  obtain ⟨word, hword, rfl⟩ := afterWord?_eq_some hu
  obtain ⟨behind, hbehind, rfl⟩ := afterBlanks?_eq_some ht
  refine ⟨before ++ (word ++ behind), ⟨before, word, behind, rfl, hbefore, hword, hbehind⟩, ?_⟩
  simp only [List.append_assoc]

/-- A text is a separator exactly if one is found that leaves nothing. -/
theorem isSeparator_iff (s : List Char) : IsSeparator s ↔ separator? s = some [] := by
  constructor
  · intro h
    have hfound := separator?_append h []
    rwa [List.append_nil] at hfound
  · intro h
    obtain ⟨sep, hsep, rfl⟩ := separator?_eq_some h
    rwa [List.append_nil]

instance (s : List Char) : Decidable (IsSeparator s) :=
  decidable_of_iff _ (isSeparator_iff s).symm

/-- **What is left behind a separator is a phrase** that goes on to the end. -/
theorem targetPhrase?_eq_some {s t : List Char} (h : targetPhrase? s = some t) :
    ∃ sep, IsSeparator sep ∧ sep ++ t = s ∧ IsPhrase t := by
  unfold targetPhrase? at h
  obtain ⟨u, hu, ht⟩ := Option.bind_eq_some_iff.mp h
  obtain ⟨sep, hsep, rfl⟩ := separator?_eq_some hu
  unfold wholePhrase? at ht
  split_ifs at ht with hphrase
  cases ht
  exact ⟨sep, hsep, rfl, hphrase.1, List.all_eq_true.mp hphrase.2⟩

/-- **A phrase behind a separator is found**, without the blanks at its head. -/
theorem targetPhrase?_append {sep t : List Char} (hsep : IsSeparator sep) (ht : IsPhrase t)
    (hend : EndsInText t) : targetPhrase? (sep ++ t) = some (trimStart t) := by
  have hphrase : trimStart t ≠ [] ∧ (trimStart t).all isPhraseChar := by
    refine ⟨hend.trimStart_ne_nil ht.1, List.all_eq_true.mpr fun c hc => ht.2 c ?_⟩
    exact (List.dropWhile_suffix _).subset hc
  unfold targetPhrase?
  rw [separator?_append hsep, Option.bind_some, wholePhrase?, if_pos hphrase]

/-- Whatever a text is divided into, the phrase behind the separator at its head is the same but for
    blanks. -/
theorem trim_eq_of_separators {sep sep' t t' : List Char} (h : sep ++ t = sep' ++ t')
    (hsep : IsSeparator sep) (hsep' : IsSeparator sep') : trim t = trim t' := by
  have hfound := separator?_append hsep t
  rw [h, separator?_append hsep' t'] at hfound
  rw [← trim_trimStart t, ← Option.some.inj hfound, trim_trimStart]

/-! ### The first phrase -/

/-- **The first phrase that is found is the shortest one** that a separator and a phrase follow. -/
theorem phrasePair?_eq_some {s f t : List Char} (h : phrasePair? s = some (f, t)) :
    ∃ r, f ++ r = s ∧ IsPhrase f ∧ targetPhrase? r = some t ∧
      ∀ f' r', f' ++ r' = s → IsPhrase f' → (targetPhrase? r').isSome → f.length ≤ f'.length := by
  induction s generalizing f with
  | nil => cases h
  | cons c s ih =>
    unfold phrasePair? at h
    split_ifs at h with hc
    split at h
    · next target htarget =>
      cases h
      refine ⟨s, rfl, .singleton hc, htarget, fun f' r' _ hf' _ => ?_⟩
      exact List.length_pos_iff.mpr hf'.1
    · next hnone =>
      obtain ⟨⟨f, t⟩, hpair, heq⟩ := Option.map_eq_some_iff.mp h
      cases heq
      obtain ⟨r, rfl, hf, htarget, hshortest⟩ := ih hpair
      refine ⟨r, rfl, .cons hc hf.2, htarget, fun f' r' hsplit hf' hfound => ?_⟩
      obtain ⟨d, f', rfl, hd⟩ := hf'.exists_cons
      have htail : f' ++ r' = f ++ r := (List.cons.inj hsplit).2
      -- One character alone is not followed by a separator and a phrase.
      have hne : f' ≠ [] := by
        rintro rfl
        rw [List.nil_append] at htail
        rw [htail, hnone] at hfound
        cases hfound
      have hshort := hshortest f' r' htail ⟨hne, fun x hx => hf'.2 x (.tail _ hx)⟩ hfound
      exact Nat.succ_le_succ hshort

/-- A first phrase is found where one is followed by a separator and a phrase. -/
theorem isSome_phrasePair?_append {f r : List Char} (hf : IsPhrase f)
    (hr : (targetPhrase? r).isSome) : (phrasePair? (f ++ r)).isSome := by
  obtain ⟨hne, hall⟩ := hf
  induction f with
  | nil => exact absurd rfl hne
  | cons c f ih =>
    obtain ⟨hc, hall⟩ := List.forall_mem_cons.mp hall
    rw [List.cons_append, phrasePair?, if_pos hc]
    split
    · rfl
    · next hnone =>
      rw [Option.isSome_map]
      refine ih ?_ hall
      -- Where nothing is left of the first phrase, the second one follows after all.
      rintro rfl
      rw [List.nil_append] at hnone
      rw [hnone] at hr
      cases hr

end Reckoner.Query
