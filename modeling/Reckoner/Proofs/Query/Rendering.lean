import Mathlib.Data.List.Infix
import Reckoner.Proofs.Query.Reading

/-!
# Rendering queries and reading them back

A query that is written from its parts, with blanks between them, is read back as these parts.  Its
division into them is the first one: the amount ends at a blank, which no amount holds; the first
phrase begins with no blank; and a shorter first phrase would leave a separator inside the one that
was written.

* `Layout` — the blanks, the separator and the question marks of a query.
* `Layout.query`, `Layout.symbolQuery` — a query in either form, written from its parts.
* `IsTidy`, `HidesNoSeparator` — the phrases that come back as they were written.
* `PlainSplit.isFirst_of_tidy` — the division into the parts that were written comes first.
* `read?_query` — a query is read back, in either form.
-/

namespace Reckoner.Query

open Reckoner.Text

/-! ### Parts that can be read back -/

/-- A phrase without blanks at its ends. -/
structure IsTidy (s : List Char) : Prop where
  isPhrase : IsPhrase s
  startsInText : StartsInText s
  endsInText : EndsInText s

instance (s : List Char) : Decidable (IsTidy s) :=
  decidable_of_iff (IsPhrase s ∧ StartsInText s ∧ EndsInText s)
    ⟨fun h => ⟨h.1, h.2.1, h.2.2⟩, fun h => ⟨h.isPhrase, h.startsInText, h.endsInText⟩⟩

/-- A text that has no separator in it when a space follows it. -/
def HidesNoSeparator (s : List Char) : Prop := ∀ sep, IsSeparator sep → ¬ sep <:+: s ++ [' ']

/-- Whether a separator is hidden shows in what follows every place of the text. -/
theorem hidesNoSeparator_iff (s : List Char) :
    HidesNoSeparator s ↔ ∀ t ∈ (s ++ [' ']).tails, separator? t = none := by
  constructor
  · intro h t ht
    obtain ⟨u, hu⟩ := (List.mem_tails _ _).mp ht
    refine Option.eq_none_iff_forall_ne_some.mpr fun rest hrest => ?_
    obtain ⟨sep, hsep, rfl⟩ := separator?_eq_some hrest
    exact h sep hsep ⟨u, rest, by rw [← hu, List.append_assoc]⟩
  · rintro h sep hsep ⟨u, rest, heq⟩
    have hnone := h (sep ++ rest) ((List.mem_tails _ _).mpr ⟨u, by rw [← heq, List.append_assoc]⟩)
    rw [separator?_append hsep] at hnone
    cases hnone

instance (s : List Char) : Decidable (HidesNoSeparator s) :=
  decidable_of_iff _ (hidesNoSeparator_iff s).symm

/-! ### Written queries -/

/-- **How a query is written**: the blanks before it, its separator, and behind it blanks, question
    marks and blanks again. -/
structure Layout where
  lead : List Char
  separator : List Char
  trail : List Char
  marks : Nat
  last : List Char
  areBlanks_lead : ∀ c ∈ lead, isBlank c = true
  isSeparator : IsSeparator separator
  areBlanks_trail : ∀ c ∈ trail, isBlank c = true
  areBlanks_last : ∀ c ∈ last, isBlank c = true

namespace Layout

/-- Writes what stands around a text. -/
def around (l : Layout) (s : List Char) : String :=
  String.ofList (l.lead ++ (s ++ (l.trail ++ (List.replicate l.marks '?' ++ l.last))))

/-- A query that begins with its amount. -/
def query (l : Layout) (amount blanks source target : List Char) : String :=
  l.around (amount ++ (blanks ++ (source ++ (l.separator ++ target))))

/-- A query that begins with a currency symbol. -/
def symbolQuery (l : Layout) (symbol : Char) (blanks amount target : List Char) : String :=
  l.around (symbol :: (blanks ++ (amount ++ (l.separator ++ target))))

end Layout

/-! ### What stands around a query -/

/-- What is cut from the end of a text are the characters of a class that follow its last other
    one. -/
theorem dropWhile_reverse_append {p : Char → Bool} {s t : List Char} (ht : ∀ c ∈ t, p c = true)
    (hs : ∀ c ∈ s.getLast?, p c = false) : ((s ++ t).reverse.dropWhile p).reverse = s := by
  have hstop : s.reverse.dropWhile p = s.reverse := by
    cases hrev : s.reverse with
    | nil => rfl
    | cons c r =>
      have hlast : s.getLast? = some c := by rw [List.getLast?_eq_head?_reverse, hrev]; rfl
      exact List.dropWhile_cons_of_neg (by rw [hs c hlast]; decide)
  have hreverse : ∀ c ∈ t.reverse, p c = true := fun c hc => ht c (List.mem_reverse.mp hc)
  rw [List.reverse_append, List.dropWhile_append_of_pos hreverse, hstop, List.reverse_reverse]

/-- Blanks behind a text that ends with none are trimmed. -/
theorem trimEnd_append {s t : List Char} (ht : ∀ c ∈ t, isBlank c = true) (hs : EndsInText s) :
    trimEnd (s ++ t) = s :=
  dropWhile_reverse_append ht hs

/-- And so they are from a text that begins with none. -/
theorem trim_append {s t : List Char} (hstart : StartsInText s) (hend : EndsInText s) (hs : s ≠ [])
    (ht : ∀ c ∈ t, isBlank c = true) : trim (s ++ t) = s := by
  rw [trim, hstart.trimStart_append hs, trimEnd_append ht hend]

/-- A tidy phrase is not trimmed. -/
theorem IsTidy.trim_eq {s : List Char} (h : IsTidy s) : trim s = s := by
  have htrim := trim_append (t := []) h.startsInText h.endsInText h.isPhrase.1 (by simp)
  rwa [List.append_nil] at htrim

/-- Question marks are cut from behind blanks. -/
theorem dropMarks_append {s blanks : List Char} (hmark : ∀ c ∈ s.getLast?, c ≠ '?')
    (hblanks : ∀ c ∈ blanks, isBlank c = true) (n : Nat) :
    ((s ++ (blanks ++ List.replicate n '?')).reverse.dropWhile (· == '?')).reverse =
      s ++ blanks := by
  -- Neither a blank nor the last character of the text is a question mark.
  have hlast : ∀ c ∈ (s ++ blanks).getLast?, (c == '?') = false := by
    intro c hc
    rw [beq_eq_false_iff_ne]
    rintro rfl
    by_cases hnil : blanks = []
    · rw [hnil, List.append_nil] at hc
      exact hmark _ hc rfl
    · rw [List.getLast?_append_of_ne_nil _ hnil] at hc
      exact absurd (hblanks _ (List.mem_of_getLast? hc)) (by decide)
  have hmarks : ∀ c ∈ List.replicate n '?', (c == '?') = true := by
    intro c hc
    rw [(List.mem_replicate.mp hc).2]
    rfl
  rw [← List.append_assoc]
  exact dropWhile_reverse_append hmarks hlast

/-- A text with question marks at its end ends with no blank. -/
theorem endsInText_marks (s : List Char) {n : Nat} (hn : n ≠ 0) :
    EndsInText (s ++ List.replicate n '?') := by
  intro c hc
  rw [List.getLast?_append_of_ne_nil _ (by simpa using hn), List.getLast?_replicate,
    if_neg hn] at hc
  cases hc
  decide

/-- **What stands around a query is no part of it.** -/
theorem queryText_around (l : Layout) {s : List Char} (hs : s ≠ []) (hstart : StartsInText s)
    (hend : EndsInText s) (hmark : ∀ c ∈ s.getLast?, c ≠ '?') :
    queryText (l.around s).toList = s := by
  -- The blanks that are left behind the text when its question marks are cut are cut next.
  suffices hcut : ∃ blanks, (∀ c ∈ blanks, isBlank c = true) ∧
      ((trim (l.around s).toList).reverse.dropWhile (· == '?')).reverse = s ++ blanks by
    obtain ⟨blanks, hblanks, heq⟩ := hcut
    rw [queryText, heq, trim_append hstart hend hs hblanks]
  have hlead : trim (l.around s).toList =
      trimEnd (s ++ (l.trail ++ (List.replicate l.marks '?' ++ l.last))) := by
    rw [Layout.around, String.toList_ofList, trim, trimStart_append_of_blanks l.areBlanks_lead,
      hstart.trimStart_append hs]
  by_cases hmarks : l.marks = 0
  · -- Without question marks, all blanks are cut at once.
    have hblanks : ∀ c ∈ l.trail ++ l.last, isBlank c = true :=
      List.forall_mem_append.mpr ⟨l.areBlanks_trail, l.areBlanks_last⟩
    have hnone := @dropMarks_append s [] hmark (by simp) 0
    rw [List.replicate_zero, List.append_nil, List.append_nil] at hnone
    refine ⟨[], by simp, ?_⟩
    rw [hlead, hmarks, List.replicate_zero, List.nil_append, trimEnd_append hblanks hend, hnone,
      List.append_nil]
  · have hsplit : s ++ (l.trail ++ (List.replicate l.marks '?' ++ l.last)) =
        s ++ l.trail ++ List.replicate l.marks '?' ++ l.last := by
      simp only [List.append_assoc]
    refine ⟨l.trail, l.areBlanks_trail, ?_⟩
    rw [hlead, hsplit, trimEnd_append l.areBlanks_last (endsInText_marks _ hmarks),
      List.append_assoc, dropMarks_append hmark l.areBlanks_trail]

/-! ### The division that was written -/

/-- Of two ways to divide a text, the one with the shorter first part continues the other. -/
theorem exists_append_of_length_le {a b c d : List Char} (h : a ++ b = c ++ d)
    (hle : a.length ≤ c.length) : ∃ e, c = a ++ e ∧ b = e ++ d := by
  obtain ⟨e, rfl, rfl⟩ | ⟨e, rfl, rfl⟩ := List.append_eq_append_iff.mp h
  · exact ⟨e, rfl, rfl⟩
  · rw [List.length_append] at hle
    obtain rfl : e = [] := List.eq_nil_of_length_eq_zero (by omega)
    exact ⟨[], by simp, by simp⟩

/-- A part of a text whose characters are of one kind ends where one of another kind stands. -/
theorem length_le_of_stop {P : Char → Prop} {a b c d : List Char} (h : a ++ b = c ++ d)
    (ha : ∀ x ∈ a, P x) (hd : ∀ x ∈ d.head?, ¬ P x) : a.length ≤ c.length := by
  by_contra hlong
  obtain ⟨e, rfl, rfl⟩ := exists_append_of_length_le h.symm (Nat.le_of_not_le hlong)
  cases e with
  | nil => simp at hlong
  | cons x e => exact hd x rfl (ha x (by simp))

/-- An amount has no smaller rank than a longer one that begins with it. -/
theorem IsAmount.rank_le {form form' : AmountForm} {v x : List Char} (h : IsAmount form v)
    (h' : IsAmount form' (v ++ x)) : form'.rank ≤ form.rank := by
  cases form with
  | grouped =>
    have hcomma : ',' ∈ v := h.marks.1.mpr rfl
    rw [h'.marks.1.mp (List.mem_append_left _ hcomma)]
  | pointed =>
    obtain ⟨hpoint, -⟩ := h.marks.2.mpr rfl
    by_cases hcomma : ',' ∈ v ++ x
    · rw [h'.marks.1.mp hcomma]
      decide
    · rw [h'.marks.2.mp ⟨List.mem_append_left _ hpoint, hcomma⟩]
  | plain => cases form' <;> decide

/-- **No separator begins inside a text without showing there.** If a separator begins with a text
    that does not end in a blank but is followed by one, then that text, or it and one blank, has a
    separator at its head. -/
theorem exists_separator_of_append {separator rest g t : List Char} (h : IsSeparator separator)
    (heq : separator ++ rest = g ++ t) (hg : g ≠ []) (hend : EndsInText g)
    (ht : ∀ c ∈ t.head?, isBlank c = true) :
    ∃ sep, IsSeparator sep ∧ sep <+: g ++ [' '] := by
  obtain ⟨before, word, behind, rfl, hbefore, hword, hbehind⟩ := h
  rw [List.append_assoc, List.append_assoc] at heq
  -- The blanks before the word end inside the text, since its last character is no blank.
  have hlt : before.length < g.length := by
    by_contra hle
    obtain ⟨e, rfl, -⟩ := exists_append_of_length_le heq.symm (Nat.le_of_not_lt hle)
    have hlast := List.getLast?_eq_getLast_of_ne_nil hg
    have hblank := hbefore.2 _ (List.mem_append_left e (List.getLast_mem hg))
    rw [hend _ hlast] at hblank
    cases hblank
  obtain ⟨u, rfl, hword_eq⟩ := exists_append_of_length_le heq hlt.le
  -- So does the word, since a blank follows the text.
  have hle : word.length ≤ u.length := by
    refine length_le_of_stop hword_eq (isBlank_eq_false_of_word hword) fun c hc => ?_
    rw [ht c hc]
    decide
  obtain ⟨v, rfl, hbehind_eq⟩ := exists_append_of_length_le hword_eq hle
  have hnext : ∃ c r, v ++ [' '] = c :: r ∧ isBlank c = true := by
    obtain ⟨b, behind, rfl, hb⟩ := hbehind.exists_cons
    cases v with
    | nil => exact ⟨' ', [], rfl, by decide⟩
    | cons c v =>
      obtain ⟨rfl, -⟩ := List.cons.inj hbehind_eq
      exact ⟨b, v ++ [' '], rfl, hb⟩
  obtain ⟨c, r, hcr, hc⟩ := hnext
  refine ⟨before ++ (word ++ [c]), ⟨before, word, [c], rfl, hbefore, hword, .singleton hc⟩, r, ?_⟩
  simp only [List.append_assoc, List.singleton_append, ← hcr]

namespace PlainSplit

variable {s : List Char} {p q : PlainSplit s}

/-- No amount reaches beyond the first blank. -/
theorem length_amount_le (hblanks : p.blanks ≠ []) : q.amount.length ≤ p.amount.length := by
  refine length_le_of_stop (q.text_eq.trans p.text_eq.symm) q.isAmount.isBlank_eq_false ?_
  obtain ⟨c, r, hcr⟩ := List.exists_cons_of_ne_nil hblanks
  rw [hcr]
  rintro _ ⟨⟩
  rw [p.areBlanks c (by rw [hcr]; exact List.mem_cons_self)]
  decide

/-- No blanks reach into a phrase that does not begin with a blank. -/
theorem length_blanks_le (hsame : q.blanks ++ q.phrases = p.blanks ++ p.phrases)
    (hstart : StartsInText p.source) : q.blanks.length ≤ p.blanks.length := by
  refine length_le_of_stop hsame q.areBlanks ?_
  obtain ⟨c, r, hcr⟩ := List.exists_cons_of_ne_nil p.isSource.1
  rw [phrases, hcr]
  rintro _ ⟨⟩
  rw [hstart c (by rw [hcr]; rfl)]
  decide

/-- A tidy phrase that hides no separator is not cut short. -/
theorem length_source_le (hsame : q.phrases = p.phrases) (hend : EndsInText p.source)
    (hhides : HidesNoSeparator p.source) : p.source.length ≤ q.source.length := by
  by_contra hshort
  obtain ⟨g, hg, hrest⟩ := exists_append_of_length_le hsame (Nat.le_of_not_le hshort)
  have hne : g ≠ [] := by
    rintro rfl
    simp [hg] at hshort
  -- So a shorter phrase would leave a piece `g` that ends with no blank, and a separator in it.
  have hend_g : EndsInText g := (hg ▸ hend).of_append hne
  have hnext : ∀ c ∈ (p.separator ++ p.target).head?, isBlank c = true := by
    obtain ⟨c, r, hcr, hc⟩ := p.isSeparator.exists_cons
    rw [hcr]
    rintro _ ⟨⟩
    exact hc
  obtain ⟨sep, hsep, hprefix⟩ := exists_separator_of_append q.isSeparator hrest hne hend_g hnext
  refine hhides sep hsep ?_
  rw [hg, List.append_assoc]
  exact hprefix.isInfix.trans (List.suffix_append _ _).isInfix

/-- **The division that was written comes first** if there are blanks behind its amount and its
    first phrase is tidy and hides no separator. -/
theorem isFirst_of_tidy (p : PlainSplit s) (hblanks : p.blanks ≠ []) (hsource : IsTidy p.source)
    (hhides : HidesNoSeparator p.source) : p.IsFirst := by
  intro q hq
  -- Any other division has no longer amount, so that its form does not come before this one.
  have hsame : q.amount ++ (q.blanks ++ q.phrases) = p.amount ++ (p.blanks ++ p.phrases) :=
    q.text_eq.trans p.text_eq.symm
  have hle : q.amount.length ≤ p.amount.length := length_amount_le hblanks
  obtain ⟨e, he, -⟩ := exists_append_of_length_le hsame hle
  have hrank : p.form.rank ≤ q.form.rank := q.isAmount.rank_le (he ▸ p.isAmount)
  obtain hlt | ⟨-, hlt | ⟨hlength, hq⟩⟩ := hq
  · omega
  · omega
  · obtain ⟨-, hsame⟩ := List.append_inj hsame hlength
    have hle_blanks := length_blanks_le hsame hsource.startsInText
    obtain hlt | ⟨hlength, hshort⟩ := hq
    · omega
    · obtain ⟨-, hsame⟩ := List.append_inj hsame hlength
      have hle_source := length_source_le hsame hsource.endsInText hhides
      omega

end PlainSplit

/-! ### Currency symbols -/

/-- No amount begins with a currency symbol. -/
theorem not_amountChar_of_symbol {symbol : Char} (h : symbol ∈ currencySymbols) :
    ¬ AmountChar symbol := by
  have hall : currencySymbols.all (fun c =>
      !isDigit c && !(['+', '-', '.', ',', 'e', 'E'].contains c)) = true := by decide
  have hsymbol := List.all_eq_true.mp hall symbol h
  simp only [Bool.and_eq_true, Bool.not_eq_true', List.contains_eq_mem,
    decide_eq_false_iff_not] at hsymbol
  rintro (hdigit | hmark)
  · rw [hsymbol.1] at hdigit
    cases hdigit
  · exact hsymbol.2 hmark

/-- Behind a currency symbol there is no amount at the head of the text. -/
theorem isEmpty_plainSplit_of_symbol {symbol : Char} (h : symbol ∈ currencySymbols)
    (s : List Char) : IsEmpty (PlainSplit (symbol :: s)) := by
  refine ⟨fun p => ?_⟩
  obtain ⟨c, r, hcr⟩ := List.exists_cons_of_ne_nil p.isAmount.ne_nil
  have htext := p.text_eq
  rw [hcr] at htext
  obtain ⟨rfl, -⟩ := List.cons.inj htext
  exact not_amountChar_of_symbol h (p.isAmount.amountChar c (by rw [hcr]; exact List.mem_cons_self))

/-- A currency symbol is a tidy phrase. -/
theorem isTidy_symbol {symbol : Char} (h : symbol ∈ currencySymbols) : IsTidy [symbol] := by
  have hall : currencySymbols.all (fun c => IsTidy [c]) = true := by decide
  exact of_decide_eq_true (List.all_eq_true.mp hall symbol h)

/-- A separator has three characters at least. -/
theorem IsSeparator.three_le_length {s : List Char} (h : IsSeparator s) : 3 ≤ s.length := by
  obtain ⟨before, word, behind, rfl, hbefore, hword, hbehind⟩ := h
  have hword_pos : 0 < word.length := by
    cases word with
    | nil => exact absurd hword (by decide)
    | cons c word => exact Nat.succ_pos _
  have hbefore_pos := List.length_pos_iff.mpr hbefore.1
  have hbehind_pos := List.length_pos_iff.mpr hbehind.1
  simp only [List.length_append]
  omega

/-- A single character hides no separator: with the space behind it, it is too short for one. -/
theorem hidesNoSeparator_singleton (c : Char) : HidesNoSeparator [c] := by
  intro sep hsep hinfix
  have hlong := hsep.three_le_length
  have hshort := hinfix.length_le
  simp only [List.length_append, List.length_singleton] at hshort
  omega

/-! ### Queries are read back -/

/-- A text in front of a tidy phrase ends as the phrase does. -/
theorem IsTidy.getLast? {t : List Char} (h : IsTidy t) (s : List Char) :
    EndsInText (s ++ t) ∧ ∀ c ∈ (s ++ t).getLast?, c ≠ '?' := by
  unfold EndsInText
  rw [List.getLast?_append_of_ne_nil _ h.isPhrase.1]
  refine ⟨h.endsInText, ?_⟩
  rintro c hc rfl
  exact absurd (h.isPhrase.2 _ (List.mem_of_getLast? hc)) (by decide)

variable {form : AmountForm} {amount target : List Char} {x : Float}

/-- Tidy phrases become the phrases of a query as they are. -/
theorem becomesOf_tidy {source : List Char} (hsource : IsTidy source) (htarget : IsTidy target)
    (hvalue : Number.readFloat? (amount.filter (· ≠ ',')) = some x) (hfinite : x.isFinite = true) :
    BecomesOf amount source target (some
      ⟨String.ofList amount, x, String.ofList source, String.ofList target⟩) :=
  ⟨x, hvalue, by rw [if_pos hfinite, hsource.trim_eq, htarget.trim_eq]⟩

/-- **What is around a query does not count**: blanks and question marks at its ends. -/
theorem read?_around (l : Layout) {s : List Char} {q? : Option Query} (hs : s ≠ [])
    (hstart : StartsInText s) (hend : EndsInText s) (hmark : ∀ c ∈ s.getLast?, c ≠ '?')
    (hreads : Reads s q?) : read? (l.around s) = q? := by
  unfold read?
  rw [queryText_around l hs hstart hend hmark]
  exact (reads_iff hend q?).mp hreads

/-- **A query in the plain form is read back.** -/
theorem read?_plain (l : Layout) {blanks source : List Char} (hamount : IsAmount form amount)
    (hblanks : IsRun isBlank blanks) (hsource : IsTidy source) (hhides : HidesNoSeparator source)
    (htarget : IsTidy target)
    (hvalue : Number.readFloat? (amount.filter (· ≠ ',')) = some x) (hfinite : x.isFinite = true) :
    read? (l.query amount blanks source target) = some
      ⟨String.ofList amount, x, String.ofList source, String.ofList target⟩ := by
  have hstart : StartsInText (amount ++ (blanks ++ (source ++ (l.separator ++ target)))) :=
    hamount.startsInText.append hamount.ne_nil _
  obtain ⟨hend, hmark⟩ := htarget.getLast? (amount ++ (blanks ++ (source ++ l.separator)))
  simp only [List.append_assoc] at hend hmark
  -- The division into the parts that were written, which comes first.
  let p : PlainSplit (amount ++ (blanks ++ (source ++ (l.separator ++ target)))) :=
    ⟨form, amount, blanks, source, l.separator, target, rfl, hamount, hblanks.2, hsource.isPhrase,
      l.isSeparator, htarget.isPhrase⟩
  have hfirst : p.IsFirst := p.isFirst_of_tidy hblanks.1 hsource hhides
  exact read?_around l (List.append_ne_nil_of_left_ne_nil hamount.ne_nil _) hstart hend hmark
    (.plain p hfirst (becomesOf_tidy hsource htarget hvalue hfinite))

/-- **A query in the form with a symbol is read back.** -/
theorem read?_symbol (l : Layout) {symbol : Char} {blanks : List Char}
    (hsymbol : symbol ∈ currencySymbols) (hblanks : ∀ c ∈ blanks, isBlank c = true)
    (hamount : IsAmount form amount) (htarget : IsTidy target)
    (hvalue : Number.readFloat? (amount.filter (· ≠ ',')) = some x) (hfinite : x.isFinite = true) :
    read? (l.symbolQuery symbol blanks amount target) = some
      ⟨String.ofList amount, x, String.ofList [symbol], String.ofList target⟩ := by
  have hsource := isTidy_symbol hsymbol
  have hstart : StartsInText (symbol :: (blanks ++ (amount ++ (l.separator ++ target)))) := by
    rintro _ ⟨⟩
    exact hsource.startsInText symbol rfl
  obtain ⟨hend, hmark⟩ := htarget.getLast? (symbol :: (blanks ++ (amount ++ l.separator)))
  simp only [List.append_assoc, List.cons_append] at hend hmark
  -- The division into the parts that were written, and there is no other form.
  let p : SymbolSplit (symbol :: (blanks ++ (amount ++ (l.separator ++ target)))) :=
    ⟨symbol, blanks, form, amount, l.separator, target, rfl, hsymbol, hblanks, hamount,
      l.isSeparator, htarget.isPhrase⟩
  exact read?_around l (by simp) hstart hend hmark
    (.symbol p (isEmpty_plainSplit_of_symbol hsymbol _)
      (becomesOf_tidy hsource htarget hvalue hfinite))

/-- **A query that is written from its parts is read back as these parts**: from an amount with a
    finite value, a tidy phrase that hides no separator, and a second tidy phrase, with one blank at
    least behind the amount.  Written behind a currency symbol, with or without blanks, the amount
    is read as it is with the symbol for its phrase. -/
theorem read?_query (hamount : IsAmount form amount)
    (hvalue : Number.readFloat? (amount.filter (· ≠ ',')) = some x) (hfinite : x.isFinite = true)
    (htarget : IsTidy target) :
    (∀ (l : Layout) (blanks source : List Char), IsRun isBlank blanks → IsTidy source →
      HidesNoSeparator source →
      read? (l.query amount blanks source target) = some
        ⟨String.ofList amount, x, String.ofList source, String.ofList target⟩) ∧
    ∀ (l l' : Layout) (blanks blanks' : List Char), ∀ symbol ∈ currencySymbols,
      (∀ c ∈ blanks, isBlank c = true) → IsRun isBlank blanks' →
      read? (l.symbolQuery symbol blanks amount target) = some
          ⟨String.ofList amount, x, String.ofList [symbol], String.ofList target⟩ ∧
        read? (l.symbolQuery symbol blanks amount target) =
          read? (l'.query amount blanks' [symbol] target) := by
  refine ⟨fun l blanks source hblanks hsource hhides =>
    read?_plain l hamount hblanks hsource hhides htarget hvalue hfinite, ?_⟩
  intro l l' blanks blanks' symbol hsymbol hblanks hblanks'
  have hread := read?_symbol l hsymbol hblanks hamount htarget hvalue hfinite
  have hplain := read?_plain l' hamount hblanks' (isTidy_symbol hsymbol)
    (hidesNoSeparator_singleton symbol) htarget hvalue hfinite
  exact ⟨hread, hread.trans hplain.symm⟩

/-- An amount in square feet, and the same amount behind a currency symbol. -/
theorem read?_query_square_feet :
    read? " 1,200.5 sq ft  TO m2 ?? " =
        some ⟨"1,200.5", Float.ofScientific 12005 true 1, "sq ft", "m2"⟩ ∧
      read? "$1,200.5 in m2" = some ⟨"1,200.5", Float.ofScientific 12005 true 1, "$", "m2"⟩ ∧
      read? "$1,200.5 in m2" = read? " 1,200.5 $  TO m2 ?? " := by
  have hmantissa : IsMantissa .grouped (['1'] ++ [',', '2', '0', '0'] ++ ['.', '5']) :=
    .grouped (.singleton rfl) (by decide) (.one rfl rfl rfl) (.inr ⟨['5'], rfl, .singleton rfl⟩)
  have hamount : IsAmount .grouped ['1', ',', '2', '0', '0', '.', '5'] :=
    ⟨[], _, [], rfl, .inl rfl, hmantissa, .inl rfl⟩
  have hread := read?_query hamount (x := Float.ofScientific 12005 true 1) rfl (by decide +kernel)
    (show IsTidy ['m', '2'] by decide)
  have hblank : ∀ c ∈ [' '], isBlank c = true := List.all_eq_true.mp rfl
  have hnone : ∀ c ∈ ([] : List Char), isBlank c = true := List.all_eq_true.mp rfl
  let layout : Layout :=
    ⟨[' '], [' ', ' ', 'T', 'O', ' '], [' '], 2, [' '], hblank, by decide, hblank, hblank⟩
  let bare : Layout := ⟨[], [' ', 'i', 'n', ' '], [], 0, [], hnone, by decide, hnone, hnone⟩
  refine ⟨?_, ?_⟩
  · exact hread.1 layout [' '] ['s', 'q', ' ', 'f', 't'] (by decide) (by decide) (by decide)
  · exact hread.2 bare layout [] [' '] '$' (by decide) hnone (by decide)

end Reckoner.Query
