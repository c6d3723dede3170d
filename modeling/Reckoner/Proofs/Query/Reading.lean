import Reckoner.Proofs.Query.Phrases
import Reckoner.Proofs.Query.Values

/-!
# Reading queries by the grammar

A text is searched for the parts of a query amount by amount, and behind every amount from the most
blanks to none.  Since amounts are tried in the order of the grammar, the parts that are found are
those of the first division of the text.

* `exists_first_of_findSome?` — the first success in an ordered list comes before all others.
* `exists_isFirst`, `isEmpty_plainSplit` — the plain form of a text is its first division, and it
  is missed by no text that can be divided.
* `PlainSplit.IsFirst.unique`, `SymbolSplit.unique` — divisions that count leave the same parts.
* `reads_iff` — what a text is read as.
* `read?_eq_iff` — what a query is read as.
-/

namespace Reckoner.Query

open Reckoner.Text

/-! ### The first success -/

/-- The first success in an ordered list comes before every other one. -/
theorem exists_first_of_findSome? {α β : Type} {R : α → α → Prop} {l : List α} {f : α → Option β}
    {b : β} (h : l.findSome? f = some b) (hl : l.Pairwise R) :
    ∃ a ∈ l, f a = some b ∧ ∀ x ∈ l, (f x).isSome → x = a ∨ R a x := by
  obtain ⟨before, a, behind, rfl, ha, hbefore⟩ := List.findSome?_eq_some_iff.mp h
  refine ⟨a, by simp, ha, fun x hx hfound => ?_⟩
  have hbehind := (List.pairwise_cons.mp (List.pairwise_append.mp hl).2.1).1
  obtain hx | hx := List.mem_append.mp hx
  · rw [hbefore x hx] at hfound
    cases hfound
  · exact (List.mem_cons.mp hx).imp_right (hbehind x)

/-! ### Blanks behind an amount -/

/-- What is taken of blanks are the runs of them, the empty one too. -/
theorem lists_blankRuns : Lists blankRuns fun s => ∀ c ∈ s, isBlank c = true := by
  intro s a
  induction s generalizing a with
  | nil =>
    obtain ⟨blanks, rest⟩ := a
    simp only [blankRuns, List.mem_singleton, Prod.mk.injEq, List.append_eq_nil_iff]
    constructor
    · rintro ⟨rfl, rfl⟩
      exact ⟨⟨rfl, rfl⟩, by simp⟩
    · exact fun h => h.1
  | cons c s ih =>
    rw [blankRuns, List.mem_append, List.mem_singleton]
    constructor
    · rintro (ha | rfl)
      · split at ha
        · next hc =>
          obtain ⟨b, hb, rfl⟩ := List.mem_map.mp ha
          obtain ⟨hsplit, hblanks⟩ := (ih b).mp hb
          exact ⟨congrArg (c :: ·) hsplit, List.forall_mem_cons.mpr ⟨hc, hblanks⟩⟩
        · cases ha
      · exact ⟨rfl, by simp⟩
    · obtain ⟨blanks, rest⟩ := a
      rintro ⟨hsplit, hblanks⟩
      cases blanks with
      | nil => exact .inr (Prod.ext rfl hsplit)
      | cons d blanks =>
        -- The blanks begin with the first character, which is one of them.
        obtain ⟨rfl, htail⟩ := List.cons.inj hsplit
        obtain ⟨hd, hblanks⟩ := List.forall_mem_cons.mp hblanks
        rw [if_pos hd]
        exact .inl (List.mem_map.mpr ⟨(blanks, rest), (ih _).mpr ⟨htail, hblanks⟩, rfl⟩)

/-- The most blanks are tried first. -/
theorem blankRuns_longest_first (s : List Char) :
    (blankRuns s).Pairwise fun a b => b.1.length < a.1.length := by
  induction s with
  | nil => exact List.pairwise_singleton _ _
  | cons c s ih =>
    rw [blankRuns]
    refine List.pairwise_append.mpr ⟨?_, List.pairwise_singleton _ _, ?_⟩
    · split
      · refine List.pairwise_map.mpr (ih.imp ?_)
        intro a b hlt
        simpa [Split.after] using hlt
      · exact .nil
    · -- No blanks at all are tried last.
      intro a ha b hb
      rw [List.mem_singleton.mp hb]
      split at ha
      · obtain ⟨a, -, rfl⟩ := List.mem_map.mp ha
        simp [Split.after]
      · cases ha

/-! ### The plain form -/

/-- The parts of a text behind an amount: the most blanks and the shortest first phrase. -/
def partsBehind? (a : Split) : Option Parts :=
  (blankRuns a.2).findSome? fun w =>
    (phrasePair? w.2).map fun pair => ⟨a.1, pair.1, pair.2⟩

/-- A text in the plain form is searched amount by amount. -/
theorem plainForm?_eq (s : List Char) : plainForm? s = (amounts s).findSome? partsBehind? := rfl

/-- No two forms of amounts have the same rank. -/
theorem AmountForm.rank_injective {f g : AmountForm} (h : f.rank = g.rank) : f = g := by
  cases f <;> cases g <;> first | rfl | cases h

namespace PlainSplit

variable {s : List Char}

/-- The text behind the amount and the blanks. -/
def phrases (p : PlainSplit s) : List Char := p.source ++ (p.separator ++ p.target)

/-- The amount of a division is among those that are tried. -/
theorem mem_amounts (p : PlainSplit s) : (p.amount, p.blanks ++ p.phrases) ∈ amounts s :=
  (mem_amounts_iff _).mpr ⟨p.text_eq, p.form, p.isAmount⟩

/-- So are its blanks behind the amount. -/
theorem mem_blankRuns (p : PlainSplit s) :
    (p.blanks, p.phrases) ∈ blankRuns (p.blanks ++ p.phrases) :=
  (lists_blankRuns _ _).mpr ⟨rfl, p.areBlanks⟩

/-- The second phrase is the end of the text. -/
theorem endsInText_target (p : PlainSplit s) (hs : EndsInText s) : EndsInText p.target := by
  have htext := p.text_eq
  rw [← htext] at hs
  simp only [← List.append_assoc] at hs
  exact hs.of_append p.isTarget.1

/-- Where a text is divided, a second phrase is found behind the first one. -/
theorem isSome_targetPhrase? (p : PlainSplit s) (hs : EndsInText s) :
    (targetPhrase? (p.separator ++ p.target)).isSome := by
  rw [targetPhrase?_append p.isSeparator p.isTarget (p.endsInText_target hs)]
  rfl

/-- So two phrases are found behind the amount and the blanks. -/
theorem isSome_phrasePair? (p : PlainSplit s) (hs : EndsInText s) :
    (phrasePair? p.phrases).isSome :=
  isSome_phrasePair?_append p.isSource (p.isSome_targetPhrase? hs)

/-- **Behind the amount of a division parts are found**, if not these ones. -/
theorem isSome_partsBehind? (p : PlainSplit s) (hs : EndsInText s) :
    (partsBehind? (p.amount, p.blanks ++ p.phrases)).isSome := by
  refine List.findSome?_isSome_iff.mpr ⟨_, p.mem_blankRuns, ?_⟩
  rw [Option.isSome_map]
  exact p.isSome_phrasePair? hs

/-- Divisions that both come first divide the text in the same way up to the separator. -/
theorem IsFirst.unique {p q : PlainSplit s} (hp : p.IsFirst) (hq : q.IsFirst) :
    p.amount = q.amount ∧ p.source = q.source ∧ trim p.target = trim q.target := by
  have hpq := hq p
  have hqp := hp q
  unfold Before at hpq hqp
  have hform : p.form = q.form := AmountForm.rank_injective (by omega)
  simp only [hform, lt_irrefl, true_and, false_or] at hpq hqp
  have hsame := p.text_eq.trans q.text_eq.symm
  obtain ⟨hamount, hsame⟩ := List.append_inj hsame (by omega)
  obtain ⟨-, hsame⟩ := List.append_inj hsame (by omega)
  obtain ⟨hsource, hsame⟩ := List.append_inj hsame (by omega)
  exact ⟨hamount, hsource, trim_eq_of_separators hsame p.isSeparator q.isSeparator⟩

end PlainSplit

variable {s : List Char}

/-- **The plain form of a text is its first division.** -/
theorem exists_isFirst (hs : EndsInText s) {parts : Parts} (h : plainForm? s = some parts) :
    ∃ p : PlainSplit s, p.IsFirst ∧ parts = ⟨p.amount, p.source, p.target⟩ := by
  rw [plainForm?_eq] at h
  obtain ⟨⟨amount, rest⟩, ha, hbehind, hfirst⟩ :=
    exists_first_of_findSome? h (amounts_in_order s)
  obtain ⟨⟨blanks, rest'⟩, hw, hpair, hmost⟩ :=
    exists_first_of_findSome? hbehind (blankRuns_longest_first _)
  obtain ⟨⟨source, target⟩, hphrases, rfl⟩ := Option.map_eq_some_iff.mp hpair
  obtain ⟨rest'', hsource, hphrase, htarget, hshortest⟩ := phrasePair?_eq_some hphrases
  obtain ⟨separator, hseparator, htail, hphrase'⟩ := targetPhrase?_eq_some htarget
  obtain ⟨hsplit, form, hamount⟩ := (mem_amounts_iff _).mp ha
  obtain ⟨hsplit', hblanks⟩ := (lists_blankRuns _ _).mp hw
  dsimp only at hsource hsplit hsplit' hamount hblanks
  have htext : amount ++ (blanks ++ (source ++ (separator ++ target))) = s := by
    rw [htail, hsource, hsplit', hsplit]
  refine ⟨⟨form, amount, blanks, source, separator, target, htext, hamount, hblanks, hphrase,
    hseparator, hphrase'⟩, ?_, rfl⟩
  intro q hq
  -- Compared with any other division, the amounts decide first, then the blanks, then the phrase.
  unfold PlainSplit.Before at hq
  dsimp only at hq
  obtain heq | ⟨form₁, form₂, h₁, h₂, hlt⟩ := hfirst _ q.mem_amounts (q.isSome_partsBehind? hs)
  · obtain ⟨hamount_eq, hrest_eq⟩ := Prod.mk.inj heq
    subst hamount_eq hrest_eq
    simp only [← hamount.form_unique q.isAmount, lt_irrefl, true_and, false_or] at hq
    obtain heq | hlt := hmost _ q.mem_blankRuns (by
      rw [Option.isSome_map]
      exact q.isSome_phrasePair? hs)
    · obtain ⟨hblanks_eq, hrest_eq⟩ := Prod.mk.inj heq
      subst hblanks_eq hrest_eq
      have hshort := hshortest q.source _ rfl q.isSource (q.isSome_targetPhrase? hs)
      omega
    · dsimp only at hlt
      omega
  · obtain rfl := hamount.form_unique h₁
    obtain rfl := h₂.form_unique q.isAmount
    dsimp only at hlt
    obtain hlt | ⟨heq, hlt⟩ := hlt
    · obtain hq | ⟨heq, -⟩ := hq
      · omega
      · rw [heq] at hlt
        omega
    · simp only [← heq, lt_irrefl, true_and, false_or] at hq
      omega

/-- A text that can be divided has a plain form. -/
theorem isEmpty_plainSplit (hs : EndsInText s) (h : plainForm? s = none) :
    IsEmpty (PlainSplit s) := by
  refine ⟨fun p => ?_⟩
  have hnone := List.findSome?_eq_none_iff.mp (plainForm?_eq s ▸ h) _ p.mem_amounts
  have hsome := p.isSome_partsBehind? hs
  rw [hnone] at hsome
  cases hsome

/-! ### The form with a currency symbol -/

/-- The parts of a text behind a currency symbol and an amount. -/
def partsOfTarget? (symbol : Char) (a : Split) : Option Parts :=
  (targetPhrase? a.2).map fun target => ⟨a.1, [symbol], target⟩

/-- A text in the form with a symbol begins with it, and amounts are tried behind the blanks. -/
theorem symbolForm?_cons (symbol : Char) (s : List Char) :
    symbolForm? (symbol :: s) =
      if symbol ∈ currencySymbols then
        (amounts (trimStart s)).findSome? (partsOfTarget? symbol)
      else none := rfl

/-- An amount in front of a separator is all that comes before the first blank. -/
theorem IsAmount.takeWhile_append {form : AmountForm} {amount separator rest : List Char}
    (h : IsAmount form amount) (hseparator : IsSeparator separator) :
    (amount ++ (separator ++ rest)).takeWhile (!isBlank ·) = amount := by
  obtain ⟨c, r, rfl, hc⟩ := hseparator.exists_cons
  rw [List.takeWhile_append_of_pos fun d hd => by rw [h.isBlank_eq_false d hd]; rfl]
  simp [hc]

namespace SymbolSplit

/-- The text behind the symbol and the blanks. -/
def amountOn (p : SymbolSplit s) : List Char := p.amount ++ (p.separator ++ p.target)

/-- The amount of a division is among those that are tried behind the symbol. -/
theorem mem_amounts (p : SymbolSplit s) :
    (p.amount, p.separator ++ p.target) ∈ amounts p.amountOn :=
  (mem_amounts_iff _).mpr ⟨rfl, p.form, p.isAmount⟩

/-- The blanks in front of the amount are trimmed, and nothing of the amount is. -/
theorem trimStart_eq (p : SymbolSplit s) : trimStart (p.blanks ++ p.amountOn) = p.amountOn :=
  (trimStart_append_of_blanks p.areBlanks _).trans
    (p.isAmount.startsInText.trimStart_append p.isAmount.ne_nil _)

/-- The second phrase is the end of the text. -/
theorem endsInText_target (p : SymbolSplit s) (hs : EndsInText s) : EndsInText p.target := by
  have htext := p.text_eq
  rw [← htext] at hs
  simp only [← List.append_assoc, ← List.cons_append] at hs
  exact hs.of_append p.isTarget.1

/-- All divisions behind a currency symbol leave the same parts. -/
theorem unique (p q : SymbolSplit s) :
    p.amount = q.amount ∧ p.symbol = q.symbol ∧ trim p.target = trim q.target := by
  obtain ⟨hsymbol, hrest⟩ := List.cons.inj (p.text_eq.trans q.text_eq.symm)
  have hsame : p.amountOn = q.amountOn := by
    rw [← p.trimStart_eq, ← q.trimStart_eq]
    exact congrArg trimStart hrest
  have hamount : p.amount = q.amount := by
    rw [← p.isAmount.takeWhile_append p.isSeparator, ← q.isAmount.takeWhile_append q.isSeparator]
    exact congrArg _ hsame
  obtain ⟨-, htail⟩ := List.append_inj hsame (congrArg List.length hamount)
  exact ⟨hamount, hsymbol, trim_eq_of_separators htail p.isSeparator q.isSeparator⟩

end SymbolSplit

/-- **What is found behind a symbol is a division** of the text. -/
theorem exists_symbolSplit {parts : Parts} (h : symbolForm? s = some parts) :
    ∃ p : SymbolSplit s, parts = ⟨p.amount, [p.symbol], p.target⟩ := by
  cases s with
  | nil => cases h
  | cons symbol s =>
    rw [symbolForm?_cons] at h
    split_ifs at h with hsymbol
    -- What is found has an amount, a separator and a phrase, and blanks may precede them.
    obtain ⟨a, ha, hparts⟩ := List.exists_of_findSome?_eq_some h
    obtain ⟨target, htarget, rfl⟩ := Option.map_eq_some_iff.mp hparts
    obtain ⟨hsplit, form, hamount⟩ := (mem_amounts_iff a).mp ha
    obtain ⟨separator, hseparator, htail, hphrase⟩ := targetPhrase?_eq_some htarget
    obtain ⟨blanks, hblanks_append, hblanks⟩ := exists_blanks s
    have htext : symbol :: (blanks ++ (a.1 ++ (separator ++ target))) = symbol :: s := by
      rw [htail, hsplit, hblanks_append]
    exact ⟨⟨symbol, blanks, form, a.1, separator, target, htext, hsymbol, hblanks, hamount,
      hseparator, hphrase⟩, rfl⟩

/-- **Where nothing is found there is no division.** -/
theorem isEmpty_symbolSplit (hs : EndsInText s) (h : symbolForm? s = none) :
    IsEmpty (SymbolSplit s) := by
  refine ⟨fun p => ?_⟩
  have htext : s = p.symbol :: (p.blanks ++ p.amountOn) := p.text_eq.symm
  rw [htext, symbolForm?_cons, if_pos p.isSymbol, p.trimStart_eq] at h
  have hnone := List.findSome?_eq_none_iff.mp h _ p.mem_amounts
  unfold partsOfTarget? at hnone
  rw [targetPhrase?_append p.isSeparator p.isTarget (p.endsInText_target hs)] at hnone
  cases hnone

/-! ### What a text is read as -/

/-- The parts of a division become a query if the amount is finite. -/
theorem becomesOf_iff {form : AmountForm} {amount source target : List Char}
    (h : IsAmount form amount) (q? : Option Query) :
    BecomesOf amount source target q? ↔ ofParts? ⟨amount, source, target⟩ = q? := by
  obtain ⟨x, hx⟩ := Option.isSome_iff_exists.mp h.isSome_readFloat?
  have hparts : ofParts? ⟨amount, source, target⟩ = if x.isFinite then
      some ⟨String.ofList amount, x, String.ofList (trim source), String.ofList (trim target)⟩
      else none := by
    simp only [ofParts?, amountValue?, hx, Option.filter_some]
    split_ifs <;> rfl
  rw [hparts, BecomesOf]
  constructor
  · rintro ⟨y, hy, rfl⟩
    rw [hx] at hy
    rw [Option.some.inj hy]
  · exact fun heq => ⟨x, hx, heq.symm⟩

/-- The blanks around a phrase do not count. -/
theorem ofParts?_congr {amount source target target' : List Char}
    (h : trim target = trim target') :
    ofParts? ⟨amount, source, target⟩ = ofParts? ⟨amount, source, target'⟩ := by
  simp only [ofParts?, h]

/-- **A text is read by the grammar**, if it does not end in a blank. -/
theorem reads_iff (hs : EndsInText s) (q? : Option Query) :
    Reads s q? ↔ (parts? s).bind ofParts? = q? := by
  unfold parts?
  cases hplain : plainForm? s with
  | some parts =>
    -- The first division counts, and any other one that counts leaves the same parts.
    obtain ⟨p, hp, rfl⟩ := exists_isFirst hs hplain
    rw [Option.some_or, Option.bind_some, ← becomesOf_iff p.isAmount]
    constructor
    · intro h
      cases h with
      | plain q hq hbecomes =>
        obtain ⟨hamount, hsource, htarget⟩ := hp.unique hq
        rw [becomesOf_iff q.isAmount] at hbecomes
        rw [becomesOf_iff p.isAmount, hamount, hsource, ofParts?_congr htarget, hbecomes]
      | symbol _ hempty => exact (hempty.false p).elim
      | neither hempty => exact (hempty.false p).elim
    · exact .plain p hp
  | none =>
    have hempty := isEmpty_plainSplit hs hplain
    rw [Option.none_or]
    cases hsymbol : symbolForm? s with
    | some parts =>
      obtain ⟨p, rfl⟩ := exists_symbolSplit hsymbol
      rw [Option.bind_some, ← becomesOf_iff p.isAmount]
      constructor
      · intro h
        cases h with
        | plain q => exact (hempty.false q).elim
        | symbol q _ hbecomes =>
          obtain ⟨hamount, hsame, htarget⟩ := p.unique q
          rw [becomesOf_iff q.isAmount] at hbecomes
          rw [becomesOf_iff p.isAmount, hamount, hsame, ofParts?_congr htarget, hbecomes]
        | neither _ hempty' => exact (hempty'.false p).elim
      · exact .symbol p hempty
    | none =>
      have hempty' := isEmpty_symbolSplit hs hsymbol
      constructor
      · intro h
        cases h with
        | plain q => exact (hempty.false q).elim
        | symbol q => exact (hempty'.false q).elim
        | neither => rfl
      · rintro rfl
        exact .neither hempty hempty'

/-- **A query is read by the grammar**: as the first division of its text that begins with an
    amount; if there is none, as the one that begins with a currency symbol; and otherwise not at
    all.  Nor is it a query if its amount is no finite float. -/
theorem read?_eq_iff (query : String) (q? : Option Query) :
    read? query = q? ↔ Reads (queryText query.toList) q? :=
  (reads_iff (endsInText_trim _) q?).symm

end Reckoner.Query
