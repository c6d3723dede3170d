import Mathlib.Data.Bool.AllAny
import Reckoner.Proofs.Number.LetterCase
import Reckoner.Proofs.Query.Amounts
import Reckoner.Query.Basic

/-!
# The letters of a query

A query that is written with small letters for its capital letters is divided in the same places.
So it is read as the same amount, and its phrases are the same up to the case of their letters.

* `Split.toLower`, `Parts.toLower`, `Query.toLower` — divided texts and queries with small letters.
* `DividesAlike`, `LeavesAlike` — texts are divided in the same places if they differ only in case,
  and the same is left of them.
* `dividesAlike_amounts`, `amountValue?_toLower` — amounts, and the numbers that they stand for.
* `phrasePair?_toLower` — the two phrases of a query.
* `read?_toLower` — the query that is read.
-/

namespace Reckoner

open Reckoner.Number Reckoner.Text

namespace Query

/-! ### Divided texts -/

/-- Both parts of a split with small letters. -/
def Split.toLower (split : Split) : Split :=
  (split.1.map Char.toLower, split.2.map Char.toLower)

/-- Texts that differ only in the case of their letters are divided in the same places. -/
def DividesAlike (f : List Char → List Split) : Prop :=
  ∀ s, f (s.map Char.toLower) = (f s).map Split.toLower

/-- A text put before a split has small letters when the split has them. -/
theorem Split.toLower_after (head : List Char) (split : Split) :
    (Split.after head split).toLower = Split.after (head.map Char.toLower) split.toLower := by
  simp [Split.after, Split.toLower]

/-- And so it is where it is put before all splits. -/
theorem map_after_toLower (head : List Char) (splits : List Split) :
    (splits.map Split.toLower).map (Split.after (head.map Char.toLower)) =
      (splits.map (Split.after head)).map Split.toLower := by
  simp only [List.map_map, List.map_inj_left, Function.comp_apply, Split.toLower_after,
    implies_true]

namespace DividesAlike

variable {f : List Char → List Split}

/-- Text that is put before all splits is put before them with small letters. -/
theorem after (h : DividesAlike f) (head s : List Char) :
    (f (s.map Char.toLower)).map (Split.after (head.map Char.toLower)) =
      ((f s).map (Split.after head)).map Split.toLower := by
  rw [h s, map_after_toLower]

/-- An optional part divides texts alike if the part does. -/
theorem optional (h : DividesAlike f) : DividesAlike (optional f) := by
  intro s
  rw [Query.optional, h s, Query.optional, List.map_append]
  rfl

/-- **What divides the rests alike divides the wholes alike.** -/
theorem andThen (h : DividesAlike f) (splits : List Split) :
    andThen (splits.map Split.toLower) f = (andThen splits f).map Split.toLower := by
  unfold Query.andThen
  rw [List.flatMap_map, List.map_flatMap]
  refine congrArg splits.flatMap (funext fun split => ?_)
  rw [← map_after_toLower, ← h split.2]
  rfl

end DividesAlike

/-! ### Amounts -/

/-- Digits have no case, so that runs of them end in the same places. -/
theorem dividesAlike_digitRuns : DividesAlike digitRuns := by
  intro s
  induction s with
  | nil => rfl
  | cons c s ih =>
    have hrest := map_after_toLower [c] (digitRuns s)
    rw [← ih] at hrest
    rw [List.map_cons, digitRuns, digitRuns, isCaseBlind_isDigit c]
    split
    · rw [List.map_append, ← hrest]
      rfl
    · rfl

/-- Neither do commas and the digits behind them. -/
theorem dividesAlike_commaGroups : DividesAlike commaGroups := by
  intro s
  fun_induction commaGroups s with
  | case1 a b c s hdigits ih =>
    have hrest := map_after_toLower [',', a, b, c] (commaGroups s)
    rw [← ih] at hrest
    have hlower : (isDigit a.toLower && isDigit b.toLower && isDigit c.toLower) = true := by
      rwa [isCaseBlind_isDigit a, isCaseBlind_isDigit b, isCaseBlind_isDigit c]
    show commaGroups (',' :: _ :: _ :: _ :: _) = _
    rw [commaGroups, if_pos hlower, List.map_append, ← hrest]
    rfl
  | case2 a b c s hdigits =>
    have hlower : ¬ (isDigit a.toLower && isDigit b.toLower && isDigit c.toLower) = true := by
      rwa [isCaseBlind_isDigit a, isCaseBlind_isDigit b, isCaseBlind_isDigit c]
    show commaGroups (',' :: _ :: _ :: _ :: _) = _
    rw [commaGroups, if_neg hlower]
    rfl
  | case3 s hnot =>
    unfold commaGroups
    split
    · next heq =>
      -- Only a comma becomes a comma, so that the text has the same shape before.
      obtain ⟨m, t, rfl, hm, ht⟩ := List.map_eq_cons_iff.mp heq
      obtain ⟨a, u, rfl, -, hu⟩ := List.map_eq_cons_iff.mp ht
      obtain ⟨b, v, rfl, -, hv⟩ := List.map_eq_cons_iff.mp hu
      obtain ⟨c, w, rfl, -, -⟩ := List.map_eq_cons_iff.mp hv
      rw [toLower_eq_iff rfl] at hm
      exact absurd (hm ▸ rfl) (hnot a b c w)
    · rfl

/-- A fraction begins with a point, or there is none. -/
theorem fraction_cons (c : Char) (s : List Char) :
    fraction (c :: s) = if c = '.' then (digitRuns s).map (Split.after ['.']) else [] := by
  by_cases hc : c = '.'
  · subst hc
    rfl
  · rw [if_neg hc]
    simp [fraction, hc]

/-- A point has no case, nor do the digits behind it. -/
theorem dividesAlike_fraction : DividesAlike fraction := by
  rintro (_ | ⟨c, s⟩)
  · rfl
  · simp only [List.map_cons, fraction_cons, toLower_eq_iff (d := '.') rfl]
    split
    · exact dividesAlike_digitRuns.after ['.'] s
    · rfl

/-- A sign has no case. -/
theorem signSplit_toLower (s : List Char) :
    signSplit (s.map Char.toLower) = (signSplit s).toLower := by
  cases s with
  | nil => rfl
  | cons c s =>
    simp only [List.map_cons, signSplit, toLower_eq_iff (d := '+') rfl,
      toLower_eq_iff (d := '-') rfl]
    split <;> rfl

/-- The letter of an exponent is taken in either case. -/
theorem dividesAlike_exponent : DividesAlike exponent := by
  rintro (_ | ⟨c, s⟩)
  · rfl
  · simp only [List.map_cons, exponent_cons, toLower_eq_e_iff, signSplit_toLower]
    split
    · exact dividesAlike_digitRuns.after (c :: (signSplit s).1) (signSplit s).2
    · rfl

/-- Grouped amounts are divided in the same places. -/
theorem dividesAlike_groupedAmounts : DividesAlike groupedAmounts := by
  intro s
  have hshort : ((digitRuns s).map Split.toLower).filter (·.1.length ≤ 3) =
      ((digitRuns s).filter (·.1.length ≤ 3)).map Split.toLower := by
    rw [List.filter_map]
    refine congrArg (List.map Split.toLower) (List.filter_congr fun split _ => ?_)
    simp [Split.toLower]
  rw [groupedAmounts, dividesAlike_digitRuns s, hshort, dividesAlike_commaGroups.andThen,
    dividesAlike_fraction.optional.andThen, groupedAmounts]

/-- Pointed amounts are divided in the same places. -/
theorem dividesAlike_pointedAmounts : DividesAlike pointedAmounts := by
  intro s
  rw [pointedAmounts, dividesAlike_digitRuns.optional s, dividesAlike_fraction.andThen,
    pointedAmounts]

/-- Amounts without a sign are divided in the same places, whatever their form. -/
theorem dividesAlike_unsignedAmounts : DividesAlike unsignedAmounts := by
  intro s
  rw [unsignedAmounts, dividesAlike_groupedAmounts s, dividesAlike_pointedAmounts s,
    dividesAlike_digitRuns s, ← List.map_append, ← List.map_append,
    dividesAlike_exponent.optional.andThen, unsignedAmounts]

/-- **The amounts at the head of a text** are found in the same places. -/
theorem dividesAlike_amounts : DividesAlike amounts := by
  intro s
  rw [amounts, signSplit_toLower]
  exact dividesAlike_unsignedAmounts.after (signSplit s).1 (signSplit s).2

/-- **The number that an amount stands for** does not depend on the case of its letters. -/
theorem amountValue?_toLower (amount : List Char) :
    amountValue? (amount.map Char.toLower) = amountValue? amount := by
  have hcomma : IsCaseBlind fun c => decide (c ≠ ',') := isCaseBlind_of_capitals (by decide)
  rw [amountValue?, hcomma.filter, readFloat?_toLower, amountValue?]

/-! ### Phrases and separators -/

/-- The same is left of texts that differ only in the case of their letters, up to case. -/
def LeavesAlike (f : List Char → Option (List Char)) : Prop :=
  ∀ s, f (s.map Char.toLower) = (f s).map (List.map Char.toLower)

/-- One part after another leaves the same if both do. -/
theorem LeavesAlike.bind {f g : List Char → Option (List Char)} (hf : LeavesAlike f)
    (hg : LeavesAlike g) : LeavesAlike fun s => (f s).bind g := by
  intro s
  show (f (s.map Char.toLower)).bind g = ((f s).bind g).map (List.map Char.toLower)
  rw [hf s]
  cases f s with
  | none => rfl
  | some t => exact hg t

/-- Comparing letters without their case does not depend on the case. -/
theorem isCaseBlind_caseless : IsCaseBlind caseless := isCaseBlind_of_capitals (by decide)

/-- Whether a character may stand in a phrase does not depend on its case. -/
theorem isCaseBlind_isPhraseChar : IsCaseBlind isPhraseChar := by
  intro c
  simp only [isPhraseChar, isCaseBlind_caseless c]

/-- Blanks have no case. -/
theorem leavesAlike_afterBlanks? : LeavesAlike afterBlanks? := by
  intro s
  rw [afterBlanks?, isCaseBlind_isBlank.head?_any, trimStart_toLower, afterBlanks?]
  split <;> rfl

/-- The words of a separator are found in either case. -/
theorem leavesAlike_afterWord? : LeavesAlike afterWord? := by
  rintro (_ | ⟨a, s⟩)
  · rfl
  · by_cases ha : a = '='
    · subst ha
      rfl
    · rcases s with _ | ⟨b, s⟩
      · simp [afterWord?, ha, toLower_eq_iff]
      · -- Neither text begins with the equals sign, so that both begin with two letters or do not.
        have hlower : a.toLower ≠ '=' := by rwa [Ne, toLower_eq_iff rfl]
        simp only [List.map_cons, afterWord?, isCaseBlind_caseless a, isCaseBlind_caseless b]
        split <;> rfl

/-- **The same is left behind a separator** in either case. -/
theorem leavesAlike_separator? : LeavesAlike separator? :=
  (leavesAlike_afterBlanks?.bind leavesAlike_afterWord?).bind leavesAlike_afterBlanks?

/-- A whole phrase is one in either case. -/
theorem leavesAlike_wholePhrase? : LeavesAlike wholePhrase? := by
  intro s
  have hall : (s.map Char.toLower).all isPhraseChar = s.all isPhraseChar := by
    rw [List.all_map, isCaseBlind_isPhraseChar.comp_toLower]
  simp only [wholePhrase?, hall, Ne, List.map_eq_nil_iff]
  split <;> rfl

/-- The second phrase is what is left behind a separator, and a phrase. -/
theorem leavesAlike_targetPhrase? : LeavesAlike targetPhrase? :=
  leavesAlike_separator?.bind leavesAlike_wholePhrase?

/-- **The two phrases of a text** are divided in the same place. -/
theorem phrasePair?_toLower (s : List Char) :
    phrasePair? (s.map Char.toLower) = (phrasePair? s).map Split.toLower := by
  induction s with
  | nil => rfl
  | cons c s ih =>
    rw [List.map_cons, phrasePair?, phrasePair?, isCaseBlind_isPhraseChar c,
      leavesAlike_targetPhrase? s, ih]
    split
    · cases targetPhrase? s with
      | some target => rfl
      | none =>
        simp only [Option.map_none, Option.map_map]
        rfl
    · rfl

/-! ### Queries -/

/-- The parts of a query with small letters. -/
def Parts.toLower (p : Parts) : Parts :=
  ⟨p.amount.map Char.toLower, p.source.map Char.toLower, p.target.map Char.toLower⟩

/-- Runs of blanks end in the same places. -/
theorem dividesAlike_blankRuns : DividesAlike blankRuns := by
  intro s
  induction s with
  | nil => rfl
  | cons c s ih =>
    have hrest := map_after_toLower [c] (blankRuns s)
    rw [← ih] at hrest
    rw [List.map_cons, blankRuns, blankRuns, isCaseBlind_isBlank c, List.map_append]
    split
    · rw [← hrest]
      rfl
    · rfl

/-- What is found first in splits is found first in those with small letters. -/
theorem findSome?_toLower {α : Type} {f f' : Split → Option α} {g : α → α}
    (h : ∀ split, f' split.toLower = (f split).map g) (splits : List Split) :
    (splits.map Split.toLower).findSome? f' = (splits.findSome? f).map g := by
  rw [List.findSome?_map, List.map_findSome?]
  exact congrArg (splits.findSome? ·) (funext h)

/-- **A query in the plain form** has the same parts in either case. -/
theorem plainForm?_toLower (s : List Char) :
    plainForm? (s.map Char.toLower) = (plainForm? s).map Parts.toLower := by
  rw [plainForm?, dividesAlike_amounts s]
  refine findSome?_toLower (fun (amount, rest) => ?_) _
  show (blankRuns (rest.map Char.toLower)).findSome? _ = _
  rw [dividesAlike_blankRuns rest]
  refine findSome?_toLower (fun (_, phrases) => ?_) _
  show (phrasePair? (phrases.map Char.toLower)).map _ = _
  rw [phrasePair?_toLower, Option.map_map, Option.map_map]
  rfl

/-- A currency symbol has no case. -/
theorem toLower_of_mem_currencySymbols {c : Char} (h : c ∈ currencySymbols) : c.toLower = c := by
  have hletters : ∀ d ∈ currencySymbols, d.isAlpha = false :=
    List.all_iff_forall_prop.mp (by decide)
  exact (toLower_eq_iff (hletters c h)).mpr rfl

/-- Whether a character is a currency symbol does not depend on its case. -/
theorem isCaseBlind_mem_currencySymbols : IsCaseBlind fun c => decide (c ∈ currencySymbols) :=
  isCaseBlind_of_capitals (by decide)

/-- **A query with a currency symbol** has the same parts in either case. -/
theorem symbolForm?_toLower (s : List Char) :
    symbolForm? (s.map Char.toLower) = (symbolForm? s).map Parts.toLower := by
  cases s with
  | nil => rfl
  | cons symbol s =>
    have hsymbol : symbol.toLower ∈ currencySymbols ↔ symbol ∈ currencySymbols :=
      decide_eq_decide.mp (isCaseBlind_mem_currencySymbols symbol)
    simp only [List.map_cons, symbolForm?, hsymbol]
    split
    · next hmem =>
      -- The symbol has no case, so that both texts have the same one.
      rw [toLower_of_mem_currencySymbols hmem, trimStart_toLower, dividesAlike_amounts]
      refine findSome?_toLower (fun (amount, rest) => ?_) _
      show (targetPhrase? (rest.map Char.toLower)).map _ = _
      rw [leavesAlike_targetPhrase? rest, Option.map_map, Option.map_map]
      refine congrArg (Option.map · _) (funext fun target => ?_)
      simp [Parts.toLower, Split.toLower, toLower_of_mem_currencySymbols hmem]
    · rfl

/-- **The parts of a text** are the same up to the case of their letters. -/
theorem parts?_toLower (s : List Char) :
    parts? (s.map Char.toLower) = (parts? s).map Parts.toLower := by
  rw [parts?, plainForm?_toLower, symbolForm?_toLower, parts?]
  cases plainForm? s <;> rfl

/-- The texts of a query with small letters. -/
def toLower (q : Query) : Query :=
  ⟨q.amountText.toLower, q.amount, q.source.toLower, q.target.toLower⟩

@[simp] theorem amount_toLower (q : Query) : q.toLower.amount = q.amount := rfl

@[simp] theorem source_toLower (q : Query) : q.toLower.source = q.source.toLower := rfl

@[simp] theorem target_toLower (q : Query) : q.toLower.target = q.target.toLower := rfl

/-- Small letters in the characters of a text are small letters in the text. -/
theorem ofList_map_toLower (s : List Char) :
    String.ofList (s.map Char.toLower) = (String.ofList s).toLower := by
  rw [← String.toList_inj, toList_toLower, String.toList_ofList, String.toList_ofList]

/-- The parts of a query are a query in either case, and the amount is the same. -/
theorem ofParts?_toLower (p : Parts) : ofParts? p.toLower = (ofParts? p).map toLower := by
  rw [ofParts?, Parts.toLower, amountValue?_toLower, ofParts?, Option.map_map]
  refine congrArg (Option.map · _) (funext fun value => ?_)
  simp only [Function.comp_apply, toLower, trim_toLower, ofList_map_toLower]

/-- What is read of a text, without blanks and question marks at its ends, ends in
    the same places. -/
theorem queryText_toLower (s : List Char) :
    queryText (s.map Char.toLower) = (queryText s).map Char.toLower := by
  have hmark : IsCaseBlind (· == '?') := isCaseBlind_of_capitals (by decide)
  simp only [queryText, trim_toLower, ← List.map_reverse, hmark.dropWhile]

/-- **A query with small letters for its capital letters is read as the same query**, up to the case
    of its texts. -/
theorem read?_toLower (query : String) : read? query.toLower = (read? query).map toLower := by
  rw [read?, toList_toLower, queryText_toLower, parts?_toLower, read?]
  cases parts? (queryText query.toList) with
  | none => rfl
  | some p => exact ofParts?_toLower p

end Query

end Reckoner
