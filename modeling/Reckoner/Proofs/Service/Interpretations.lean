import Reckoner.Proofs.Arithmetic.Soundness
import Reckoner.Proofs.Service.Answers
import Reckoner.Proofs.Service.Requests

/-!
# A typed query has one interpretation

What is read as a conversion query has a separator in it: a word with a letter that no expression
may have, or the equals sign, which no expression is written with.  So no text is both a conversion
query and an expression, and it does not matter which of the two is tried first.

* `Arithmetic.IsExpressionChar` — the characters that expressions are written with.
* `Arithmetic.Derives.isExpressionChar` — every derived text is made of them.
* `Query.exists_split_of_read?` — a query that is read, as a division of its text.
* `Query.exists_mem_separator` — what every separator has in it.
* `calculation?_of_read?` — a conversion query is not calculated.
* `calculatedFirst?`, `calculatedFirstPlan` — answers and plans where calculations are tried first.
* `interpretations_exclusive` — one interpretation at most, in either order.
-/

namespace Reckoner

open Reckoner.Text

/-! ### The characters of expressions -/

namespace Arithmetic

/-- The characters that expressions are written with, blanks aside. -/
def IsExpressionChar (c : Char) : Prop := c.isDigit = true ∨ c = '.' ∨ isOperatorChar c = true

theorem Spells.isExpressionChar {op : Operator} {sym : List Char} (h : Spells op sym) :
    ∀ c ∈ sym, IsExpressionChar c := by
  have hall : sym.all isOperatorChar = true := by cases h <;> decide
  exact fun c hc => .inr (.inr (List.all_eq_true.mp hall c hc))

theorem AllDigits.isExpressionChar {s : List Char} (h : AllDigits s) :
    ∀ c ∈ s, IsExpressionChar c :=
  fun c hc => .inl (h c hc)

theorem Numeral.isExpressionChar {s : List Char} (h : Numeral s) :
    ∀ c ∈ s, IsExpressionChar c := by
  cases h with
  | whole hs => exact hs.isExpressionChar
  | pointed hs ht =>
    refine List.forall_mem_append.mpr ⟨hs.isExpressionChar, ?_⟩
    exact List.forall_mem_cons.mpr ⟨.inr (.inl rfl), ht.isExpressionChar⟩

/-- **Every text that has a tree is made of digits, points, operators and parentheses.** -/
theorem Derives.isExpressionChar {lenient : Bool} {l : Level} {s : List Char} {e : Expr}
    (h : Derives lenient l s e) : ∀ c ∈ s, IsExpressionChar c := by
  have hmark : ∀ c : Char, isOperatorChar c = true → IsExpressionChar c :=
    fun c hc => .inr (.inr hc)
  induction h with
  | ofMulDiv _ ih | ofPower _ ih | ofUnary _ ih | ofAtom _ ih => exact ih
  | addSub _ _ hop _ ihs iht | mulDiv _ _ hop _ ihs iht | power _ _ hop _ ihs iht =>
    exact List.forall_mem_append.mpr
      ⟨ihs, List.forall_mem_append.mpr ⟨hop.isExpressionChar, iht⟩⟩
  | negative _ ih => exact List.forall_mem_cons.mpr ⟨hmark '-' rfl, ih⟩
  | positive _ ih => exact List.forall_mem_cons.mpr ⟨hmark '+' rfl, ih⟩
  | number hs => exact hs.isExpressionChar
  | group _ ih =>
    refine List.forall_mem_cons.mpr ⟨hmark '(' rfl, List.forall_mem_append.mpr ⟨ih, ?_⟩⟩
    exact List.forall_mem_singleton.mpr (hmark ')' rfl)
  | openGroup _ _ ih => exact List.forall_mem_cons.mpr ⟨hmark '(' rfl, ih⟩

/-- A text that is calculated has no letter, and blanks aside it is made of the characters of
    expressions. -/
theorem characters_of_calculation? {query : String} {a : Answer} (h : calculation? query = some a) :
    (∀ c ∈ trim query.toList, c.isAlpha = false) ∧
      ∀ c ∈ trim query.toList, isBlank c = false → IsExpressionChar c := by
  obtain ⟨x, hx, -⟩ := calculation?_eq_some h
  unfold calculation? at h
  dsimp only at h
  split_ifs at h with hlooks
  simp only [looksArithmetic, Bool.and_eq_true, Bool.not_eq_true', List.any_eq_false] at hlooks
  refine ⟨fun c hc => Bool.eq_false_iff.mpr (hlooks.1.1.2 c hc), fun c hc hblank => ?_⟩
  rw [evaluateText, ← dropBlanks_trim] at hx
  obtain ⟨e, hderives, -, -⟩ := exists_derives_of_evaluateDense hx
  exact hderives.isExpressionChar c (List.mem_filter.mpr ⟨hc, by simp [hblank]⟩)

end Arithmetic

/-! ### What every conversion query has in it -/

namespace Query

/-- **A query that is read is a division of its text**: one that begins with its amount, or one that
    begins with a currency symbol. -/
theorem exists_split_of_read? {query : String} {q : Query} (h : read? query = some q) :
    (∃ p : PlainSplit (queryText query.toList), q.amountText = String.ofList p.amount ∧
      q.source = String.ofList (trim p.source) ∧ q.target = String.ofList (trim p.target)) ∨
    ∃ p : SymbolSplit (queryText query.toList), q.amountText = String.ofList p.amount ∧
      q.source = String.ofList (trim [p.symbol]) ∧ q.target = String.ofList (trim p.target) := by
  obtain ⟨parts, hparts, hvalue⟩ := Option.bind_eq_some_iff.mp h
  obtain ⟨value, -, rfl⟩ := Option.map_eq_some_iff.mp hvalue
  have hend : EndsInText (queryText query.toList) := endsInText_trim _
  obtain hplain | ⟨-, hsymbol⟩ := Option.or_eq_some_iff.mp hparts
  · obtain ⟨p, -, rfl⟩ := exists_isFirst hend hplain
    exact .inl ⟨p, rfl, rfl, rfl⟩
  · obtain ⟨p, rfl⟩ := exists_symbolSplit hsymbol
    exact .inr ⟨p, rfl, rfl, rfl⟩

/-- The last letters of two separator words, and the first one of the third, are letters in every
    case that they have. -/
theorem isAlpha_of_caseless_eq {c d : Char} (hd : d ∈ ['o', 'n', 'a']) (h : caseless c = d) :
    c.isAlpha = true := by
  -- The letters that the marked ones stand for are in no separator.
  have hmarked : ∀ e ∈ ['i', 's', 'k', '\u00b5'], e ≠ d := by
    have hapart : ['i', 's', 'k', '\u00b5'].all (fun e => decide (e ∉ ['o', 'n', 'a'])) = true := by
      decide
    rintro e he rfl
    exact of_decide_eq_true (List.all_eq_true.mp hapart e he) hd
  unfold caseless at h
  split_ifs at h with hupper
  · exact isAlpha_of_isUpper hupper
  · exact absurd h (hmarked _ (by decide))
  · exact absurd h (hmarked _ (by decide))
  · exact absurd h (hmarked _ (by decide))
  · exact absurd h (hmarked _ (by decide))
  · subst h
    have hletters : ['o', 'n', 'a'].all Char.isAlpha = true := by decide
    exact List.all_eq_true.mp hletters _ hd

/-- **Every separator has a letter in it, or the equals sign.** -/
theorem exists_mem_separator {sep : List Char} (h : IsSeparator sep) :
    ∃ c ∈ sep, c.isAlpha = true ∨ c = '=' := by
  obtain ⟨before, word, behind, rfl, -, hword, -⟩ := h
  suffices hmem : ∃ c ∈ word, c.isAlpha = true ∨ c = '=' by
    obtain ⟨c, hc, hcases⟩ := hmem
    exact ⟨c, by simp [hc], hcases⟩
  simp only [separatorWords, List.mem_cons, List.not_mem_nil, or_false, List.map_eq_cons_iff,
    List.map_eq_nil_iff] at hword
  obtain ⟨a, _, rfl, ha, b, _, rfl, hb, rfl⟩ | ⟨a, _, rfl, ha, b, _, rfl, hb, rfl⟩ |
    ⟨a, _, rfl, ha, b, _, rfl, hb, rfl⟩ | ⟨a, _, rfl, ha, rfl⟩ := hword
  · exact ⟨b, by simp, .inl (isAlpha_of_caseless_eq (by decide) hb)⟩
  · exact ⟨b, by simp, .inl (isAlpha_of_caseless_eq (by decide) hb)⟩
  · exact ⟨a, by simp, .inl (isAlpha_of_caseless_eq (by decide) ha)⟩
  · exact ⟨a, by simp, .inr (eq_of_caseless_eq ha)⟩

/-- The text of a query is part of what is typed. -/
theorem queryText_subset (s : List Char) : queryText s ⊆ trim s := by
  intro c hc
  have hmarks := trim_subset _ hc
  exact List.mem_reverse.mp (List.dropWhile_subset _ (List.mem_reverse.mp hmarks))

/-- A query that is read has a separator in it. -/
theorem exists_separator_subset {query : String} {q : Query} (h : read? query = some q) :
    ∃ sep, IsSeparator sep ∧ sep ⊆ trim query.toList := by
  obtain ⟨p, -⟩ | ⟨p, -⟩ := exists_split_of_read? h
  · refine ⟨p.separator, p.isSeparator, fun c hc => queryText_subset _ ?_⟩
    rw [← p.text_eq]
    simp [hc]
  · refine ⟨p.separator, p.isSeparator, fun c hc => queryText_subset _ ?_⟩
    rw [← p.text_eq]
    simp [hc]

end Query

/-- **A conversion query is not calculated.** -/
theorem calculation?_of_read? {query : String} {q : Query} (h : Query.read? query = some q) :
    Arithmetic.calculation? query = none := by
  refine Option.eq_none_iff_forall_ne_some.mpr fun a ha => ?_
  obtain ⟨hletter, hchar⟩ := Arithmetic.characters_of_calculation? ha
  obtain ⟨sep, hsep, hsubset⟩ := Query.exists_separator_subset h
  obtain ⟨c, hc, halpha | rfl⟩ := Query.exists_mem_separator hsep
  · rw [hletter c (hsubset hc)] at halpha
    cases halpha
  · obtain hdigit | hpoint | hmark := hchar '=' (hsubset hc) (by decide)
    · exact absurd hdigit (by decide)
    · exact absurd hpoint (by decide)
    · exact absurd hmark (by decide)

/-! ### The other order -/

/-- The answer to a typed query that needs no rates, where calculations are tried first. -/
def calculatedFirst? (query : String) : Option Answer :=
  if isLongEnough query then
    (Arithmetic.calculation? query).or ((Query.read? query).bind conversion?)
  else none

/-- The plan for a typed query where calculations are tried first, then conversions without rates,
    and then conversions of money. -/
def calculatedFirstPlan (query : String) : Plan :=
  if isLongEnough query then
    match Arithmetic.calculation? query with
    | some answer => .answered (some answer)
    | none =>
      match Query.read? query with
      | some q =>
        match conversion? q with
        | some answer => .answered (some answer)
        | none => conversionPlan q
      | none => .answered none
  else .answered none

theorem offlineAnswer?_of_read? {query : String} {q : Query} (h : Query.read? query = some q) :
    offlineAnswer? query = conversion? q := by
  simp [offlineAnswer?, isLongEnough_of_read? h, h, calculation?_of_read? h]

theorem offlineAnswer?_of_unread {query : String} (h : Query.read? query = none) :
    offlineAnswer? query =
      if isLongEnough query then Arithmetic.calculation? query else none := by
  simp [offlineAnswer?, h]

/-- **A typed query has one interpretation at most.** What is read as a conversion query is not
    calculated.  So every query has the same answer without rates, and the same plan, whether
    conversions are tried before calculations or calculations before conversions. -/
theorem interpretations_exclusive (query : String) :
    (∀ q, Query.read? query = some q → Arithmetic.calculation? query = none) ∧
      offlineAnswer? query = calculatedFirst? query ∧
        queryPlan query = calculatedFirstPlan query := by
  refine ⟨fun q => calculation?_of_read?, ?_, ?_⟩
  · -- A query that reads as a conversion is no calculation, so the order of the two cannot matter.
    cases h : Query.read? query with
    | some q =>
      rw [offlineAnswer?_of_read? h]
      simp [calculatedFirst?, isLongEnough_of_read? h, h, calculation?_of_read? h]
    | none =>
      rw [offlineAnswer?_of_unread h]
      simp [calculatedFirst?, h]
  · cases h : Query.read? query with
    | some q =>
      cases hconversion : conversion? q <;>
        simp only [queryPlan, calculatedFirstPlan, isLongEnough_of_read? h, h,
          calculation?_of_read? h, offlineAnswer?_of_read? h, hconversion]
    | none =>
      cases hlong : isLongEnough query with
      | false => simp only [queryPlan, calculatedFirstPlan, hlong, Bool.false_eq_true, if_false]
      | true =>
        cases hcalculation : Arithmetic.calculation? query <;>
          simp only [queryPlan, calculatedFirstPlan, hlong, h, offlineAnswer?_of_unread h,
            hcalculation, if_true]

end Reckoner
