import Reckoner.Proofs.Alias.Openings
import Reckoner.Proofs.Query.Rendering
import Reckoner.Proofs.Service.Interpretations

/-!
# Whole amounts

The amount of a query is as long as the rest of the query allows, and it may be shorter than the
number that was typed: of `12,34` only `12` is an amount.  Then the phrase behind it begins as a
number goes on, and it names no unit, no temperature scale and no listed name of an asset.  Only the
letters of a code are still found in it, and in that case a part of the number is lost.

* `fromAmount` — the text of a query from its amount on.
* `ContinuesNumber` — texts that go on as a number.
* `exists_fromAmount_eq` — behind an amount that is not the whole number stands such a phrase.
* `named_of_result` — a conversion query that is answered names what it converts.
* `Service.run_amount_whole` — in every run, what is converted is the whole number that was typed,
  or an asset that is found by its code only.
* `Service.answered_without_decimals` — a query whose decimals are lost.
-/

namespace Reckoner

open Reckoner.Text Reckoner.Query Reckoner.Alias

/-! ### The text behind an amount -/

/-- The text of a query from its amount on, which stands at the head or behind a currency symbol and
    blanks. -/
def fromAmount : List Char → List Char
  | [] => []
  | c :: s => if c ∈ currencySymbols then trimStart s else c :: s

/-- A text that goes on as a number: with a digit, or with a point or comma and a digit. -/
def ContinuesNumber (s : List Char) : Prop :=
  ∃ c r, s = c :: r ∧ (isDigit c = true ∨
    c ∈ [',', '.'] ∧ ∃ d t, r = d :: t ∧ isDigit d = true)

theorem toNat_lt_of_isAlphanum {c : Char} (h : c.isAlphanum = true) : c.toNat < 128 := by
  obtain hletter | hdigit := Bool.or_eq_true_iff.mp h
  · obtain hupper | hlower := Bool.or_eq_true_iff.mp hletter
    · have hcode := isUpper_iff.mp hupper
      omega
    · have hcode := isLower_iff.mp hlower
      omega
  · have hval : c.val ≤ 57 := of_decide_eq_true (Bool.and_eq_true_iff.mp hdigit).2
    exact Nat.lt_of_le_of_lt (UInt32.le_iff_toNat_le.mp hval) (by decide)

/-- The digits that a phrase may hold are those of one script. -/
theorem mem_digitHeads {c : Char} (hphrase : isPhraseChar c = true) (hdigit : isDigit c = true) :
    c ∈ digitHeads := by
  have hzeros : ∀ z ∈ decimalZeros, z = 48 ∨ 1632 ≤ z := by decide
  obtain ⟨z, hz, hlo, hhi⟩ := exists_zero_of_isDigit hdigit
  obtain rfl | hlarge := hzeros z hz
  · have hlisted : ∀ n ∈ List.range' 48 10, Char.ofNat n ∈ digitHeads := by decide
    rw [← Char.ofNat_toNat c]
    exact hlisted _ (List.mem_range'_1.mpr ⟨hlo, hhi⟩)
  · -- A digit of another script has no other case, and a phrase may hold no such character.
    exfalso
    have hne : ∀ d : Char, isDigit d = false → c ≠ d := by
      rintro d hd rfl
      rw [hdigit] at hd
      cases hd
    have hupper : ¬ c.isUpper = true := by
      rw [isUpper_iff]
      omega
    have hcaseless : caseless c = c := by
      simp [caseless, hupper, hne '\u0130' (by decide), hne '\u0131' (by decide),
        hne '\u017f' (by decide), hne '\u212a' (by decide), hne '\u03bc' (by decide),
        hne '\u039c' (by decide)]
    have hmarks : ∀ d ∈ phraseMarks ++ currencySymbols, isDigit d = false :=
      List.all_iff_forall_prop.mp (by decide)
    simp only [isPhraseChar, hcaseless, Bool.or_eq_true, decide_eq_true_eq] at hphrase
    obtain ((halphanum | hblank) | hmark) | hsymbol := hphrase
    · have hlt := toNat_lt_of_isAlphanum halphanum
      omega
    · rw [isBlank_eq_false_of_isDigit hdigit] at hblank
      cases hblank
    · exact hne c (hmarks c (List.mem_append_left _ hmark)) rfl
    · exact hne c (hmarks c (List.mem_append_right _ hsymbol)) rfl

theorem ContinuesNumber.not_blank {s : List Char} (h : ContinuesNumber s) :
    ∀ c ∈ s.head?, isBlank c = false := by
  obtain ⟨c, r, rfl, hc⟩ := h
  rintro _ ⟨⟩
  obtain hdigit | ⟨hmark, -⟩ := hc
  · exact isBlank_eq_false_of_isDigit hdigit
  · exact isBlank_of_mark hmark

/-- **A first phrase that goes on as a number begins as one goes on**, also without the blanks at
    its ends. -/
theorem goesOn_trim {s : List Char} {source rest : List Char} (hs : ContinuesNumber s)
    (hsplit : source ++ rest = s) (hsource : IsPhrase source)
    (hrest : ∀ c ∈ rest.head?, isBlank c = true) : GoesOn (trim source) := by
  obtain ⟨c, r, rfl, hc⟩ := hsource.exists_cons
  obtain ⟨c', r', rfl, hcases⟩ := hs
  obtain ⟨rfl, rfl⟩ := List.cons.inj hsplit
  have hall := hsource.2
  obtain hdigit | ⟨hmark, d, t, hd, hdigit⟩ := hcases
  · rw [trim_cons (isBlank_eq_false_of_isDigit hdigit)]
    exact .inl (opens_cons (mem_digitHeads hc hdigit) _)
  · have hdblank := isBlank_eq_false_of_isDigit hdigit
    -- A separator begins with a blank, so that the digit is part of the phrase.
    cases r with
    | nil =>
      have hd : rest = d :: t := hd
      rw [hrest d (by rw [hd]; rfl)] at hdblank
      cases hdblank
    | cons e r =>
      obtain ⟨rfl, -⟩ := List.cons.inj hd
      rw [trim_cons (isBlank_of_mark hmark), trimEnd_cons hdblank]
      refine .inr ⟨_, _, rfl, hmark, opens_cons (mem_digitHeads (hall _ (by simp)) hdigit) _⟩

theorem fromAmount_plain {s : List Char} (p : PlainSplit s) : fromAmount s = s := by
  cases s with
  | nil => rfl
  | cons c s =>
    refine if_neg fun hsymbol => ?_
    have hempty := isEmpty_plainSplit_of_symbol hsymbol s
    exact hempty.false p

theorem fromAmount_symbol {s : List Char} (p : SymbolSplit s) :
    fromAmount s = p.amount ++ (p.separator ++ p.target) := by
  refine (congrArg fromAmount p.text_eq).symm.trans ?_
  exact (if_pos p.isSymbol).trans p.trimStart_eq

/-- **Behind an amount that is not the whole number that was typed stands a phrase that begins as a
    number goes on.** -/
theorem exists_fromAmount_eq {query : String} {q : Query} (h : read? query = some q) :
    ∃ rest, fromAmount (queryText query.toList) = q.amountText.toList ++ rest ∧
      (ContinuesNumber rest → GoesOn q.source.toList) := by
  obtain ⟨p, hamount, hsource, -⟩ | ⟨p, hamount, -, -⟩ := exists_split_of_read? h
  · refine ⟨p.blanks ++ (p.source ++ (p.separator ++ p.target)), ?_, fun hcontinues => ?_⟩
    · rw [fromAmount_plain p, hamount, String.toList_ofList, p.text_eq]
    · rw [hsource, String.toList_ofList]
      have hnone : p.blanks = [] := by
        cases hblanks : p.blanks with
        | nil => rfl
        | cons c blanks =>
          have hblank := p.areBlanks c (by rw [hblanks]; exact List.mem_cons_self)
          rw [hcontinues.not_blank c (by rw [hblanks]; rfl)] at hblank
          cases hblank
      rw [hnone, List.nil_append] at hcontinues
      refine goesOn_trim hcontinues rfl p.isSource fun c hc => ?_
      obtain ⟨d, r, hd, hblank⟩ := p.isSeparator.exists_cons
      rw [hd] at hc
      cases hc
      exact hblank
  · refine ⟨p.separator ++ p.target, ?_, fun hcontinues => ?_⟩
    · rw [fromAmount_symbol p, hamount, String.toList_ofList]
    · -- Behind an amount with a currency symbol before it stands a blank.
      obtain ⟨d, r, hd, hblank⟩ := p.isSeparator.exists_cons
      rw [hcontinues.not_blank d (by rw [hd]; rfl)] at hblank
      cases hblank

/-! ### Answers -/

/-- **A conversion query that is answered names what it converts**: a scale, a unit or an asset. -/
theorem named_of_result {query : String} {q : Query} (hq : read? query = some q) {f : Findings}
    {a : Answer} (h : (queryPlan query).result f = .answer (some a)) :
    (scale? q.source).isSome = true ∨ (unit? q.source).isSome = true ∨
      (asset? q.source).isSome = true := by
  have hoffline := offlineAnswer?_of_read? hq
  -- A conversion names a scale or a unit, and any other answer needs an asset.
  cases hconversion : conversion? q with
  | some answer =>
    obtain ⟨source, -, hscale, -⟩ | ⟨d, source, -, hunit, -⟩ := conversion?_eq_some hconversion
    · exact .inl (by rw [hscale]; rfl)
    · exact .inr (.inl (by rw [hunit]; rfl))
  | none =>
    rw [queryPlan_of_read? (hoffline.trans hconversion) hq] at h
    cases hasset : asset? q.source with
    | some asset => exact .inr (.inr rfl)
    | none =>
      rw [conversionPlan_unnamed (.inl hasset)] at h
      cases h

namespace Service

variable {net : Network} {o : Outlook} {jobs : List Job} {s : Service}

/-- A job that needs no lookups has its result. -/
theorem Sound.ask_of_answered (h : s.Sound net o jobs) {job : Job} {a? : Option Answer}
    (hplan : job.plan = .answered a?) : (s.ask net job).2 = some (.answer a?) := by
  have hid : s.begun ∈ List.range' s.begun [job].length := by simp
  have hjob := h.toRecords.getElem?_begun job
  have hnone : job.plan.lookups = [] := by rw [hplan]; rfl
  obtain ⟨r, hr⟩ := h.answered_awaitAll hid hjob (by simp [hnone])
  obtain ⟨job', hjob', f, -, -, rfl⟩ := h.foretold_awaitAll hr
  cases hjob.symm.trans hjob'
  rw [ask_snd, hr, hplan]
  rfl

/-- **What is converted is the whole number that was typed**, in every run over any network, unless
    the phrase behind it is found by the letters of a code only.  Where the text behind the amount
    of an answered query goes on as a number, the phrase names no scale, no unit and no asset that
    is listed by that name. -/
theorem run_amount_whole (settings : Settings) (fiat crypto : Span) (net : Network)
    (events : List Event) {id : Nat} {query : String} {q : Query} {a : Answer}
    (hanswer : (id, some (Result.answer (some a))) ∈
      ((withLifetimes settings fiat crypto).run net events).2)
    (hjob : (events.flatMap Event.jobs)[id]? = some (.answer query))
    (hq : Query.read? query = some q) :
    ∃ rest, fromAmount (queryText query.toList) = q.amountText.toList ++ rest ∧
      (ContinuesNumber rest → scale? q.source = none ∧ unit? q.source = none ∧
        assets.lookup (String.ofList (assetKey q.source.toList)) = none ∧
          ∃ asset, assetByCode? q.source.toList = some asset ∧ asset? q.source = some asset) := by
  obtain ⟨rest, hbehind, hgoes⟩ := exists_fromAmount_eq hq
  refine ⟨rest, hbehind, fun hcontinues => ?_⟩
  -- A phrase that goes on with the number names no scale, no unit and no listed asset.
  have hphrase := hgoes hcontinues
  have hsound := sound_withLifetimes (Outlook.covers_anything net settings) fiat crypto
  obtain ⟨job, hjob', hforetold, -⟩ := hsound.reliable_run events id _ hanswer
  rw [List.nil_append] at hjob'
  cases hjob.symm.trans hjob'
  obtain ⟨f, -, -, hresult⟩ := hforetold _ rfl
  obtain hscale | hunit | hasset := named_of_result hq hresult
  · rw [hphrase.scale?_eq_none] at hscale
    cases hscale
  · rw [hphrase.unit?_eq_none] at hunit
    cases hunit
  · obtain ⟨asset, hasset⟩ := Option.isSome_iff_exists.mp hasset
    exact ⟨hphrase.scale?_eq_none, hphrase.unit?_eq_none, hphrase.lookup_assets, asset,
      hphrase.asset?_eq ▸ hasset, hasset⟩

end Service

/-! ### A query whose decimals are lost -/

/-- Only the digits before the comma are an amount here.  The other two are taken for a part of the
    phrase, whose letters are a code. -/
theorem read_commaQuery : ∃ q, Query.read? "12,34 eur to eur" = some q ∧
    fromAmount (queryText "12,34 eur to eur".toList) =
      q.amountText.toList ++ ",34 eur to eur".toList ∧
      ∃ a, queryPlan "12,34 eur to eur" = .answered (some a) := by
  have hread : (Query.read? "12,34 eur to eur").map
      (fun q => (q.amountText, q.source, q.target)) = some ("12", ",34 eur", "eur") := by
    decide +kernel
  obtain ⟨q, hq, hparts⟩ := Option.map_eq_some_iff.mp hread
  obtain ⟨hamount, hphrases⟩ := Prod.mk.inj hparts
  obtain ⟨hsource, htarget⟩ := Prod.mk.inj hphrases
  have hbehind : fromAmount (queryText "12,34 eur to eur".toList) =
      q.amountText.toList ++ ",34 eur to eur".toList := by
    rw [hamount]
    decide
  have hgoes : GoesOn q.source.toList := by
    rw [hsource]
    exact .inr ⟨',', _, rfl, by decide, opens_cons (by decide) _⟩
  have hconversion : conversion? q = none :=
    conversion?_eq_none hgoes.scale?_eq_none hgoes.unit?_eq_none
  obtain ⟨euro, heuro⟩ : ∃ a, Asset.fiat? "EUR" = some a :=
    Option.isSome_iff_exists.mp (by decide)
  -- Without its comma and digits the phrase is the code.
  have hasset : asset? q.source = some euro := by
    rw [hgoes.asset?_eq, hsource, ← heuro]
    decide +kernel
  have hasset' : asset? q.target = some euro := by
    rw [htarget, ← heuro]
    exact Alias.asset?_of_lookup (by decide +kernel) (by decide +kernel)
  refine ⟨q, hq, hbehind, exchangeAnswer q.amount q.amount euro euro, ?_⟩
  rw [queryPlan_of_read? ((offlineAnswer?_of_read? hq).trans hconversion) hq,
    conversionPlan_same hasset hasset']

/-- The comma and the digits behind it go on as a number. -/
theorem continuesNumber_comma : ContinuesNumber ",34 eur to eur".toList :=
  ⟨',', _, rfl, .inr ⟨by decide, '3', _, rfl, by decide⟩⟩

namespace Service

/-- What needs no lookups is answered in a run that asks for it alone. -/
theorem mem_run_answered {query : String} {a : Answer} (h : queryPlan query = .answered (some a))
    (settings : Settings) (fiat crypto : Span) (net : Network) :
    (0, some (Result.answer (some a))) ∈
      ((withLifetimes settings fiat crypto).run net [.ask [.answer query]]).2 := by
  have hsound := sound_withLifetimes (Outlook.covers_anything net settings) fiat crypto
  have hmem := mem_run_ask (withLifetimes settings fiat crypto) net (.answer query)
  have hplan : (Job.answer query).plan = .answered (some a) := h
  rwa [hsound.ask_of_answered hplan] at hmem

/-- The code `EUR` is all that is left of the phrase `,34 eur`. -/
theorem amount_before_comma :
    let s := withLifetimes (.usual [] 1800 60 5) (.seconds 1800) (.seconds 60)
    let net : Network := fun _ _ => ⟨none, .timedOut, false⟩
    let query := "12,34 eur to eur"
    ∃ q a rest, (0, some (Result.answer (some a))) ∈ (s.run net [.ask [.answer query]]).2 ∧
      Query.read? query = some q ∧
      fromAmount (queryText query.toList) = q.amountText.toList ++ rest ∧
      (ContinuesNumber rest → scale? q.source = none ∧ unit? q.source = none ∧
        assets.lookup (String.ofList (assetKey q.source.toList)) = none ∧
          ∃ asset, assetByCode? q.source.toList = some asset ∧ asset? q.source = some asset) := by
  intro s net query
  obtain ⟨q, hq, -, a, hplan⟩ := read_commaQuery
  have hmem := mem_run_answered hplan (.usual [] 1800 60 5) (.seconds 1800) (.seconds 60) net
  obtain ⟨rest, hbehind, hcode⟩ :=
    run_amount_whole (.usual [] 1800 60 5) (.seconds 1800) (.seconds 60) net
      [.ask [.answer query]] hmem rfl hq
  exact ⟨q, a, rest, hmem, hq, hbehind, hcode⟩

/-- **Decimals behind a comma are dropped in silence.**  Twelve euros are converted, and the number
    that was typed goes on behind the amount. -/
theorem answered_without_decimals :
    let s := withLifetimes (.usual [] 1800 60 5) (.seconds 1800) (.seconds 60)
    let net : Network := fun _ _ => ⟨none, .timedOut, false⟩
    let query := "12,34 eur to eur"
    ∃ q a rest, (0, some (Result.answer (some a))) ∈ (s.run net [.ask [.answer query]]).2 ∧
      Query.read? query = some q ∧
      fromAmount (queryText query.toList) = q.amountText.toList ++ rest ∧
      ContinuesNumber rest := by
  intro s net query
  obtain ⟨q, hq, hbehind, a, hplan⟩ := read_commaQuery
  exact ⟨q, a, _, mem_run_answered hplan _ _ _ net, hq, hbehind, continuesNumber_comma⟩

end Service

end Reckoner
