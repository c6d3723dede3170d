import Mathlib.Data.List.TakeWhile
import Reckoner.Proofs.Number.Shown
import Reckoner.Proofs.Service.Events

/-!
# Answers show finite numbers

Whatever is typed and whatever the feeds reply, a query is answered with finite numbers or not at
all.  An evaluation that fails and a result that is not finite give no answer; a reply that cannot
be read gives no rate; and no answer is lacking for good while fetches are allowed a limited time.

* `numericPart`, `Answer.ShowsFinite` — the number in a text; answers that show finite numbers.
* `calculation?_eq_some`, `calculation?_of_error` — what becomes of an evaluation.
* `showsFinite_offlineAnswer?`, `Plan.showsFinite_queryPlan` — answers without and with rates.
* `Outlook.anything`, `covers_anything` — fetches that may find anything, but do end.
* `Service.run_showsFinite` — every query in every run is answered with finite numbers or with
  nothing.
-/

namespace Reckoner

open Reckoner.Number Reckoner.Text

/-! ### Numbers in answers -/

/-- The number in a text: what comes before the first space. -/
def numericPart (s : String) : List Char := s.toList.takeWhile (· ≠ ' ')

/-- **An answer shows finite numbers**: its result does, and so does what was asked, unless it is
    the expression that was calculated. -/
structure Answer.ShowsFinite (query : String) (a : Answer) : Prop where
  result : IsShownNumber (numericPart a.result)
  input : Arithmetic.calculation? query = some a ∨ IsShownNumber (numericPart a.input)

/-- A number is the numeric part of itself. -/
theorem isShownNumber_numericPart {s : List Char} (h : IsShownNumber s) :
    IsShownNumber (numericPart (String.ofList s)) := by
  have hall : s.takeWhile (· ≠ ' ') = s :=
    List.takeWhile_eq_self_iff.mpr fun c hc => decide_eq_true (h.ne_space c hc)
  rwa [numericPart, String.toList_ofList, hall]

/-- A number is the numeric part of a text in which a space follows it. -/
theorem isShownNumber_numericPart_append {s : List Char} (h : IsShownNumber s) (unit : String) :
    IsShownNumber (numericPart (String.ofList s ++ " " ++ unit)) := by
  have hall : (s ++ ' ' :: unit.toList).takeWhile (· ≠ ' ') = s := by
    rw [List.takeWhile_append_of_pos fun c hc => decide_eq_true (h.ne_space c hc)]
    simp
  have htext : (String.ofList s ++ " " ++ unit).toList = s ++ ' ' :: unit.toList := by
    simp
  rwa [numericPart, htext, hall]

/-- A symbol behind a number is not part of it. -/
theorem isShownNumber_withSymbol {x : Float} (h : x.isFinite = true) (symbol : String) :
    IsShownNumber (numericPart (withSymbol x symbol)) :=
  isShownNumber_numericPart_append (isShownNumber_floatText h) symbol

/-- So an amount shows its number, wherever the symbol of its asset stands. -/
theorem isShownNumber_amountText {x : Float} (h : x.isFinite = true) (a : Asset) :
    IsShownNumber (numericPart (a.amountText x)) :=
  isShownNumber_numericPart_append (isShownNumber_fixedFloat h _) a.code

/-! ### Calculations -/

/-- Where all blanks are dropped, trimming the head makes no difference. -/
theorem dropBlanks_trimStart (s : List Char) : dropBlanks (trimStart s) = dropBlanks s := by
  unfold dropBlanks trimStart
  conv_rhs => rw [← List.takeWhile_append_dropWhile (p := isBlank) (l := s), List.filter_append]
  have hblanks : (s.takeWhile isBlank).filter (fun c => !isBlank c) = [] := by
    refine List.filter_eq_nil_iff.mpr fun c hc => ?_
    simp [List.mem_takeWhile_imp hc]
  rw [hblanks, List.nil_append]

/-- Nor does trimming both ends. -/
theorem dropBlanks_trim (s : List Char) : dropBlanks (trim s) = dropBlanks s := by
  have hreverse : ∀ t : List Char, dropBlanks t.reverse = (dropBlanks t).reverse :=
    fun t => List.filter_reverse
  have hend : dropBlanks (trimEnd (trimStart s)) = dropBlanks (trimStart s) := by
    have hdrop := dropBlanks_trimStart (trimStart s).reverse
    unfold trimStart at hdrop ⊢
    rw [trimEnd, hreverse, hdrop, hreverse, List.reverse_reverse]
  exact hend.trans (dropBlanks_trimStart s)

/-- The answer to a calculation is that of an evaluation with a finite value. -/
theorem calculation?_eq_some {query : String} {a : Answer}
    (h : Arithmetic.calculation? query = some a) :
    ∃ x, Arithmetic.evaluateText query = .ok x ∧ x.isFinite = true ∧ a.result = showFloat x := by
  unfold Arithmetic.calculation? at h
  simp only [dropBlanks_trim] at h
  split_ifs at h
  split at h
  · next x hx =>
    split_ifs at h with hfinite
    cases h
    exact ⟨x, hx, hfinite, rfl⟩
  · cases h

/-- **An evaluation that fails gives no answer.** -/
theorem calculation?_of_error {query : String} {error : Arithmetic.EvalError}
    (h : Arithmetic.evaluateText query = .error error) :
    Arithmetic.calculation? query = none := by
  refine Option.eq_none_iff_forall_ne_some.mpr fun a ha => ?_
  obtain ⟨x, hx, -⟩ := calculation?_eq_some ha
  rw [h] at hx
  cases hx

/-- **A calculation shows a finite number**: a result that is not finite is no answer. -/
theorem showsFinite_calculation? {query : String} {a : Answer}
    (h : Arithmetic.calculation? query = some a) : a.ShowsFinite query := by
  obtain ⟨x, -, hfinite, hresult⟩ := calculation?_eq_some h
  refine ⟨?_, .inl h⟩
  rw [hresult]
  exact isShownNumber_numericPart (isShownNumber_floatText hfinite)

/-! ### Conversions -/

/-- **The amount of a query is finite.** -/
theorem isFinite_of_read? {query : String} {q : Query} (h : Query.read? query = some q) :
    q.amount.isFinite = true := by
  unfold Query.read? at h
  obtain ⟨parts, -, hparts⟩ := Option.bind_eq_some_iff.mp h
  obtain ⟨x, hx, rfl⟩ := Option.map_eq_some_iff.mp hparts
  exact (Option.filter_eq_some_iff.mp hx).2

/-- An answer that shows two finite numbers with symbols shows finite numbers. -/
theorem showsFinite_withSymbols (query : String) {amount result : Float}
    (hamount : amount.isFinite = true) (hresult : result.isFinite = true)
    (symbol label symbol' label' : String) :
    (⟨withSymbol amount symbol, label, withSymbol result symbol', label'⟩ :
      Answer).ShowsFinite query :=
  ⟨isShownNumber_withSymbol hresult symbol', .inr (isShownNumber_withSymbol hamount symbol)⟩

/-- **So does a conversion between temperature scales**, which gives a finite number or nothing. -/
theorem showsFinite_scaleConversion? (query : String) {amount : Float} {source target : Scale}
    {a : Answer} (hamount : amount.isFinite = true)
    (h : scaleConversion? amount source target = some a) : a.ShowsFinite query := by
  unfold scaleConversion? at h
  obtain ⟨hfinite, heq⟩ := Option.ite_none_right_eq_some.mp h
  rw [← Option.some.inj heq]
  exact showsFinite_withSymbols query hamount hfinite _ _ _ _

/-- **So does a conversion between units.** -/
theorem showsFinite_unitConversion? (query : String) {amount : Float} {source target : Measure}
    {a : Answer} (hamount : amount.isFinite = true)
    (h : unitConversion? amount source target = some a) : a.ShowsFinite query := by
  unfold unitConversion? at h
  obtain ⟨hfinite, heq⟩ := Option.ite_none_right_eq_some.mp h
  rw [← Option.some.inj heq]
  exact showsFinite_withSymbols query hamount hfinite _ _ _ _

/-- A conversion is one between two temperature scales, or one between two units of a dimension. -/
theorem conversion?_eq_some {q : Query} {a : Answer} (h : conversion? q = some a) :
    (∃ source target, Alias.scale? q.source = some source ∧ Alias.scale? q.target = some target ∧
      scaleConversion? q.amount source target = some a) ∨
    ∃ d source target, Alias.unit? q.source = some (d, source) ∧
      Alias.unit? q.target = some (d, target) ∧
        unitConversion? q.amount source target = some a := by
  unfold conversion? at h
  -- Either both phrases name temperature scales, or neither does and both name units.
  cases hscale : Alias.scale? q.source <;> cases hscale' : Alias.scale? q.target <;>
    rw [hscale, hscale'] at h
  case some.some source target => exact .inl ⟨source, target, rfl, rfl, h⟩
  case none.none =>
    cases hunit : Alias.unit? q.source <;> cases hunit' : Alias.unit? q.target <;>
      rw [hunit, hunit'] at h
    case some.some source target =>
      obtain ⟨hdimension, h⟩ := Option.ite_none_right_eq_some.mp h
      exact .inr ⟨source.1, source.2, target.2, rfl, by rw [hdimension], h⟩
    all_goals cases h
  all_goals cases h

/-- So does every conversion without rates. -/
theorem showsFinite_conversion? (query : String) {q : Query} {a : Answer}
    (hq : q.amount.isFinite = true) (h : conversion? q = some a) : a.ShowsFinite query := by
  obtain ⟨source, target, -, -, h⟩ | ⟨d, source, target, -, -, h⟩ := conversion?_eq_some h
  · exact showsFinite_scaleConversion? query hq h
  · exact showsFinite_unitConversion? query hq h

/-- **Answers without rates show finite numbers.** -/
theorem showsFinite_offlineAnswer? {query : String} {a : Answer}
    (h : offlineAnswer? query = some a) : a.ShowsFinite query := by
  unfold offlineAnswer? at h
  split_ifs at h
  obtain h | ⟨-, h⟩ := Option.or_eq_some_iff.mp h
  · obtain ⟨q, hq, hconversion⟩ := Option.bind_eq_some_iff.mp h
    exact showsFinite_conversion? query (isFinite_of_read? hq) hconversion
  · exact showsFinite_calculation? h

/-! ### Conversions of money -/

/-- So does an exchange of a finite amount to a finite amount. -/
theorem showsFinite_exchangeAnswer (query : String) {amount converted : Float}
    (hamount : amount.isFinite = true) (hconverted : converted.isFinite = true)
    (source target : Asset) :
    (exchangeAnswer amount converted source target).ShowsFinite query :=
  ⟨isShownNumber_amountText hconverted target, .inr (isShownNumber_amountText hamount source)⟩

/-- A result is an answer that shows finite numbers, or no answer. -/
def Result.AnswersFinite (query : String) (r : Result) : Prop :=
  ∃ a? : Option Answer, r = .answer a? ∧ ∀ a ∈ a?, a.ShowsFinite query

/-- **A plan for a conversion** answers so whatever is found. -/
theorem Plan.answersFinite_conversionPlan (query : String) {q : Query}
    (hq : q.amount.isFinite = true) (f : Findings) :
    ((conversionPlan q).result f).AnswersFinite query := by
  unfold conversionPlan
  split
  · next source target _ _ =>
    split_ifs
    · refine ⟨_, rfl, ?_⟩
      rintro _ ⟨⟩
      exact showsFinite_exchangeAnswer query hq hq source target
    · refine ⟨_, rfl, ?_⟩
      intro a ha
      obtain ⟨x, -, ha⟩ := Option.bind_eq_some_iff.mp ha
      obtain ⟨y, -, ha⟩ := Option.bind_eq_some_iff.mp ha
      -- The quotient of two prices may be infinite, and then there is no answer.
      unfold Plan.exchanged at ha
      dsimp only at ha
      split_ifs at ha with hfinite
      cases ha
      exact showsFinite_exchangeAnswer query hq hfinite source target
  · exact ⟨none, rfl, by simp⟩

/-- **Whatever its lookups find, a typed query is answered with finite numbers or with nothing.** -/
theorem Plan.answersFinite_queryPlan (query : String) (f : Findings) :
    ((queryPlan query).result f).AnswersFinite query := by
  unfold queryPlan
  split_ifs
  · split
    · next a ha =>
      refine ⟨some a, rfl, ?_⟩
      rintro _ ⟨⟩
      exact showsFinite_offlineAnswer? ha
    · split
      · next q hq => exact Plan.answersFinite_conversionPlan query (isFinite_of_read? hq) f
      · exact ⟨none, rfl, by simp⟩
  · exact ⟨none, rfl, by simp⟩

/-! ### Runs -/

/-- Every fetch over a network ends: it is allowed a limited time, or every request has an end. -/
def Outlook.AllEnd (net : Network) (settings : Settings) : Prop :=
  Span.ofFloat settings.timeout ≠ .endless ∨ ∀ route nth, (net route nth).delay ≠ none

/-- The outlook that fetches may bring anything, and end if all of them do. -/
def Outlook.anything (net : Network) (settings : Settings) : Outlook :=
  ⟨⟨fun _ _ => True, fun _ => Outlook.AllEnd net settings⟩,
    ⟨fun _ _ => True, fun _ => Outlook.AllEnd net settings⟩⟩

/-- A fetch ends if it is allowed a limited time, or ends by itself. -/
theorem Delivery.isSome_ending {ν : Type} {allowance : Span} {d : Delivery ν}
    (h : allowance ≠ .endless ∨ d.delay ≠ none) (now : Rat) :
    (d.ending allowance now).isSome = true := by
  rw [Delivery.ending, Option.isSome_map]
  cases allowance with
  | seconds s => exact Delivery.isSome_end? rfl d now
  | undefined => exact Delivery.isSome_end? rfl d now
  | endless =>
    obtain ⟨t, ht⟩ := Option.ne_none_iff_exists'.mp (h.resolve_left (by simp))
    simp [Delivery.end?, ht, Span.deadline?]

/-- **Over any network, fetches do what this outlook says.** -/
theorem Outlook.covers_anything (net : Network) (settings : Settings) :
    (Outlook.anything net settings).Covers net settings := by
  rintro s rfl code
  refine ⟨fun now => ⟨fun _ _ => trivial, fun hends => Delivery.isSome_ending ?_ now⟩,
    fun now => ⟨fun _ _ => trivial, fun hends => Delivery.isSome_ending ?_ now⟩⟩
  · refine hends.imp_right fun hall => ?_
    unfold Service.ratesFetch
    split
    · exact hall _ _
    · simp
  · exact hends.imp_right fun hall => hall _ _

/-- **No failure and no number that is not finite comes out of the engine.** What is read has a
    finite amount; an evaluation that fails gives no answer, and showing a finite number does not
    fail; answers without rates show finite numbers.  In every run of a service, over any network, a
    query is answered with finite numbers or with nothing; and it is left without a result only if
    fetches are allowed any time and some request never ends. -/
theorem Service.run_showsFinite (settings : Settings) (fiat crypto : Span) (net : Network)
    (events : List Event) :
    (∀ query q, Query.read? query = some q → q.amount.isFinite = true) ∧
      (∀ query error, Arithmetic.evaluateText query = .error error →
        Arithmetic.calculation? query = none) ∧
      (∀ x : Float, x.isFinite = true → display (.real x) = .ok (showFloat x)) ∧
      (∀ query a, Arithmetic.calculation? query = some a ∨ offlineAnswer? query = some a →
        a.ShowsFinite query) ∧
      ∀ id answer, (id, answer) ∈ ((withLifetimes settings fiat crypto).run net events).2 →
        ∃ job, (events.flatMap Event.jobs)[id]? = some job ∧ ∀ query, job = .answer query →
          (∀ r, answer = some r → r.AnswersFinite query) ∧
            (answer = none → Span.ofFloat settings.timeout = .endless ∧
              ∃ route nth, (net route nth).delay = none) := by
  refine ⟨fun _ _ => isFinite_of_read?, fun _ _ => calculation?_of_error,
    fun _ => display_of_isFinite, ?_, ?_⟩
  · rintro query a (h | h)
    · exact showsFinite_calculation? h
    · exact showsFinite_offlineAnswer? h
  · intro id answer hmem
    have hsound := sound_withLifetimes (Outlook.covers_anything net settings) fiat crypto
    obtain ⟨job, hjob, hforetold, hlacking⟩ := hsound.reliable_run events id answer hmem
    refine ⟨job, hjob, ?_⟩
    rintro query rfl
    refine ⟨?_, ?_⟩
    · intro r hr
      obtain ⟨f, -, -, rfl⟩ := hforetold r hr
      exact Plan.answersFinite_queryPlan query f
    · intro hnone
      obtain ⟨l, -, hnot⟩ := hlacking hnone
      -- If every fetch ended, an answer would be there.
      have hstuck : ¬ Outlook.AllEnd net settings := by
        cases l with
        | rates code => exact hnot
        | price code => exact hnot
      unfold Outlook.AllEnd at hstuck
      push Not at hstuck
      exact hstuck

end Reckoner
