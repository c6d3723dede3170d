import Reckoner.Proofs.Query.LetterCase
import Reckoner.Proofs.Service.Alike
import Reckoner.Proofs.Service.Interpretations

/-!
# Capital and small letters in queries

It does not matter in which case the letters of a query are typed.  The phrases of a query stand for
the same, an expression has no letters at all, and a plan that waits for rates is the same but for
the texts of its query, on which nothing depends.

* `unit?_toLower`, `scale?_toLower`, `asset?_toLower` — what phrases stand for.
* `calculation?_toLower` — expressions.
* `offlineAnswer?_toLower` — answers that need no rates.
* `queryPlan_toLower` — what a query comes to, with or without rates.
* `letter_case_ignored` — texts that differ only in case are answered alike, at all times.
-/

namespace Reckoner

open Reckoner.Text

/-! ### What phrases stand for -/

namespace Alias

/-- The key of a unit is in lower case. -/
theorem unitKey_toLower (s : List Char) : unitKey (s.map Char.toLower) = unitKey s := by
  simp only [unitKey, trim_toLower, lower_toLower]

/-- So is the key of a temperature scale. -/
theorem scaleKey_toLower (s : List Char) : scaleKey (s.map Char.toLower) = scaleKey s := by
  simp only [scaleKey, unitKey_toLower]

/-- So is the key of an asset. -/
theorem assetKey_toLower (s : List Char) : assetKey (s.map Char.toLower) = assetKey s := by
  simp only [assetKey, trim_toLower, lower_toLower]

/-- The letters of a code are in upper case. -/
theorem codeLetters_toLower (s : List Char) : codeLetters (s.map Char.toLower) = codeLetters s := by
  simp only [codeLetters, trim_toLower, upper_toLower]

/-- So the same asset has the code. -/
theorem assetByCode?_toLower (s : List Char) :
    assetByCode? (s.map Char.toLower) = assetByCode? s := by
  rw [assetByCode?, codeLetters_toLower, assetByCode?]

variable (phrase : String)

/-- The same unit is named in either case. -/
theorem unit?_toLower : unit? phrase.toLower = unit? phrase := by
  simp only [unit?, toList_toLower, unitKey_toLower]

/-- The same temperature scale is. -/
theorem scale?_toLower : scale? phrase.toLower = scale? phrase := by
  simp only [scale?, toList_toLower, scaleKey_toLower]

/-- The same asset is, by its name or by its code. -/
theorem asset?_toLower : asset? phrase.toLower = asset? phrase := by
  simp only [asset?, toList_toLower, assetKey_toLower, assetByCode?_toLower]

end Alias

/-! ### Answers without rates -/

/-- **The same is converted without rates**, to the same text. -/
theorem conversion?_toLower (q : Query) : conversion? q.toLower = conversion? q := by
  unfold conversion?
  rw [q.source_toLower, q.target_toLower, q.amount_toLower, Alias.scale?_toLower,
    Alias.scale?_toLower, Alias.unit?_toLower, Alias.unit?_toLower]

/-- Blanks at the ends of a query have no case. -/
theorem trim_string_toLower (query : String) :
    trim query.toLower.toList = (trim query.toList).map Char.toLower := by
  rw [toList_toLower, trim_toLower]

/-- What is calculated is a text without the blanks at its ends. -/
theorem calculation?_congr {query query' : String} (h : trim query.toList = trim query'.toList) :
    Arithmetic.calculation? query = Arithmetic.calculation? query' := by
  unfold Arithmetic.calculation?
  rw [h]

/-- A text with a letter is not calculated. -/
theorem calculation?_of_letter {query : String} {c : Char} (hc : c ∈ trim query.toList)
    (hletter : c.isAlpha = true) : Arithmetic.calculation? query = none := by
  refine Option.eq_none_iff_forall_ne_some.mpr fun a ha => ?_
  rw [(Arithmetic.characters_of_calculation? ha).1 c hc] at hletter
  cases hletter

/-- **A calculation has no letters**, so that it is the same in either case. -/
theorem calculation?_toLower (query : String) :
    Arithmetic.calculation? query.toLower = Arithmetic.calculation? query := by
  by_cases hletters : ∃ c ∈ trim query.toList, c.isAlpha = true
  · obtain ⟨c, hc, hletter⟩ := hletters
    have hlower : c.toLower ∈ trim query.toLower.toList := by
      rw [trim_string_toLower]
      exact List.mem_map_of_mem hc
    rw [calculation?_of_letter hc hletter,
      calculation?_of_letter hlower ((isCaseBlind_isAlpha c).trans hletter)]
  · push Not at hletters
    refine calculation?_congr ((trim_string_toLower query).trans ?_)
    have hsame : ∀ c ∈ trim query.toList, c.toLower = c := fun c hc =>
      (toLower_eq_iff (Bool.eq_false_iff.mpr (hletters c hc))).mpr rfl
    rw [List.map_congr_left hsame, List.map_id']

/-- Queries in either case have equally many characters. -/
theorem isLongEnough_toLower (query : String) :
    isLongEnough query.toLower = isLongEnough query := by
  rw [isLongEnough, trim_string_toLower, List.length_map, isLongEnough]

/-- **An answer without rates** does not depend on the case of letters. -/
theorem offlineAnswer?_toLower (query : String) :
    offlineAnswer? query.toLower = offlineAnswer? query := by
  have hconversion : ((Query.read? query).map Query.toLower).bind conversion? =
      (Query.read? query).bind conversion? := by
    cases Query.read? query with
    | none => rfl
    | some q => rw [Option.map_some, Option.bind_some, Option.bind_some, conversion?_toLower]
  rw [offlineAnswer?, isLongEnough_toLower, Query.read?_toLower, calculation?_toLower, hconversion,
    offlineAnswer?]

/-! ### Plans -/

/-- **The same is looked up**, and the plans differ only in the texts of the queries. -/
theorem conversionPlan_toLower (q : Query) :
    (conversionPlan q.toLower).bare = (conversionPlan q).bare := by
  unfold conversionPlan
  rw [q.source_toLower, q.target_toLower, q.amount_toLower, Alias.asset?_toLower,
    Alias.asset?_toLower]
  split
  · split <;> rfl
  · rfl

/-- **The plan for a query** depends on the case of letters in the texts of the query only. -/
theorem queryPlan_toLower (query : String) :
    (queryPlan query.toLower).bare = (queryPlan query).bare := by
  rw [queryPlan, isLongEnough_toLower, offlineAnswer?_toLower, Query.read?_toLower, queryPlan]
  split
  · cases offlineAnswer? query with
    | some answer => rfl
    | none =>
      cases Query.read? query with
      | none => rfl
      | some q => exact conversionPlan_toLower q
  · rfl

/-! ### Events -/

/-- A job with small letters in the query that was typed. -/
def Job.toLower : Job → Job
  | .answer query => .answer query.toLower
  | job => job

/-- A job with small letters comes to the same. -/
theorem Job.alike_toLower (job : Job) : job.Alike job.toLower := by
  cases job with
  | answer query => exact (queryPlan_toLower query).symm
  | convert | rates | rate | price | dollars => rfl

namespace Service

/-- An event with small letters in the queries that are typed. -/
def Event.toLower : Event → Event
  | .ask jobs => .ask (jobs.map Job.toLower)
  | .start job => .start job.toLower
  | e => e

/-- So does an event. -/
theorem Event.alike_toLower (e : Event) : e.Alike e.toLower := by
  cases e with
  | ask jobs =>
    refine .ask ?_
    rw [List.forall₂_map_right_iff]
    exact List.forall₂_same.mpr fun job _ => job.alike_toLower
  | start job => exact .start job.alike_toLower
  | cancel id => exact .cancel id
  | pass seconds => exact .pass seconds
  | clear => exact .clear
  | health => exact .health

/-- A run with small letters cannot be told from the run itself. -/
theorem run_toLower (s : Service) (net : Network) (events : List Event) :
    (s.run net events).1.bare = (s.run net (events.map Event.toLower)).1.bare ∧
      (s.run net events).2 = (s.run net (events.map Event.toLower)).2 := by
  refine run_alike rfl net ?_
  rw [List.forall₂_map_right_iff]
  exact List.forall₂_same.mpr fun e _ => e.alike_toLower

end Service

/-- **The case of letters never matters.** Texts that differ only in the case of letters from `A`
    to `Z` have the same answer without rates.  From any state of a service and over any network,
    what is asked with such texts, in whatever order and at whatever times, brings the same answers
    and sends the same requests. -/
theorem letter_case_ignored :
    (∀ query query' : String, query.toLower = query'.toLower →
      offlineAnswer? query = offlineAnswer? query') ∧
    ∀ (s : Service) (net : Network) (events events' : List Service.Event),
      events.map Service.Event.toLower = events'.map Service.Event.toLower →
        (s.run net events).2 = (s.run net events').2 ∧
          (s.run net events).1.sent = (s.run net events').1.sent := by
  refine ⟨fun query query' h => ?_, fun s net events events' h => ?_⟩
  · rw [← offlineAnswer?_toLower query, h, offlineAnswer?_toLower]
  · obtain ⟨hservice, hanswers⟩ := s.run_toLower net events
    obtain ⟨hservice', hanswers'⟩ := s.run_toLower net events'
    rw [← h] at hservice' hanswers'
    exact ⟨hanswers.trans hanswers'.symm, congrArg (·.sent) (hservice.trans hservice'.symm)⟩

/-- Two ways to type a distance, and two ways to type a sum of money. -/
theorem letter_case_of_kilometres_and_dollars :
    let s := Service.start (.usual [] 1800 60 5)
    let net : Network := fun _ _ => ⟨some 0, .response 200 "" (.error "empty"), false⟩
    let events : List Service.Event := [.ask [.answer "3 usd IN Eur"]]
    let events' : List Service.Event := [.ask [.answer "3 USD in eUR"]]
    "5 KM to Mi".toLower = "5 km TO mI".toLower ∧
      offlineAnswer? "5 KM to Mi" = offlineAnswer? "5 km TO mI" ∧
      events.map Service.Event.toLower = events'.map Service.Event.toLower ∧
      (s.run net events).2 = (s.run net events').2 ∧
        (s.run net events).1.sent = (s.run net events').1.sent := by
  intro s net events events'
  have hdistance : "5 KM to Mi".toLower = "5 km TO mI".toLower :=
    toLower_eq_toLower_iff.mpr (by decide)
  have hmoney : "3 usd IN Eur".toLower = "3 USD in eUR".toLower :=
    toLower_eq_toLower_iff.mpr (by decide)
  have hevents : events.map Service.Event.toLower = events'.map Service.Event.toLower :=
    congrArg (fun query => [Service.Event.ask [.answer query]]) hmoney
  exact ⟨hdistance, letter_case_ignored.1 _ _ hdistance, hevents,
    letter_case_ignored.2 s net events events' hevents⟩

end Reckoner
