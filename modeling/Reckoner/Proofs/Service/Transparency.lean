import Reckoner.Proofs.Service.Conversions
import Reckoner.Proofs.Service.Steady

/-!
# Caching changes no answer

Over a network in which every route always gives the same reply, how each fetch ends is known, and
so is the result of every job, without any cache.  A service that has done anything before gives
the same answer as one that has done nothing, as long as no fetch ties: where the time for a fetch
is over at the very moment at which it would end, what it brings may be lost.

* `Outlook.steady` — how the fetches of a service end over a steady network, by their delays alone.
* `Network.decided` — the steady network over which a tie goes to what comes first by the delay.
* `Outlook.covers_steady` — over this one every fetch ends so, whenever it begins.
* `Service.Transparent`, `Service.AnswersFrom` — answers are those of a service that is asked for
  each job alone; an answer follows from how lookups end.
* `Service.run_transparent` — every answer of every untied run is that of a new service, which
  follows from the replies of the network.
* `Service.answer_lost_in_tie` — a run that is not untied may lose an answer.
-/

namespace Reckoner

open Reckoner.Number

/-- A fetch that always ends as an exact forecast knows does what the forecast says. -/
theorem Forecast.covers_exact {ν : Type} {ending : String → Option (Option ν)} {allowance : Span}
    {key : String} {d : Delivery ν} (h : ∀ now, d.ending allowance now = ending key) :
    (Forecast.exact ending).Covers allowance key d := by
  intro now
  refine ⟨?_, ?_⟩
  · intro v hv
    exact (h now).symm.trans hv
  · intro hends
    rw [h now]
    exact hends

/-- The delay of a fetch and what it brings settle its outcome. -/
theorem Delivery.outcome_congr {ν : Type} {d d' : Delivery ν} (hdelay : d'.delay = d.delay)
    (hvalue : d'.value = d.value) (allowance : Span) :
    d'.outcome allowance = d.outcome allowance := by
  unfold outcome
  rw [hdelay, hvalue]

/-- The steady network over which a tie goes to what comes first by the delay. -/
def Network.decided (allowance : Span) (replies : String → TimedReply) : Network := fun route _ =>
  { replies route with winsTie := (replies route).delay.any allowance.contains }

/-- Where every tie is decided alike, the feeds still reply always the same. -/
theorem Network.isSteady_decided (allowance : Span) (replies : String → TimedReply) :
    (decided allowance replies).IsSteady replies := fun _ _ => ⟨rfl, rfl⟩

/-- Over this network who takes less time than is allowed wins ties. -/
theorem Network.winsTie_decided {allowance : Span} {replies : String → TimedReply}
    (sent : List Request) (request : Request) {t : Rat}
    (h : ((decided allowance replies).answer sent request).delay = some t) :
    ((decided allowance replies).answer sent request).winsTie = allowance.contains t := by
  show Option.any _ ((decided allowance replies).answer sent request).delay = _
  rw [h]
  rfl

namespace Outlook

/-- How the fetches of a service end over a steady network, by their delays alone.  What was sent
    before does not matter, so that a service that has sent nothing shows it. -/
def steady (settings : Settings) (replies : String → TimedReply) : Outlook :=
  let net := Network.steady replies
  let allowance := Span.ofFloat settings.timeout
  .exact (fun code => ((Service.start settings).ratesFetch net code).2.outcome allowance)
    (fun code => ((Service.start settings).priceFetch net code).2.outcome allowance)

/-- **Where a tie goes to what comes first by the delay, every fetch ends as it is known to end**,
    whatever was sent before. -/
theorem covers_steady (settings : Settings) (replies : String → TimedReply) :
    (steady settings replies).Covers (.decided (Span.ofFloat settings.timeout) replies)
      settings := by
  rintro s rfl code
  have hnet := Network.isSteady_steady replies
  have hdecided := Network.isSteady_decided (Span.ofFloat s.settings.timeout) replies
  have hsettings : s.settings = (Service.start s.settings).settings := rfl
  refine ⟨Forecast.covers_exact fun now => ?_, Forecast.covers_exact fun now => ?_⟩
  · obtain ⟨-, hdelay, hvalue⟩ := Service.ratesFetch_congr hnet hdecided hsettings code
    rw [← Delivery.outcome_congr hdelay hvalue]
    refine Delivery.ending_eq_outcome (fun t ht hpos => ?_) now
    unfold Service.ratesFetch at ht ⊢
    cases hfiat : s.settings.fiat with
    | feed f =>
      rw [hfiat] at ht
      exact Network.winsTie_decided s.sent _ ht
    | fixed =>
      -- What is given beforehand needs no time.
      rw [hfiat] at ht
      cases ht
      exact absurd hpos (lt_irrefl 0)
  · obtain ⟨-, hdelay, hvalue⟩ := Service.priceFetch_congr hnet hdecided hsettings code
    rw [← Delivery.outcome_congr hdelay hvalue]
    exact Delivery.ending_eq_outcome (fun t ht _ => Network.winsTie_decided s.sent _ ht) now

end Outlook

namespace Service

/-- **Every answer is that of a service that is asked for its job alone**, unless a fetch ties when
    it is. -/
def Transparent (net : Network) (alone : Service) (jobs : List Job)
    (answers : List (Nat × Option Result)) : Prop :=
  ∀ id answer, (id, answer) ∈ answers →
    ∃ job, jobs[id]? = some job ∧ (alone.Untied net job → answer = (alone.ask net job).2)

/-- **The answer of a job without any cache**: it has a result exactly if all its lookups end, and
    the result is the one that follows from what they end with. -/
structure AnswersFrom (o : Outlook) (job : Job) (answer : Option Result) : Prop where
  isSome_iff : answer.isSome = true ↔ ∀ l ∈ job.plan.lookups, o.Ends l
  foretold : ∀ r, answer = some r → job.plan.Foretold o r

/-- A job without a tie is asked and answered alike. -/
theorem ask_congr {replies : String → TimedReply} {net net' : Network}
    (h : net.IsSteady replies) (h' : net'.IsSteady replies) {s : Service} {job : Job}
    (hjob : s.Untied net job) : s.ask net' job = s.ask net job := by
  have hasked : s.askAll net' [job] = s.askAll net [job] :=
    askAll_congr h h' (List.forall_mem_singleton.mpr hjob)
  simp only [ask, hasked]

/-- **Cache transparency.** Over networks in which every route always gives the same reply, with
    rates that are good for any time and fetches that are allowed any time, every answer of a job
    in every run in which no fetch ties is the answer that a new service gives when it is asked for
    that job alone, if none ties then.  What a new service answers follows from the replies, without
    any cache.  The one network may end ties in other ways than the other one. -/
theorem run_transparent {replies : String → TimedReply} {net net' : Network}
    (hnet : net.IsSteady replies) (hnet' : net'.IsSteady replies) (settings : Settings)
    (fiat crypto : Span) {events : List Event}
    (hevents : (withLifetimes settings fiat crypto).UntiedRun net events) :
    let fresh := withLifetimes settings fiat crypto
    Transparent net' fresh (events.flatMap Event.jobs) (fresh.run net events).2 ∧
      ∀ job, fresh.Untied net' job →
        AnswersFrom (.steady settings replies) job (fresh.ask net' job).2 := by
  intro fresh
  -- A service cannot tell either network from the one over which all ties are decided.
  have hdecided := Network.isSteady_decided (Span.ofFloat settings.timeout) replies
  have hfresh : fresh.Sound (.decided (Span.ofFloat settings.timeout) replies)
      (.steady settings replies) [] :=
    sound_withLifetimes (Outlook.covers_steady settings replies) fiat crypto
  refine ⟨?_, fun job hjob => ?_⟩
  · intro id answer hmem
    rw [← run_congr hnet hdecided hevents] at hmem
    obtain ⟨job, hjob, hiff⟩ := hfresh.faithful_run events id answer hmem
    -- Both answers are the one result that is foretold, or lacking where none is.
    refine ⟨job, hjob, fun huntied => Option.ext fun r => ?_⟩
    rw [hiff, ← ask_congr hnet' hdecided huntied]
    exact (hfresh.ask_eq_some_iff job r).symm
  · rw [← ask_congr hnet' hdecided hjob]
    exact ⟨hfresh.isSome_ask_iff job, fun r hr => (hfresh.ask_eq_some_iff job r).mp hr⟩

/-! ### Ties that are lost -/

/-- The one reply to every request that comes after some seconds: what one euro costs. -/
def euroReply (delay : Rat) : TimedReply :=
  ⟨some delay, .response 200 "" (.ok (.obj [("rates", .obj [("USD", .float 1.25)])])), false⟩

/-- A run in which a query finds what another job has fetched, after a fetch that outlived the job
    that began it, over a network that ends ties in another way than the one over which a new
    service is asked. -/
theorem transparent_run_of_euros :
    let replies : String → TimedReply := fun _ => euroReply 1
    let net' : Network := fun _ _ => { euroReply 1 with winsTie := true }
    let fresh := withLifetimes (.usual [] 1800 60 5) (.seconds 1800) (.seconds 60)
    let query := Job.answer "5 € to $"
    let events : List Event := [.start (.rates "eur"), .pass (1 / 2), .cancel 0, .clear,
      .ask [.price "usdt", .rate "EUR" "USD"], .pass 1024, .ask [query, .rates "EUR"]]
    fresh.UntiedRun (.steady replies) events ∧ fresh.Untied net' query ∧
      Transparent net' fresh (events.flatMap Event.jobs) (fresh.run (.steady replies) events).2 ∧
        AnswersFrom (.steady (.usual [] 1800 60 5) replies) query (fresh.ask net' query).2 := by
  intro replies net' fresh query events
  have hnet : (Network.steady replies).IsSteady replies := Network.isSteady_steady replies
  have hnet' : net'.IsSteady replies := fun _ _ => ⟨rfl, rfl⟩
  -- No event of the run meets a tie: each is evaluated.
  have hevents : fresh.UntiedRun (.steady replies) events := by
    refine ⟨?_, ?_, ?_, ?_, ?_, ?_, ?_, trivial⟩
    all_goals
      simp only [Untied, Event.jobs, List.forall_mem_cons, query, lookups_euroQuery]
      decide +kernel
  have huntied : fresh.Untied net' query := by
    refine untied_withLifetimes hnet' ?_ ?_ _ _ query
    · rintro - _ ⟨⟩
      show rounded 1 = 1
      decide +kernel
    · rintro - _ ⟨⟩
      decide +kernel
  obtain ⟨htransparent, hanswers⟩ := run_transparent hnet hnet' (.usual [] 1800 60 5)
    (.seconds 1800) (.seconds 60) hevents
  exact ⟨hevents, huntied, htransparent, hanswers query huntied⟩

/-- What five euros are in dollars follows from the rate that a lookup yields. -/
theorem InUse.ask_euroQuery {net : Network} {o : Outlook} {fx crypto : Feed} {timeout : Float}
    {jobs : List Job} {s : Service} (h : s.InUse net o fx crypto timeout jobs)
    {rate? : Option Float} (hrate : (s.tableNow? net "EUR").map
      (fun table => table.bind fun t => t.lookup dollarCode) = some rate?) :
    ∃ a?, (s.ask net (.answer "5 € to $")).2 = some (.answer a?) ∧
      (a? = none ↔ ∀ rate, rate? = some rate → (5 * (rate / 1)).isFinite = false) := by
  obtain ⟨q, a, b, hq, hoffline, hamount, hnamea, ha, hnameb, hb, hne⟩ := read_euroQuery
  obtain ⟨hlista, hcodea⟩ := Asset.fiat?_eq_some ha
  obtain ⟨hlistb, hcodeb⟩ := Asset.fiat?_eq_some hb
  have hx : s.dollarPrice? net a = some rate? := by
    rw [dollarPrice?_of_fiat hlista (hcodea ▸ by decide), hcodea, hrate]
  have hy : s.dollarPrice? net b = some (some 1) := dollarPrice?_of_dollar hlistb hcodeb
  -- Both prices are known now, so that the query has its answer at once.
  obtain ⟨a?, hanswer, hconverts⟩ := h.converts_ask (queryPlan_of_read? hoffline hq) <| by
    intro a' b' ha' hb' _
    cases hnamea.symm.trans ha'
    cases hnameb.symm.trans hb'
    exact ⟨Option.isSome_of_eq_some hx, Option.isSome_of_eq_some hy⟩
  refine ⟨a?, hanswer, hconverts.eq_none_iff.trans ?_⟩
  cases rate? <;> simp [hnamea, hnameb, hne, hx, hy, hamount]

/-- **An answer is lost in a tie.** A new service answers a conversion for which it has to wait
    almost as long as it may.  After some months the same query is answered with nothing: the moment
    at which the rates would come is rounded to the one at which the time for them is over. -/
theorem answer_lost_in_tie :
    let net := Network.steady fun _ => euroReply (5 - 1 / 2 ^ 29)
    let months : Rat := 2 ^ 23 - 4 + 1 / 2 ^ 30
    let fresh := withLifetimes (.usual [] 1800 60 5) (.seconds 1800) (.seconds 60)
    let job := Job.answer "5 € to $"
    (0, some (.answer none)) ∈ (fresh.run net [.pass months, .ask [job]]).2 ∧
      ∃ answer, (fresh.ask net job).2 = some (.answer (some answer)) := by
  intro net months fresh job
  let fx := Feed.fiat Feed.fiatName Feed.fiatUrl (.real 5)
  let crypto := Feed.crypto [] Feed.cryptoName Feed.cryptoUrl (.str "") (.real 5)
  have hrun := inUse_run fx crypto 1800 60 5 (.seconds 1800) (.seconds 60) net
  -- Late on the clock the end of the fetch is rounded to the moment at which its time is over.
  refine ⟨?_, ?_⟩
  · let s := (fresh.run net [.pass months]).1
    obtain ⟨a?, hanswer, hnone⟩ := (hrun [.pass months]).ask_euroQuery
      (show (s.tableNow? net "EUR").map _ = some none by decide +kernel)
    have hmem : (s.begun, (s.ask net job).2) ∈ (s.run net [.ask [job]]).2 := mem_run_ask s net job
    rw [hnone.mpr (by simp)] at hanswer
    rw [show (s.ask net job).2 = _ from hanswer] at hmem
    exact hmem
  · obtain ⟨a?, hanswer, hnone⟩ := (hrun []).ask_euroQuery
      (show (fresh.tableNow? net "EUR").map _ = some (some 1.25) by decide +kernel)
    cases a? with
    | some answer => exact ⟨answer, hanswer⟩
    | none => exact absurd (hnone.mp rfl 1.25 rfl) (by decide)

end Service

end Reckoner
