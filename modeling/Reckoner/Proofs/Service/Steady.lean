import Reckoner.Proofs.Cache.Ties
import Reckoner.Proofs.Service.Requests

/-!
# Services over steady networks

Two networks in which every route always gives the same reply, after the same time, may still differ
in how ties end.  A service cannot tell them apart as long as no fetch ties that it begins.

* `Network.IsSteady` — every route always gives the same reply, after the same time.
* `ratesFetch_congr`, `priceFetch_congr` — what was sent before does not matter to a fetch.
* `Service.ties` — whether something that is looked up now begins a fetch that ties.
* `Service.Untied`, `Service.UntiedRun` — no fetch ties that a job begins now, or that a run begins.
* `untied_withLifetimes` — a new service is untied if no reply takes all the time that is allowed.
* `look_congr`, `begin_congr`, `askAll_congr` — untied lookups and jobs do the same over both
  networks.
* `run_congr` — and so do untied runs.
-/

namespace Reckoner

/-- **Every route always gives the same reply**, after the same time.  How ties end is left open. -/
def Network.IsSteady (replies : String → TimedReply) (net : Network) : Prop :=
  ∀ route nth,
    (net route nth).delay = (replies route).delay ∧ (net route nth).reply = (replies route).reply

/-- The network in which every route always gives the same reply, and ends ties in the same way. -/
def Network.steady (replies : String → TimedReply) : Network := fun route _ => replies route

/-- A network whose feeds reply always the same is steady. -/
theorem Network.isSteady_steady (replies : String → TimedReply) :
    (steady replies).IsSteady replies := fun _ _ => ⟨rfl, rfl⟩

namespace Service

variable {replies : String → TimedReply} {net net' : Network} {s s' : Service}

/-! ### Fetches -/

/-- What was sent before does not matter to a reply, nor to when it comes. -/
theorem answer_congr (h : net.IsSteady replies) (h' : net'.IsSteady replies)
    (sent sent' : List Request) (request : Request) :
    (net'.answer sent' request).delay = (net.answer sent request).delay ∧
      (net'.answer sent' request).reply = (net.answer sent request).reply :=
  ⟨(h' _ _).1.trans (h _ _).1.symm, (h' _ _).2.trans (h _ _).2.symm⟩

/-- **A fetch of rates is the same over both networks**, whatever was sent before. -/
theorem ratesFetch_congr (h : net.IsSteady replies) (h' : net'.IsSteady replies)
    (hsettings : s'.settings = s.settings) (code : String) :
    (s'.ratesFetch net' code).1 = (s.ratesFetch net code).1 ∧
      (s'.ratesFetch net' code).2.delay = (s.ratesFetch net code).2.delay ∧
      (s'.ratesFetch net' code).2.value = (s.ratesFetch net code).2.value := by
  unfold ratesFetch
  rw [hsettings]
  cases s.settings.fiat with
  | feed f =>
    obtain ⟨hdelay, hreply⟩ := answer_congr h h' s.sent s'.sent (f.ratesRequest code)
    exact ⟨rfl, hdelay, congrArg (fun reply => ((f.rateTable code reply).toOption).join) hreply⟩
  | fixed => exact ⟨rfl, rfl, rfl⟩

/-- A fetch of rates takes the time of a reply, or none where the rates are given beforehand. -/
theorem delay_ratesFetch (h : net.IsSteady replies) (s : Service) (code : String) :
    (s.ratesFetch net code).2.delay = some 0 ∨
      ∃ route, (s.ratesFetch net code).2.delay = (replies route).delay := by
  unfold ratesFetch
  cases s.settings.fiat with
  | feed f => exact .inr ⟨_, (h _ _).1⟩
  | fixed => exact .inl rfl

/-- **A fetch of a price is the same over both networks**, whatever was sent before. -/
theorem priceFetch_congr (h : net.IsSteady replies) (h' : net'.IsSteady replies)
    (hsettings : s'.settings = s.settings) (code : String) :
    (s'.priceFetch net' code).1 = (s.priceFetch net code).1 ∧
      (s'.priceFetch net' code).2.delay = (s.priceFetch net code).2.delay ∧
      (s'.priceFetch net' code).2.value = (s.priceFetch net code).2.value := by
  have hprices := answer_congr h h' s.sent s'.sent (s.priceFetch net code).1
  unfold priceFetch
  rw [hsettings]
  exact ⟨rfl, hprices.1,
    congrArg (fun reply => ((s.settings.crypto.price _ reply).toOption).join) hprices.2⟩

/-! ### Ties -/

/-- Whether something that is looked up now begins a fetch that ties. -/
def ties (net : Network) (s : Service) (l : Lookup) : Bool :=
  s.lacks l && match l with
    | .rates code => (s.ratesFetch net code).2.ties s.fiat.allowance s.fiat.now
    | .price code => (s.priceFetch net code).2.ties s.crypto.allowance s.crypto.now

/-- **No fetch ties that a job begins now.** -/
def Untied (net : Network) (s : Service) (job : Job) : Prop :=
  ∀ l ∈ job.plan.lookups, s.ties net l = false

/-- **No fetch ties that is begun in a run.** -/
def UntiedRun (net : Network) (s : Service) : List Event → Prop
  | [] => True
  | e :: rest => (∀ job ∈ e.jobs, s.Untied net job) ∧ UntiedRun net (s.step net e).1 rest

/-- **A new service is untied** if no reply takes all the time that is allowed. -/
theorem untied_withLifetimes (hnet : net.IsSteady replies) {settings : Settings}
    (hfloat : ∀ route t, (replies route).delay = some t → IsFloat t)
    (hne : ∀ route t, (replies route).delay = some t →
      Span.ofFloat settings.timeout ≠ .seconds t) (fiat crypto : Span) (job : Job) :
    (withLifetimes settings fiat crypto).Untied net job := by
  have hties : ∀ {ν : Type} {d : Delivery ν} (route : String), d.delay = (replies route).delay →
      d.ties (Span.ofFloat settings.timeout) 0 = false := by
    intro ν d route hdelay
    rw [Bool.eq_false_iff, ne_eq, Delivery.ties_zero_iff (fun t ht => hfloat route t (hdelay ▸ ht))
      fun s hs => Span.isFloat_of_ofFloat hs]
    rintro ⟨t, ht, -, hsame⟩
    exact hne route t (hdelay ▸ ht) hsame
  intro l _
  refine Bool.and_eq_false_imp.mpr fun _ => ?_
  cases l with
  | rates code =>
    rcases delay_ratesFetch hnet (withLifetimes settings fiat crypto) code with
      hnone | ⟨route, hroute⟩
    · -- What needs no time ties with nothing.
      refine Bool.eq_false_iff.mpr fun hnot => ?_
      obtain ⟨-, t, ht, hpos, -⟩ := Delivery.ties_iff.mp hnot
      cases hnone.symm.trans ht
      exact absurd hpos (lt_irrefl 0)
    · exact hties route hroute
  | price code => exact hties _ (hnet _ _).1

/-- **Standstill.** No time goes by between two states of a service, and nothing becomes lacking. -/
structure Standstill (s s' : Service) : Prop where
  settings_eq : s'.settings = s.settings
  fiat_allowance_eq : s'.fiat.allowance = s.fiat.allowance
  fiat_now_eq : s'.fiat.now = s.fiat.now
  crypto_allowance_eq : s'.crypto.allowance = s.crypto.allowance
  crypto_now_eq : s'.crypto.now = s.crypto.now
  lacks : ∀ l, s'.lacks l = true → s.lacks l = true

/-- What is at a standstill twice is at a standstill. -/
theorem Standstill.trans {s'' : Service} (h : s.Standstill s') (h' : s'.Standstill s'') :
    s.Standstill s'' where
  settings_eq := h'.settings_eq.trans h.settings_eq
  fiat_allowance_eq := h'.fiat_allowance_eq.trans h.fiat_allowance_eq
  fiat_now_eq := h'.fiat_now_eq.trans h.fiat_now_eq
  crypto_allowance_eq := h'.crypto_allowance_eq.trans h.crypto_allowance_eq
  crypto_now_eq := h'.crypto_now_eq.trans h.crypto_now_eq
  lacks l hl := h.lacks l (h'.lacks l hl)

/-- Looking something up is a standstill. -/
theorem standstill_look (net : Network) (id : Nat) (s : Service) (l : Lookup) :
    s.Standstill (look net id s l) := by
  cases l with
  | rates code =>
    rw [look_rates]
    refine ⟨rfl, CacheRun.allowance_call _ _ _ _, CacheRun.now_call _ _ _ _, rfl, rfl, ?_⟩
    rintro (other | other) hlacks
    · exact CacheRun.lacks_of_lacks_call id _ hlacks
    · exact hlacks
  | price code =>
    rw [look_price]
    refine ⟨rfl, rfl, rfl, CacheRun.allowance_call _ _ _ _, CacheRun.now_call _ _ _ _, ?_⟩
    rintro (other | other) hlacks
    · exact hlacks
    · exact CacheRun.lacks_of_lacks_call id _ hlacks

/-- The beginning of a job is a standstill. -/
theorem standstill_begin (net : Network) (s : Service) (job : Job) :
    s.Standstill (s.begin net job) := by
  have hopened : s.Standstill (s.opened job.plan) :=
    ⟨rfl, rfl, rfl, rfl, rfl, fun l hl => by cases l <;> exact hl⟩
  exact begin_induction hopened (fun id l _ hs => hs.trans (standstill_look net id _ l))
    fun hs => { hs with lacks := fun l hl => hs.lacks l (by cases l <;> exact hl) }

/-- **Nothing ties after a standstill that did not tie before.** -/
theorem Standstill.ties_eq_false (h : s.Standstill s') (hnet : net.IsSteady replies) {l : Lookup}
    (hl : s.ties net l = false) : s'.ties net l = false := by
  by_contra hties
  obtain ⟨hlacks, hfetch⟩ := Bool.and_eq_true_iff.mp (Bool.not_eq_false _ ▸ hties)
  replace hl := Bool.and_eq_false_imp.mp hl (h.lacks l hlacks)
  cases l with
  | rates code =>
    have hdelay := (ratesFetch_congr hnet hnet h.settings_eq code).2.1
    simp only [Delivery.ties_congr hdelay, h.fiat_allowance_eq, h.fiat_now_eq] at hfetch
    exact absurd hfetch (Bool.eq_false_iff.mp hl)
  | price code =>
    have hdelay := (priceFetch_congr hnet hnet h.settings_eq code).2.1
    simp only [Delivery.ties_congr hdelay, h.crypto_allowance_eq, h.crypto_now_eq] at hfetch
    exact absurd hfetch (Bool.eq_false_iff.mp hl)

/-! ### What happens over both networks -/

/-- **An untied lookup does the same over both networks.** -/
theorem look_congr (h : net.IsSteady replies) (h' : net'.IsSteady replies) (id : Nat) {l : Lookup}
    (hl : s.ties net l = false) : look net' id s l = look net id s l := by
  have hfetch := Bool.and_eq_false_imp.mp hl
  cases l with
  | rates code =>
    obtain ⟨hrequest, hdelay, hvalue⟩ := ratesFetch_congr h h' (s := s) rfl code
    rw [look_rates, look_rates, hrequest, CacheRun.call_congr id hdelay hvalue hfetch]
  | price code =>
    obtain ⟨hrequest, hdelay, hvalue⟩ := priceFetch_congr h h' (s := s) rfl code
    rw [look_price, look_price, hrequest, CacheRun.call_congr id hdelay hvalue hfetch]

/-- Lookups without a tie do the same on two steady networks with the same replies. -/
theorem foldl_look_congr (h : net.IsSteady replies) (h' : net'.IsSteady replies) (id : Nat)
    {ls : List Lookup} (hls : ∀ l ∈ ls, s.ties net l = false) :
    ls.foldl (look net' id) s = ls.foldl (look net id) s := by
  induction ls generalizing s with
  | nil => rfl
  | cons l rest ih =>
    obtain ⟨hl, hrest⟩ := List.forall_mem_cons.mp hls
    rw [List.foldl_cons, List.foldl_cons, look_congr h h' id hl]
    exact ih fun l' hl' => (standstill_look net id s l).ties_eq_false h (hrest l' hl')

/-- **An untied job begins in the same way over both networks.** -/
theorem begin_congr (h : net.IsSteady replies) (h' : net'.IsSteady replies) {job : Job}
    (hjob : s.Untied net job) : s.begin net' job = s.begin net job := by
  have hopened : ∀ l ∈ job.plan.lookups, (s.opened job.plan).ties net l = false := by
    rintro (code | code) hl <;> exact hjob _ hl
  rw [begin_eq, begin_eq, foldl_look_congr h h' s.begun hopened]

/-- So do jobs that begin without a tie. -/
theorem beginAll_congr (h : net.IsSteady replies) (h' : net'.IsSteady replies) {asked : List Job}
    (hasked : ∀ job ∈ asked, s.Untied net job) : s.beginAll net' asked = s.beginAll net asked := by
  induction asked generalizing s with
  | nil => rfl
  | cons job rest ih =>
    obtain ⟨hjob, hrest⟩ := List.forall_mem_cons.mp hasked
    show (s.begin net' job).beginAll net' rest = (s.begin net job).beginAll net rest
    rw [begin_congr h h' hjob]
    exact ih fun other hother l hl =>
      (standstill_begin net s job).ties_eq_false h (hrest other hother l hl)

/-- **Untied jobs that are asked side by side get the same answers over both networks.** -/
theorem askAll_congr (h : net.IsSteady replies) (h' : net'.IsSteady replies) {asked : List Job}
    (hasked : ∀ job ∈ asked, s.Untied net job) : s.askAll net' asked = s.askAll net asked := by
  rw [askAll_eq, askAll_eq, awaitAll, awaitAll, beginAll_congr h h' hasked]

/-- A check of a feed depends on nothing but the reply. -/
theorem checkFeed_congr (h : net.IsSteady replies) (h' : net'.IsSteady replies) (s : Service)
    (f : Feed) : s.checkFeed net' f = s.checkFeed net f := by
  obtain ⟨hdelay, hreply⟩ := answer_congr h h' s.sent s.sent f.healthRequest
  unfold checkFeed
  simp only [hdelay, hreply]

/-- The feeds are found to be the same over both networks. -/
theorem health_congr (h : net.IsSteady replies) (h' : net'.IsSteady replies) (s : Service) :
    s.health net' = s.health net := by
  have hfiat : s.checkFiat net' = s.checkFiat net := by
    unfold checkFiat
    cases s.settings.fiat with
    | feed f => exact checkFeed_congr h h' s f
    | fixed => rfl
  unfold health
  simp only [hfiat, checkFeed_congr h h']

/-- **An event without a tie does the same** on two steady networks with the same replies. -/
theorem step_congr (h : net.IsSteady replies) (h' : net'.IsSteady replies) {e : Event}
    (he : ∀ job ∈ e.jobs, s.Untied net job) : s.step net' e = s.step net e := by
  have hperform : s.perform net' e = s.perform net e := by
    cases e with
    | ask asked =>
      have hasked : s.askAll net' asked = s.askAll net asked := askAll_congr h h' he
      simp only [perform, hasked]
    | start job => exact congrArg (·, []) (begin_congr h h' (he job List.mem_cons_self))
    | cancel | pass | clear => rfl
    | health => exact congrArg (fun checked => (checked.1, [])) (health_congr h h' s)
  unfold step
  rw [hperform]

/-- **An untied run goes the same way over both networks.** -/
theorem run_congr (h : net.IsSteady replies) (h' : net'.IsSteady replies) {events : List Event}
    (hevents : s.UntiedRun net events) : s.run net' events = s.run net events := by
  induction events generalizing s with
  | nil => rfl
  | cons e rest ih =>
    obtain ⟨he, hrest⟩ := hevents
    simp only [run, step_congr h h' he, ih hrest]

end Service

end Reckoner
