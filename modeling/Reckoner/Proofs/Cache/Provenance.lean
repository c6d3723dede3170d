import Reckoner.Proofs.Cache.History
import Reckoner.Proofs.Cache.SingleFlight

/-!
# Where the values of a rate cache come from

The state of a cache is a function of its past: an entry is the latest delivery for its key since
the last clearing, and a flight holds those who called for its fetch and have not given up.

* `Recorded` — the invariant that ties the state to the history.
* `step_recorded` — every move keeps it.
* `CallExplained`, `EndExplained` — what a call receives, and who is told what at the end of a
  fetch, in terms of what had happened before.
* `run_explained` — both hold of everything that happens in any run.
-/

namespace Reckoner.RateCache.Life

variable {ω ν : Type}

/-! ### The state as a function of the past -/

section

variable [DecidableEq ω]

/-- **Entries and flights are what the past says.** -/
structure Recorded (lifetime : Span) (s : Life ω ν) : Prop where
  lifetime_eq : s.cache.lifetime = lifetime
  entry_eq : ∀ key, s.cache.entries.lookup key = lastDelivery key s.history
  time_le : ∀ x ∈ s.history, ∀ t, x.time? = some t → t ≤ s.now
  chronological : Chronological s.history
  mem_running_iff : ∀ f, f ∈ s.running ↔ UnderWay f s.history
  unheard : ∀ f, s.started ≤ f.number → Unheard f s.history
  waiters_eq : ∀ f ∈ s.running, ∀ fl, s.cache.flights.lookup f.key = some fl →
    fl.waiters = waitingOn f s.history

/-- A happening at the present time, or at no time, does not break the order of times. -/
theorem Recorded.chronological_cons {lifetime : Span} {s : Life ω ν} (h : s.Recorded lifetime)
    {x : Happening ω ν} (hx : ∀ t, x.time? = some t → t = s.now) :
    Chronological (x :: s.history) ∧
      ∀ y ∈ x :: s.history, ∀ t, y.time? = some t → t ≤ s.now := by
  refine ⟨List.pairwise_cons.mpr ⟨fun y hy t u ht hu => ?_, h.chronological⟩, ?_⟩
  · rw [hx t ht]
    exact h.time_le y hy u hu
  · intro y hy t ht
    obtain rfl | hy := List.mem_cons.mp hy
    · exact le_of_eq (hx t ht)
    · exact h.time_le y hy t ht

/-- A fetch under way was heard of, so its number is in use. -/
theorem Recorded.number_lt {lifetime : Span} {s : Life ω ν} (h : s.Recorded lifetime)
    {f : Fetch} (hf : f ∈ s.running) : f.number < s.started := by
  by_contra hge
  exact ((h.mem_running_iff f).mp hf).not_unheard (h.unheard f (not_lt.mp hge))

/-- The next fetch is none of those under way. -/
theorem Recorded.ne_nextFetch {lifetime : Span} {s : Life ω ν} (h : s.Recorded lifetime)
    {f : Fetch} (hf : f ∈ s.running) (key : String) : f ≠ s.nextFetch key := by
  rintro rfl
  exact lt_irrefl _ (h.number_lt hf)

/-- In the beginning nothing has happened, and nothing is there. -/
theorem start_recorded (lifetime : Span) : (start lifetime : Life ω ν).Recorded lifetime where
  lifetime_eq := rfl
  entry_eq key := rfl
  time_le x hx := absurd hx List.not_mem_nil
  chronological := List.Pairwise.nil
  mem_running_iff f := by simp [start, UnderWay]
  unheard f _ x hx := absurd hx List.not_mem_nil
  waiters_eq f hf := absurd hf List.not_mem_nil

/-! ### Every move keeps the invariant -/

/-- **A hit** leaves the cache as it is, and what is told then is told at once. -/
theorem hit_recorded {lifetime : Span} {s : Life ω ν} (h : s.Recorded lifetime) (w : ω)
    (key : String) (v : ν) :
    Recorded lifetime { s with
      cache := s.cache.afterHit
      history := .called w key s.now (.hit v) :: s.history } := by
  obtain ⟨hchron, htime⟩ :=
    h.chronological_cons (x := .called w key s.now (.hit v)) (by simp [Happening.time?])
  refine ⟨h.lifetime_eq, h.entry_eq, htime, hchron, ?_, ?_, h.waiters_eq⟩
  · intro f
    rw [underWay_cons_called f w key s.now (by simp)]
    exact h.mem_running_iff f
  · intro f hf
    exact (unheard_cons_iff ..).mpr ⟨by simp [Happening.fetch?, Reception.fetch?], h.unheard f hf⟩

/-- **A caller who joins** waits for the fetch that is under way for the key, and for no other. -/
theorem join_recorded {lifetime : Span} {s : Life ω ν} (h : s.Recorded lifetime)
    (hsingle : s.SingleFlight) (w : ω) {key : String} {fl : Flight ω}
    (hfl : s.cache.flights.lookup key = some fl) :
    Recorded lifetime { s with
      cache := s.cache.afterJoin w key fl
      history := .called w key s.now (.joined (s.fetchOf key)) :: s.history } := by
  obtain ⟨g, hg, rfl, hfetch⟩ := hsingle.fetchOf_eq_some hfl
  rw [hfetch]
  obtain ⟨hchron, htime⟩ :=
    h.chronological_cons (x := .called w g.key s.now (.joined (some g)))
      (by simp [Happening.time?])
  refine ⟨h.lifetime_eq, h.entry_eq, htime, hchron, ?_, ?_, ?_⟩
  · intro f
    rw [underWay_cons_called f w g.key s.now (by simp)]
    exact h.mem_running_iff f
  · intro f hf
    have hne : g ≠ f := fun hgf => not_le.mpr (h.number_lt hg) (hgf ▸ hf)
    refine (unheard_cons_iff ..).mpr ⟨?_, h.unheard f hf⟩
    simpa [Happening.fetch?, Reception.fetch?] using hne
  · intro f hf fl' hfl'
    by_cases hkey : f.key = g.key
    · -- The fetch that was joined has one more waiter.
      obtain rfl := hsingle.eq_of_key_eq hf hg hkey
      rw [flights_afterJoin, Entries.lookup_put_self] at hfl'
      obtain rfl := Option.some.inj hfl'
      simp [waitingOn, Reception.fetch?, h.waiters_eq f hf fl hfl]
    · have hne : g ≠ f := fun hgf => hkey (hgf ▸ rfl)
      rw [flights_afterJoin, Entries.lookup_put_of_ne _ _ hkey] at hfl'
      simp [waitingOn, Reception.fetch?, hne, h.waiters_eq f hf fl' hfl']

/-- **A fetch that begins** has a new number, so that nothing has been heard of it. -/
theorem start_fetch_recorded {lifetime : Span} {s : Life ω ν} (h : s.Recorded lifetime)
    (hsingle : s.SingleFlight) (w : ω) {key : String}
    (hnone : s.cache.flights.lookup key = none) :
    Recorded lifetime { s with
      cache := s.cache.afterStart s.now w key
      running := s.running ++ [s.nextFetch key]
      started := s.started + 1
      history := .called w key s.now (.started (s.nextFetch key)) :: s.history } := by
  have hnext : Unheard (s.nextFetch key) s.history := h.unheard _ (le_refl s.started)
  obtain ⟨hchron, htime⟩ :=
    h.chronological_cons (x := .called w key s.now (.started (s.nextFetch key)))
      (by simp [Happening.time?])
  refine ⟨h.lifetime_eq, h.entry_eq, htime, hchron, ?_, ?_, ?_⟩
  · intro f
    refine Iff.trans ?_ (underWay_cons_started f (s.nextFetch key) w s.now hnext).symm
    rw [List.mem_append, List.mem_singleton, h.mem_running_iff, or_comm]
  · intro f hf
    have hne : s.nextFetch key ≠ f := fun heq => by
      have hnumber : f.number = s.started := heq ▸ rfl
      exact absurd hf (by simp [hnumber])
    refine (unheard_cons_iff ..).mpr ⟨?_, h.unheard f (Nat.le_of_succ_le hf)⟩
    simpa [Happening.fetch?, Reception.fetch?] using hne
  · intro f hf fl' hfl'
    obtain hold | hnew := List.mem_append.mp hf
    · have hkey := hsingle.key_ne_of_lookup_eq_none hnone hold
      have hne := h.ne_nextFetch hold key
      rw [flights_afterStart, Entries.lookup_put_of_ne _ _ hkey] at hfl'
      simp [waitingOn, Reception.fetch?, Ne.symm hne, h.waiters_eq f hold fl' hfl']
    · -- Nobody waits for the new fetch but the one who called for it.
      obtain rfl := List.mem_singleton.mp hnew
      rw [show (s.nextFetch key).key = key from rfl, flights_afterStart,
        Entries.lookup_put_self] at hfl'
      obtain rfl := Option.some.inj hfl'
      simp [waitingOn, Reception.fetch?, hnext.waitingOn_eq_nil]

/-- A call is one of these three. -/
theorem call_recorded {lifetime : Span} {s : Life ω ν} (h : s.Recorded lifetime)
    (hsingle : s.SingleFlight) (w : ω) (key : String) : (s.call w key).Recorded lifetime := by
  obtain ⟨v, -, heq⟩ | ⟨fl, -, hfl, heq⟩ | ⟨-, hnone, heq⟩ := s.call_cases w key <;> rw [heq]
  · exact hit_recorded h w key v
  · exact join_recorded h hsingle w hfl
  · exact start_fetch_recorded h hsingle w hnone

/-- **The end of a fetch** stores its value, if there is one, and takes its flight away. -/
theorem settle_recorded {lifetime : Span} {s : Life ω ν} (h : s.Recorded lifetime)
    (hsingle : s.SingleFlight) (number : Nat) (ending : Ending ν) :
    (s.settle number ending).Recorded lifetime := by
  obtain heq | ⟨f, hf, -, heq⟩ := s.settle_cases number ending
  · rw [heq]
    exact h
  · obtain ⟨fl, hfl⟩ := hsingle.exists_flight hf
    rw [heq, settle_of_flight _ _ _ hfl]
    obtain ⟨hchron, htime⟩ :=
      h.chronological_cons (x := .settled f s.now ending
        (fl.waiters.map fun w => (w, ending.value?))) (by simp [Happening.time?])
    refine ⟨?_, fun key => ?_, htime, hchron, fun g => ?_, fun g hg => ?_, ?_⟩
    · exact (lifetime_afterEnd ..).trans h.lifetime_eq
    · -- A value replaces what was delivered before; an end without one leaves it.
      rw [lastDelivery_settled, ← h.entry_eq key]
      by_cases hkey : f.key = key
      · subst hkey
        cases hvalue : ending.value? <;> simp
      · simp [hkey, lookup_entries_afterEnd_of_ne _ _ _ (Ne.symm hkey)]
    · rw [underWay_cons_settled, List.mem_filter, h.mem_running_iff]
      simp
    · have hne : f ≠ g := fun hfg => not_le.mpr (h.number_lt hf) (hfg ▸ hg)
      refine (unheard_cons_iff ..).mpr ⟨?_, h.unheard g hg⟩
      simpa [Happening.fetch?] using hne
    · intro g hg fl' hfl'
      rw [flights_afterEnd,
        Entries.lookup_erase_of_ne _ (hsingle.key_ne_of_mem_filter hf hg)] at hfl'
      exact h.waiters_eq g (List.mem_filter.mp hg).1 fl' hfl'

/-- A caller who gives up waits for nothing any more. -/
theorem cancel_recorded {lifetime : Span} {s : Life ω ν} (h : s.Recorded lifetime) (w : ω) :
    (s.step (.cancel w)).Recorded lifetime := by
  obtain ⟨hchron, htime⟩ := h.chronological_cons (x := .cancelled w) (by simp [Happening.time?])
  refine ⟨h.lifetime_eq, h.entry_eq, htime, hchron, fun f => ?_, fun f hf => ?_, ?_⟩
  · exact (h.mem_running_iff f).trans (underWay_cons_cancelled f w s.history).symm
  · exact (unheard_cons_iff ..).mpr ⟨by simp [Happening.fetch?], h.unheard f hf⟩
  · intro f hf fl hfl
    obtain ⟨old, hold, rfl⟩ :=
      Option.map_eq_some_iff.mp ((lookup_flights_cancel s.cache w f.key).symm.trans hfl)
    rw [h.waiters_eq f hf old hold]
    exact List.filter_congr fun x _ => by simp [bne, BEq.beq]

/-- What was delivered before a clearing is no entry any more. -/
theorem clear_recorded {lifetime : Span} {s : Life ω ν} (h : s.Recorded lifetime) :
    (s.step .clear).Recorded lifetime := by
  obtain ⟨hchron, htime⟩ := h.chronological_cons (x := .cleared) (by simp [Happening.time?])
  refine ⟨h.lifetime_eq, fun key => rfl, htime, hchron, fun f => ?_, fun f hf => ?_, ?_⟩
  · exact (h.mem_running_iff f).trans (underWay_cons_cleared f s.history).symm
  · exact (unheard_cons_iff ..).mpr ⟨by simp [Happening.fetch?], h.unheard f hf⟩
  · exact h.waiters_eq

/-- **Every move keeps the invariant**; the passing of time leaves the past as it is. -/
theorem step_recorded {lifetime : Span} {s : Life ω ν} (h : s.Recorded lifetime)
    (hsingle : s.SingleFlight) (m : Move ω ν) : (s.step m).Recorded lifetime := by
  cases m with
  | call w key => exact call_recorded h hsingle w key
  | settle number ending => exact settle_recorded h hsingle number ending
  | cancel w => exact cancel_recorded h w
  | clear => exact clear_recorded h
  | pass seconds =>
    refine ⟨h.lifetime_eq, h.entry_eq, ?_, h.chronological, h.mem_running_iff, h.unheard,
      h.waiters_eq⟩
    intro x hx t ht
    exact (h.time_le x hx t ht).trans (le_later_left _ _)

/-- So does every run. -/
theorem run_recorded {lifetime : Span} {s : Life ω ν} (h : s.Recorded lifetime)
    (hsingle : s.SingleFlight) (moves : List (Move ω ν)) :
    (s.run moves).SingleFlight ∧ (s.run moves).Recorded lifetime :=
  run_induction (P := fun s => s.SingleFlight ∧ s.Recorded lifetime)
    (fun s m h => ⟨step_singleFlight s m h.1, step_recorded h.2 h.1 m⟩) s moves ⟨hsingle, h⟩

end

/-! ### Calls and ends in terms of the past -/

/-- What a call for a key receives at a time, given what had happened before. -/
structure CallExplained (lifetime : Span) (key : String) (now : Rat) (r : Reception ν)
    (h : History ω ν) : Prop where
  /-- It is a hit exactly if something was delivered that is still good and was not dropped. -/
  hit_iff : (∃ v, r = .hit v) ↔
    ∃ v t since, DeliveredSince key v t since h ∧ lifetime.covers t now
  /-- A hit is the latest delivery. -/
  hit_latest : ∀ v, r = .hit v → ∃ t since, DeliveredSince key v t since h ∧
    lifetime.covers t now ∧ ∀ x ∈ since, x.delivery? key = none
  /-- Any other call starts the only fetch of its key, or joins the one that is under way. -/
  otherwise : (∀ v, r ≠ .hit v) →
    (∃ f, r = .started f ∧ f.key = key ∧ Unheard f h ∧ ∀ g, UnderWay g h → g.key ≠ key) ∨
      ∃ f, r = .joined (some f) ∧ f.key = key ∧ UnderWay f h

/-- Who is told what at the end of a fetch, given what had happened before: all those who wait for
    this fetch, and nobody else, are told what it brought. -/
structure EndExplained (f : Fetch) (ending : Ending ν) (told : List (ω × Option ν))
    (h : History ω ν) : Prop where
  underWay : UnderWay f h
  told_iff : ∀ w outcome, (w, outcome) ∈ told ↔ outcome = ending.value? ∧ WaitsFor f w h

variable [DecidableEq ω]

/-- A value that is still good is the latest delivery. -/
theorem Recorded.peek_eq_some_iff {lifetime : Span} {s : Life ω ν} (h : s.Recorded lifetime)
    (key : String) (v : ν) : s.cache.peek s.now key = some v ↔
      ∃ t, lastDelivery key s.history = some ⟨v, t⟩ ∧ lifetime.covers t s.now := by
  rw [RateCache.peek_eq_some_iff, h.entry_eq]
  constructor
  · rintro ⟨e, he, hlive, rfl⟩
    rw [isLive, h.lifetime_eq] at hlive
    exact ⟨e.storedAt, he, hlive⟩
  · rintro ⟨t, he, hcovers⟩
    refine ⟨⟨v, t⟩, he, ?_, rfl⟩
    rw [isLive, h.lifetime_eq]
    exact hcovers

/-- A delivery that is still good and was not dropped makes the next call a hit. -/
theorem Recorded.peek_ne_none {lifetime : Span} {s : Life ω ν} (h : s.Recorded lifetime)
    {key : String} {v : ν} {t : Rat} {since : History ω ν}
    (hd : DeliveredSince key v t since s.history) (hcovers : lifetime.covers t s.now) :
    s.cache.peek s.now key ≠ none := by
  -- The entry may be a later delivery, which is good for even longer.
  obtain ⟨e, hlast, hle⟩ := hd.exists_lastDelivery h.chronological
  have hpeek : s.cache.peek s.now key = some e.value :=
    (h.peek_eq_some_iff key e.value).mpr ⟨e.storedAt, hlast, Span.covers_of_le hle hcovers⟩
  simp [hpeek]

/-- **A hit is the latest delivery**, and it has not expired. -/
theorem Recorded.callExplained_hit {lifetime : Span} {s : Life ω ν} (h : s.Recorded lifetime)
    {key : String} {v : ν} (hpeek : s.cache.peek s.now key = some v) :
    CallExplained lifetime key s.now (.hit v) s.history := by
  obtain ⟨t, hlast, hcovers⟩ := (h.peek_eq_some_iff key v).mp hpeek
  obtain ⟨since, hd, hnone⟩ := deliveredSince_of_lastDelivery hlast
  refine ⟨⟨fun _ => ⟨v, t, since, hd, hcovers⟩, fun _ => ⟨v, rfl⟩⟩, ?_, ?_⟩
  · rintro v' hv
    obtain rfl := Reception.hit.inj hv
    exact ⟨t, since, hd, hcovers, hnone⟩
  · exact fun hne => absurd rfl (hne v)

/-- **Where nothing is live**, no delivery has been made that would be. -/
theorem Recorded.callExplained_of_peek_eq_none {lifetime : Span} {s : Life ω ν}
    (h : s.Recorded lifetime) {key : String} (hpeek : s.cache.peek s.now key = none)
    {r : Reception ν} (hr : ∀ v, r ≠ .hit v)
    (hotherwise : (∃ f, r = .started f ∧ f.key = key ∧ Unheard f s.history ∧
        ∀ g, UnderWay g s.history → g.key ≠ key) ∨
      ∃ f, r = .joined (some f) ∧ f.key = key ∧ UnderWay f s.history) :
    CallExplained lifetime key s.now r s.history := by
  refine ⟨⟨?_, ?_⟩, fun v hv => absurd hv (hr v), fun _ => hotherwise⟩
  · rintro ⟨v, hv⟩
    exact absurd hv (hr v)
  · rintro ⟨v, t, since, hd, hcovers⟩
    exact absurd hpeek (h.peek_ne_none hd hcovers)

/-- What happens in a run, with what had happened before it. -/
def Explained (lifetime : Span) : Happening ω ν → History ω ν → Prop
  | .called _ key now r, h => CallExplained lifetime key now r h
  | .settled f _ ending told, h => EndExplained f ending told h
  | .cancelled _, _ | .cleared, _ => True

/-- Every call is explained by what had happened before it. -/
theorem call_explained {lifetime : Span} {s : Life ω ν} (h : s.Recorded lifetime)
    (hsingle : s.SingleFlight) (w : ω) (key : String) :
    ∃ x, (s.call w key).history = x :: s.history ∧ Explained lifetime x s.history := by
  obtain ⟨v, hpeek, heq⟩ | ⟨fl, hpeek, hfl, heq⟩ | ⟨hpeek, hnone, heq⟩ := s.call_cases w key
  · exact ⟨.called w key s.now (.hit v), by rw [heq], h.callExplained_hit hpeek⟩
  · obtain ⟨f, hf, hkey, hfetch⟩ := hsingle.fetchOf_eq_some hfl
    refine ⟨.called w key s.now (.joined (s.fetchOf key)), by rw [heq], ?_⟩
    refine h.callExplained_of_peek_eq_none hpeek (by simp) (.inr ?_)
    exact ⟨f, by rw [hfetch], hkey, (h.mem_running_iff f).mp hf⟩
  · refine ⟨.called w key s.now (.started (s.nextFetch key)), by rw [heq], ?_⟩
    refine h.callExplained_of_peek_eq_none hpeek (by simp) (.inl ?_)
    refine ⟨s.nextFetch key, rfl, rfl, h.unheard _ (le_refl s.started), fun g hg => ?_⟩
    exact hsingle.key_ne_of_lookup_eq_none hnone ((h.mem_running_iff g).mpr hg)

/-- So is the end of every fetch that was under way; another number changes nothing. -/
theorem settle_explained {lifetime : Span} {s : Life ω ν} (h : s.Recorded lifetime)
    (hsingle : s.SingleFlight) (number : Nat) (ending : Ending ν) :
    s.settle number ending = s ∨ ∃ x, (s.settle number ending).history = x :: s.history ∧
      Explained lifetime x s.history := by
  obtain heq | ⟨f, hf, -, heq⟩ := s.settle_cases number ending
  · exact .inl heq
  · obtain ⟨fl, hfl⟩ := hsingle.exists_flight hf
    rw [settle_of_flight _ _ _ hfl, h.waiters_eq f hf fl hfl] at heq
    refine .inr ⟨.settled f s.now ending
      ((waitingOn f s.history).map fun w => (w, ending.value?)), by rw [heq], ?_⟩
    refine ⟨(h.mem_running_iff f).mp hf, fun w outcome => ?_⟩
    -- Those who are told are those who called for the fetch and have not given up.
    simp only [List.mem_map, Prod.mk.injEq, mem_waitingOn_iff]
    constructor
    · rintro ⟨w', hw, rfl, rfl⟩
      exact ⟨rfl, hw⟩
    · rintro ⟨rfl, hw⟩
      exact ⟨w, hw, rfl, rfl⟩

/-- A move adds at most one happening to the past, and that is explained by the past. -/
theorem step_explained {lifetime : Span} {s : Life ω ν} (h : s.Recorded lifetime)
    (hsingle : s.SingleFlight) (m : Move ω ν) : (s.step m).history = s.history ∨
      ∃ x, (s.step m).history = x :: s.history ∧ Explained lifetime x s.history := by
  cases m with
  | call w key => exact .inr (call_explained h hsingle w key)
  | settle number ending =>
    exact (settle_explained h hsingle number ending).imp_left (congrArg Life.history)
  | cancel w => exact .inr ⟨.cancelled w, rfl, trivial⟩
  | clear => exact .inr ⟨.cleared, rfl, trivial⟩
  | pass seconds => exact .inl rfl

/-- Everything in the history of a run is explained by what had happened before it. -/
theorem explained_run (lifetime : Span) (moves : List (Move ω ν)) (x : Happening ω ν)
    (h : History ω ν) (hx : x :: h <:+ ((start lifetime).run moves).history) :
    Explained lifetime x h := by
  -- The past never changes, so that it is enough to explain what the last move adds.
  revert x h
  refine (run_induction (P := fun s => (s.SingleFlight ∧ s.Recorded lifetime) ∧
    ∀ x h, x :: h <:+ s.history → Explained lifetime x h) ?_ _ _ ?_).2
  · rintro s m ⟨⟨hsingle, hrec⟩, hpast⟩
    refine ⟨⟨step_singleFlight s m hsingle, step_recorded hrec hsingle m⟩, fun x h hx => ?_⟩
    obtain hsame | ⟨y, hy, hexplained⟩ := step_explained hrec hsingle m
    · exact hpast x h (hsame ▸ hx)
    · rw [hy, List.suffix_cons_iff] at hx
      obtain heq | hold := hx
      · obtain ⟨rfl, rfl⟩ := List.cons.inj heq
        exact hexplained
      · exact hpast x h hold
  · refine ⟨⟨start_singleFlight lifetime, start_recorded lifetime⟩, fun x h hx => ?_⟩
    exact absurd (List.suffix_nil.mp hx) (by simp)

/-- **Freshness and provenance.** In every run, a call is a hit exactly if a value was delivered for
    its key, no clearing has come since, and its span is not over; the hit is the latest such value.
    Any other call starts a fetch or joins the one that is under way.  When a fetch ends, exactly
    those who wait for it and have not given up are told, and all are told what it brought. -/
theorem run_explained (lifetime : Span) (moves : List (Move ω ν)) :
    let past := ((start lifetime).run moves).history
    (∀ w key now r h, .called w key now r :: h <:+ past → CallExplained lifetime key now r h) ∧
      ∀ f t ending told h, .settled f t ending told :: h <:+ past →
        EndExplained f ending told h :=
  ⟨fun w key now r h hx => explained_run lifetime moves (.called w key now r) h hx,
    fun f t ending told h hx => explained_run lifetime moves (.settled f t ending told) h hx⟩

end Reckoner.RateCache.Life
