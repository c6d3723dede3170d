import Reckoner.Cache.Counters
import Reckoner.Proofs.Cache.History
import Reckoner.Proofs.Cache.Runs
import Reckoner.Proofs.Cache.VirtualTime

/-!
# Giving up is not noticed

A waiter that gives up changes nothing for anybody else.  Everybody but `w` sees the same whether
`w` waits or not; every move shows them the same, and the giving up itself they do not see.  A run
from which it is left out thus looks the same to them.

* `Life.settle_delivered`, `Life.mem_running_run` — what a fetch brings is stored, and it is under
  way until it ends, whoever waits for it.
* `RateCache.call_cancel`, `RateCache.settle_cancel` — a call and the end of a flight do the same
  whether a waiter has given up or not.
* `Life.besides`, `CacheRun.besides` — what there is to see besides one waiter.
* `Life.besides_step`, `CacheRun.besides_step` — a move shows everybody else the same.
* `Life.run_congr`, `CacheRun.run_congr` — so what looks the same goes on looking the same.
* `RateCache.AlikeBut`, `Life.AlikeBut`, `CacheRun.AlikeBut` — to look the same to all but one.
* `run_cancel_unnoticed` — leaving a giving up out of any run changes nothing for the others.
-/

namespace Reckoner

variable {ω ν : Type}

/-! ### Whoever waits -/

namespace RateCache.Life

/-- **What a fetch brings is stored**, whoever waits for it. -/
theorem settle_delivered {s : Life ω ν} (hsingle : s.SingleFlight) (hnumbered : s.Numbered)
    {f : Fetch} (hf : f ∈ s.running) (v : ν) :
    f ∉ (s.settle f.number (.delivered v)).running ∧
      (s.settle f.number (.delivered v)).cache.isInFlight f.key = false ∧
      (s.settle f.number (.delivered v)).cache.entries.lookup f.key = some ⟨v, s.now⟩ := by
  obtain ⟨fl, hfl⟩ := hsingle.exists_flight hf
  rw [settle_of_mem hnumbered hf, settle_of_flight _ _ _ hfl]
  refine ⟨by simp, ?_, ?_⟩
  · simp [isInFlight]
  · simp [Ending.value?]

end RateCache.Life

variable [DecidableEq ω]

namespace RateCache

/-! ### One operation -/

/-- What is left of a flight when a waiter has given up. -/
def without (w : ω) (f : Flight ω) : Flight ω := { f with waiters := f.waiters.filter (· != w) }

/-- To give up once more changes nothing. -/
@[simp] theorem cancel_cancel (c : RateCache ω ν) (w : ω) :
    (c.cancel w).cancel w = c.cancel w := by
  simp [cancel, Function.comp_def]

/-- Nor does it if another one has given up in the meantime. -/
theorem cancel_cancel_of_between (c : RateCache ω ν) (w w' : ω) :
    ((c.cancel w).cancel w').cancel w = (c.cancel w').cancel w := by
  simp only [cancel, List.map_map, List.filter_filter, Function.comp_def]
  refine congrArg (fun flights => { c with flights := flights }) (List.map_congr_left ?_)
  rintro ⟨key, f⟩ -
  have hfilter : ∀ x : ω, (x != w && (x != w' && x != w)) = (x != w && x != w') := by
    intro x
    cases x != w <;> simp
  simp only [hfilter]

/-- The flights that the others see when a key is given another flight: it matters what they see of
    that flight, and not whether the waiter had given up before. -/
theorem map_without_put (w : ω) (flights : Entries (Flight ω)) (key : String) {f g : Flight ω}
    (h : without w f = without w g) :
    (Entries.put (flights.map fun (k, f) => (k, without w f)) key f).map
        (fun (k, f) => (k, without w f)) =
      (flights.put key g).map fun (k, f) => (k, without w f) := by
  have htwice : ∀ f : Flight ω, without w (without w f) = without w f := by simp [without]
  rw [← Entries.put_mapValues, ← Entries.put_mapValues, h, List.map_map]
  simp [Function.comp_def, htwice]

/-- **A call comes to the same** whether a waiter has given up or not. -/
theorem call_cancel (c : RateCache ω ν) (w : ω) (now : Rat) (w' : ω) (key : String) :
    ((c.cancel w).call now w' key).1.cancel w = (c.call now w' key).1.cancel w ∧
      ((c.cancel w).call now w' key).2 = (c.call now w' key).2 := by
  have hpeek : (c.cancel w).peek now key = c.peek now key := rfl
  have hflight := c.lookup_flights_cancel w key
  unfold call
  rw [hpeek, hflight]
  -- The caller who has given up makes no difference to which of the three ways the call goes.
  cases c.peek now key with
  | some v => exact ⟨congrArg afterHit (c.cancel_cancel w), rfl⟩
  | none =>
    cases c.flights.lookup key with
    | some f =>
      have hjoin := map_without_put w c.flights key
        (f := ⟨f.startedAt, (without w f).waiters ++ [w']⟩)
        (g := ⟨f.startedAt, f.waiters ++ [w']⟩) (by simp [without])
      exact ⟨congrArg (fun flights => { c with joins := c.joins + 1, flights := flights }) hjoin,
        rfl⟩
    | none =>
      have hstart := map_without_put w c.flights key (f := ⟨now, [w']⟩) rfl
      exact ⟨congrArg (fun flights => { c with fetches := c.fetches + 1, flights := flights })
        hstart, rfl⟩

/-- **The end of a flight is the same**, and the others are told the same, whether a waiter has
    given up or not. -/
theorem settle_cancel (c : RateCache ω ν) (w : ω) (now : Rat) (key : String)
    (outcome : Option ν) :
    (c.cancel w).settle now key outcome =
      ((c.settle now key outcome).1.cancel w,
        (c.settle now key outcome).2.filter (· != w)) := by
  -- Erasing a flight and taking a waiter out of every flight do not get in each other's way.
  have herase : (c.cancel w).flights.erase key =
      (c.flights.erase key).map fun (key, f) => (key, without w f) :=
    Entries.erase_mapValues (without w) c.flights key
  cases hf : c.flights.lookup key with
  | none =>
    have hnone : (c.cancel w).flights.lookup key = none := by rw [lookup_flights_cancel, hf]; rfl
    rw [settle_of_no_flight _ _ _ hf, settle_of_no_flight _ _ _ hnone]
    rfl
  | some f =>
    have hsome : (c.cancel w).flights.lookup key = some (without w f) := by
      rw [lookup_flights_cancel, hf]
      rfl
    rw [settle_of_flight _ _ _ hf, settle_of_flight _ _ _ hsome]
    cases outcome <;> simp only [afterEnd, herase] <;> rfl

/-! ### Interleavings -/

/-- What everybody but `w` sees of a happening: not that `w` gives up, nor what it is told. -/
def Happening.besides (w : ω) : Happening ω ν → Option (Happening ω ν)
  | .called w' key t r => some (.called w' key t r)
  | .settled f t ending told => some (.settled f t ending (told.filter (·.1 != w)))
  | .cancelled w' => if w' = w then none else some (.cancelled w')
  | .cleared => some .cleared

namespace Life

/-- What everybody but `w` sees. -/
def besides (s : Life ω ν) (w : ω) : Life ω ν :=
  { s with cache := s.cache.cancel w, history := s.history.filterMap (Happening.besides w) }

/-- What is seen by everybody but `w` is not changed by looking at it twice. -/
theorem filterMap_besides_twice (w : ω) (h : History ω ν) :
    (h.filterMap (Happening.besides w)).filterMap (Happening.besides w) =
      h.filterMap (Happening.besides w) := by
  rw [List.filterMap_filterMap]
  refine congrArg (h.filterMap ·) (funext fun x => ?_)
  cases x with
  | called | cleared => rfl
  | settled => simp [Happening.besides]
  | cancelled w' => by_cases hw : w' = w <;> simp [Happening.besides, hw]

/-- The giving up is not seen by the others. -/
theorem besides_step_cancel (s : Life ω ν) (w : ω) :
    (s.step (.cancel w)).besides w = s.besides w := by
  simp [step, besides, Happening.besides]

/-- Whether one caller gives up makes no difference to what another call does. -/
theorem besides_call (s : Life ω ν) (w w' : ω) (key : String) :
    ((s.besides w).call w' key).besides w = (s.call w' key).besides w := by
  obtain ⟨hcache, hcalled⟩ := s.cache.call_cancel w s.now w' key
  have hhistory := filterMap_besides_twice w s.history
  unfold call besides
  simp only [hcalled]
  cases (s.cache.call s.now w' key).2 <;>
    simp only [hcache, List.filterMap_cons, Happening.besides, hhistory] <;> rfl

/-- Nor to what the end of a fetch does. -/
theorem besides_settle (s : Life ω ν) (w : ω) (number : Nat) (ending : Ending ν) :
    ((s.besides w).settle number ending).besides w = (s.settle number ending).besides w := by
  have hhistory := filterMap_besides_twice w s.history
  unfold settle besides
  simp only
  cases s.running.find? (·.number = number) with
  | none => simp [hhistory]
  | some f =>
    -- The others are told what they are told, and what the waiter is told they do not see.
    have htold : ∀ waiters : List ω,
        ((waiters.filter (· != w)).map fun w => (w, ending.value?)).filter (·.1 != w) =
          (waiters.map fun w => (w, ending.value?)).filter (·.1 != w) := by
      intro waiters
      simp [List.filter_map, Function.comp_def]
    simp only [settle_cancel, cancel_cancel, List.filterMap_cons, Happening.besides, htold,
      hhistory]

/-- **A move shows everybody else the same**, whether `w` waits or not. -/
theorem besides_step (s : Life ω ν) (w : ω) (m : Move ω ν) :
    ((s.besides w).step m).besides w = (s.step m).besides w := by
  have hhistory := filterMap_besides_twice w s.history
  cases m with
  | call w' key => exact s.besides_call w w' key
  | settle number ending => exact s.besides_settle w number ending
  | cancel w' =>
    simp only [step, besides, cancel_cancel_of_between, List.filterMap_cons, hhistory]
  | clear =>
    have hclear : (s.cache.cancel w).clear.cancel w = s.cache.clear.cancel w :=
      congrArg clear (s.cache.cancel_cancel w)
    simp only [step, besides, hclear, List.filterMap_cons, hhistory]
  | pass seconds => simp [step, besides, hhistory]

/-- **Unwinding.** Lives that look the same to everybody else look the same after any moves. -/
theorem run_congr {w : ω} {s s' : Life ω ν} (h : s.besides w = s'.besides w)
    (moves : List (Move ω ν)) : (s.run moves).besides w = (s'.run moves).besides w := by
  induction moves generalizing s s' with
  | nil => exact h
  | cons m rest ih =>
    have hstep : (s.step m).besides w = (s'.step m).besides w := by
      rw [← besides_step s, ← besides_step s', h]
    exact ih hstep

end Life

/-! ### What looks the same -/

/-- **Two caches look the same to everybody but `w`**: the entries, the keys in flight, who else
    waits for them, and the counters. -/
structure AlikeBut (w : ω) (c c' : RateCache ω ν) : Prop where
  entries_eq : c.entries = c'.entries
  isInFlight_eq : ∀ key, c.isInFlight key = c'.isInFlight key
  waits_iff : ∀ w' key, w' ≠ w → (c.Waits w' key ↔ c'.Waits w' key)
  counters_eq : ∀ name lifetime, c.counters name lifetime = c'.counters name lifetime

/-- Who does not give up goes on waiting, and nobody begins to wait. -/
theorem waits_cancel_iff (c : RateCache ω ν) {w w' : ω} (h : w' ≠ w) (key : String) :
    (c.cancel w).Waits w' key ↔ c.Waits w' key :=
  ⟨Waits.of_cancel, fun hwaits => hwaits.cancel h⟩

/-- Giving up is counted nowhere. -/
@[simp] theorem counters_cancel (c : RateCache ω ν) (w : ω) (name : String) (lifetime : Float) :
    (c.cancel w).counters name lifetime = c.counters name lifetime := by
  simp [counters, cancel]

/-- Caches that are the same when `w` has given up look the same to everybody else. -/
theorem alikeBut_of_cancel_eq {w : ω} {c c' : RateCache ω ν} (h : c.cancel w = c'.cancel w) :
    c.AlikeBut w c' where
  entries_eq := show (c.cancel w).entries = (c'.cancel w).entries by rw [h]
  isInFlight_eq key := by
    rw [← isInFlight_cancel c w, h, isInFlight_cancel]
  waits_iff w' key hne := by
    rw [← waits_cancel_iff c hne, h, waits_cancel_iff c' hne]
  counters_eq name lifetime := by
    rw [← counters_cancel c w, h, counters_cancel]

/-- **Two interleavings look the same to everybody but `w`**: the cache, the fetches, and all that
    has happened, with what every call came to and what everybody else was told. -/
structure Life.AlikeBut (w : ω) (s s' : Life ω ν) : Prop where
  cache : s.cache.AlikeBut w s'.cache
  now_eq : s.now = s'.now
  running_eq : s.running = s'.running
  started_eq : s.started = s'.started
  history_eq : s.history.filterMap (Happening.besides w) =
    s'.history.filterMap (Happening.besides w)

/-- Where nothing but one caller's waiting differs, everything else is alike. -/
theorem Life.alikeBut_of_besides_eq {w : ω} {s s' : Life ω ν} (h : s.besides w = s'.besides w) :
    s.AlikeBut w s' where
  cache := alikeBut_of_cancel_eq (congrArg Life.cache h)
  now_eq := show (s.besides w).now = (s'.besides w).now by rw [h]
  running_eq := show (s.besides w).running = (s'.besides w).running by rw [h]
  started_eq := show (s.besides w).started = (s'.besides w).started by rw [h]
  history_eq := congrArg Life.history h

/-! ### Abandoned fetches -/

namespace Life

/-- **A fetch is under way until it ends**, whatever else happens. -/
theorem mem_running_run {s : Life ω ν} {f : Fetch} (hf : f ∈ s.running) {moves : List (Move ω ν)}
    (hmoves : ∀ ending, .settle f.number ending ∉ moves) : f ∈ (s.run moves).running := by
  induction moves generalizing s with
  | nil => exact hf
  | cons m rest ih =>
    refine ih (s := s.step m) ?_ fun ending hmem => hmoves ending (.tail m hmem)
    cases m with
    | call w key =>
      show f ∈ (s.call w key).running
      obtain ⟨v, -, heq⟩ | ⟨fl, -, -, heq⟩ | ⟨-, -, heq⟩ := s.call_cases w key <;> rw [heq]
      · exact hf
      · exact hf
      · exact List.mem_append_left _ hf
    | settle number ending =>
      show f ∈ (s.settle number ending).running
      obtain heq | ⟨g, -, hnumber, heq⟩ := s.settle_cases number ending <;> rw [heq]
      · exact hf
      · -- Another number ends another fetch.
        have hne : f ≠ g := by
          rintro rfl
          exact hmoves ending (hnumber ▸ List.mem_cons_self)
        exact List.mem_filter.mpr ⟨hf, by simpa using hne⟩
    | cancel w => exact hf
    | clear => exact hf
    | pass seconds => exact hf

end Life

end RateCache

/-! ### Runs on a virtual clock -/

/-- Whether a notice tells a waiter something. -/
def Notice.isTo (w : ω) : Notice ω ν → Bool
  | .fetching _ => false
  | .told w' _ _ => w' == w

namespace CacheRun

/-- What everybody but `w` sees. -/
def besides (r : CacheRun ω ν) (w : ω) : CacheRun ω ν := { r with cache := r.cache.cancel w }

/-- The notices that everybody but `w` sees. -/
def noticesBesides (w : ω) (notices : List (Notice ω ν)) : List (Notice ω ν) :=
  notices.filter (!·.isTo w)

/-- **Two runs look the same to everybody but `w`**: the cache, the time and what is to come. -/
structure AlikeBut (w : ω) (r r' : CacheRun ω ν) : Prop where
  cache : r.cache.AlikeBut w r'.cache
  now_eq : r.now = r'.now
  agenda_eq : r.agenda = r'.agenda

/-- **A call shows everybody the same**, whether `w` waits or not. -/
theorem besides_call (r : CacheRun ω ν) (w w' : ω) (key : String) (d : Delivery ν) :
    ((r.besides w).call w' key d).1.besides w = (r.call w' key d).1.besides w ∧
      ((r.besides w).call w' key d).2 = (r.call w' key d).2 := by
  obtain ⟨hcache, hcalled⟩ := r.cache.call_cancel w r.now w' key
  -- Whatever the call does to the agenda, the two runs have the same cache besides the waiter.
  have hrun : ∀ agenda : List (Arrival ν),
      ({ r with cache := ((r.cache.cancel w).call r.now w' key).1, agenda := agenda } :
        CacheRun ω ν).besides w =
      ({ r with cache := (r.cache.call r.now w' key).1, agenda := agenda } :
        CacheRun ω ν).besides w :=
    fun agenda => congrArg (fun c => { r with cache := c, agenda := agenda }) hcache
  have hbesides : ((r.besides w).cache.call (r.besides w).now w' key).2 =
      (r.cache.call r.now w' key).2 := hcalled
  rw [call_eq, call_eq, hbesides]
  cases (r.cache.call r.now w' key).2 with
  | hit v => exact ⟨hrun r.agenda, rfl⟩
  | joined => exact ⟨hrun r.agenda, rfl⟩
  | started => exact ⟨hrun _, rfl⟩

/-- **A flight ends in the same way**, and everybody else is told the same. -/
theorem besides_arrive (r : CacheRun ω ν) (w : ω) (a : Arrival ν) :
    (r.besides w).arrive a = ((r.arrive a).1.besides w, noticesBesides w (r.arrive a).2) := by
  unfold arrive besides
  simp only [RateCache.settle_cancel, noticesBesides, List.filter_map]
  rfl

/-- Arrivals find the others waiting, and tell them the same. -/
theorem besides_arriveAll (r : CacheRun ω ν) (w : ω) (due : List (Arrival ν)) :
    (r.besides w).arriveAll due =
      ((r.arriveAll due).1.besides w, noticesBesides w (r.arriveAll due).2) := by
  induction due generalizing r with
  | nil => rfl
  | cons a rest ih => simp only [arriveAll, besides_arrive, ih, noticesBesides, List.filter_append]

/-- So does what comes while time goes by. -/
theorem besides_passTo (r : CacheRun ω ν) (w : ω) (moment : Rat) :
    (r.besides w).passTo moment =
      ((r.passTo moment).1.besides w, noticesBesides w (r.passTo moment).2) := by
  have hland : (r.besides w).land moment =
      ((r.land moment).1.besides w, noticesBesides w (r.land moment).2) :=
    besides_arriveAll { r with agenda := r.agenda.dropWhile (·.due ≤ moment) } w
      (r.agenda.takeWhile (·.due ≤ moment))
  rw [passTo_eq, passTo_eq, hland]
  rfl

/-- **An event shows everybody else the same**, whether `w` waits or not. -/
theorem besides_step (r : CacheRun ω ν) (w : ω) (e : CacheEvent ω ν) :
    ((r.besides w).step e).1.besides w = (r.step e).1.besides w ∧
      noticesBesides w ((r.besides w).step e).2 = noticesBesides w (r.step e).2 := by
  have hrun : ∀ c c' : RateCache ω ν, c.cancel w = c'.cancel w →
      ({ r with cache := c } : CacheRun ω ν).besides w =
        ({ r with cache := c' } : CacheRun ω ν).besides w :=
    fun c c' h => congrArg (fun c => { r with cache := c }) h
  cases e with
  | call w' key d =>
    obtain ⟨hrun, hnotices⟩ := r.besides_call w w' key d
    exact ⟨hrun, congrArg (noticesBesides w) hnotices⟩
  | cancel w' => exact ⟨hrun _ _ (r.cache.cancel_cancel_of_between w w'), rfl⟩
  | clear => exact ⟨hrun _ _ (congrArg RateCache.clear (r.cache.cancel_cancel w)), rfl⟩
  | pass seconds =>
    have hpass : (r.besides w).pass seconds =
        ((r.pass seconds).1.besides w, noticesBesides w (r.pass seconds).2) :=
      r.besides_passTo w (after r.now seconds)
    -- Giving up twice is giving up once, so that both sides leave the same.
    have htwice : ∀ r : CacheRun ω ν, (r.besides w).besides w = r.besides w :=
      fun r => congrArg (fun c => { r with cache := c }) (r.cache.cancel_cancel w)
    simp only [step, hpass, htwice, noticesBesides, List.filter_filter, Bool.and_self, and_self]

/-- The giving up is not seen by the others. -/
theorem besides_step_cancel (r : CacheRun ω ν) (w : ω) :
    (r.step (.cancel w)).1.besides w = r.besides w :=
  congrArg (fun c => { r with cache := c }) (r.cache.cancel_cancel w)

/-- **Unwinding.** Runs that look the same to everybody else look the same after any events, and
    show them the same on the way. -/
theorem run_congr {w : ω} {r r' : CacheRun ω ν} (h : r.besides w = r'.besides w)
    (events : List (CacheEvent ω ν)) :
    (r.run events).1.besides w = (r'.run events).1.besides w ∧
      noticesBesides w (r.run events).2.flatten = noticesBesides w (r'.run events).2.flatten := by
  induction events generalizing r r' with
  | nil => exact ⟨h, rfl⟩
  | cons e rest ih =>
    obtain ⟨hstep, hnotices⟩ := r.besides_step w e
    obtain ⟨hstep', hnotices'⟩ := r'.besides_step w e
    rw [h] at hstep hnotices
    obtain ⟨hrun, hlater⟩ := ih (hstep.symm.trans hstep')
    refine ⟨hrun, ?_⟩
    simp only [run, List.flatten_cons, noticesBesides, List.filter_append] at hlater ⊢
    exact congrArg₂ (· ++ ·) (hnotices.symm.trans hnotices') hlater

/-- Runs that are the same when `w` has given up look the same to everybody else. -/
theorem alikeBut_of_besides_eq {w : ω} {r r' : CacheRun ω ν} (h : r.besides w = r'.besides w) :
    r.AlikeBut w r' where
  cache := RateCache.alikeBut_of_cancel_eq (congrArg CacheRun.cache h)
  now_eq := show (r.besides w).now = (r'.besides w).now by rw [h]
  agenda_eq := show (r.besides w).agenda = (r'.besides w).agenda by rw [h]

end CacheRun

/-! ### Leaving a giving up out -/

open RateCache Life in
/-- **Giving up is not noticed.** Leaving the giving up of a waiter out of any run, at any place,
    changes nothing for the others, neither in the cache nor in what they are told.  A fetch goes on
    until it ends, whoever gives up in the meantime, and what it brings is stored.  On a virtual
    clock, too, a run without the giving up looks the same. -/
theorem RateCache.run_cancel_unnoticed (lifetime allowance : Span) (w : ω) :
    (∀ before after : List (Move ω ν),
      ((start lifetime).run (before ++ .cancel w :: after)).AlikeBut w
        ((start lifetime).run (before ++ after))) ∧
      (∀ before later : List (Move ω ν), ∀ f ∈ ((start lifetime).run before).running,
        (∀ ending, .settle f.number ending ∉ later) →
          let s := (start lifetime).run (before ++ later)
          f ∈ s.running ∧ ∀ v,
            let ended := s.step (.settle f.number (.delivered v))
            f ∉ ended.running ∧ ended.cache.isInFlight f.key = false ∧
              ended.cache.entries.lookup f.key = some ⟨v, s.now⟩) ∧
      ∀ before after : List (CacheEvent ω ν),
        let whole := (CacheRun.start lifetime allowance).run (before ++ .cancel w :: after)
        let shorter := (CacheRun.start lifetime allowance).run (before ++ after)
        whole.1.AlikeBut w shorter.1 ∧
          CacheRun.noticesBesides w whole.2.flatten =
            CacheRun.noticesBesides w shorter.2.flatten := by
  refine ⟨?_, ?_, ?_⟩
  · intro before after
    rw [run_append, run_append]
    exact alikeBut_of_besides_eq (run_congr (besides_step_cancel _ w) after)
  · intro before later f hf hlater
    have hrunning := mem_running_run hf hlater
    rw [← run_append] at hrunning
    refine ⟨hrunning, fun v => ?_⟩
    exact settle_delivered (singleFlight_run lifetime _) (numbered_run lifetime _) hrunning v
  · intro before after
    obtain ⟨hrun, hnotices⟩ := CacheRun.run_congr
      (CacheRun.besides_step_cancel ((CacheRun.start lifetime allowance).run before).1 w) after
    rw [CacheRun.run_append, CacheRun.run_append]
    refine ⟨CacheRun.alikeBut_of_besides_eq hrun, ?_⟩
    -- The event that is left out makes nothing known.
    simp only [List.flatten_append, CacheRun.noticesBesides, List.filter_append] at hnotices ⊢
    exact congrArg _ hnotices

end Reckoner
