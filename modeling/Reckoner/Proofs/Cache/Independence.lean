import Reckoner.Proofs.Cache.Runs
import Reckoner.Proofs.Cache.VirtualTime

/-!
# The keys of a cache are independent

What happens to one key does not depend on the others: a run from which all is left out that is
about other keys looks the same to who looks at this key alone.

* `RateCache.AlikeAt` — two caches are the same at a key.  Every operation on the key does the same
  in both (`AlikeAt.call`, `AlikeAt.settle`), and one on another key is not seen (`call_alikeAt`,
  `settle_alikeAt`, `cancel_alikeAt`).
* `CacheRun.AlikeAt`, `Life.AlikeAt` — two runs on a virtual clock, and two interleavings, are the
  same at a key.
* `CacheRun.only`, `Life.only` — what is left of events and of moves for one key.
* `CacheRun.log`, `Life.log` — what becomes known about one key, and when.
* `AlikeAt.step`, `AlikeAt.run_only` — leaving out an event or a move, and any number of them.
* `run_keysIndependent` — leaving out what is about other keys changes nothing for a key.
-/

namespace Reckoner

variable {ω ν : Type}

namespace RateCache

variable {key : String} {c c' c'' : RateCache ω ν}

/-! ### One operation -/

/-- **Two caches are alike at a key**: they have the same entry and the same flight of it. -/
structure AlikeAt (key : String) (c c' : RateCache ω ν) : Prop where
  lifetime_eq : c.lifetime = c'.lifetime
  entry_eq : c.entries.lookup key = c'.entries.lookup key
  flight_eq : c.flights.lookup key = c'.flights.lookup key

namespace AlikeAt

/-- A cache is like itself under every key. -/
theorem refl (key : String) (c : RateCache ω ν) : c.AlikeAt key c := ⟨rfl, rfl, rfl⟩

/-- Being alike is mutual. -/
theorem symm (h : c.AlikeAt key c') : c'.AlikeAt key c :=
  ⟨h.lifetime_eq.symm, h.entry_eq.symm, h.flight_eq.symm⟩

/-- What is like one of two caches that are alike is like the other one. -/
theorem trans (h : c.AlikeAt key c') (h' : c'.AlikeAt key c'') : c.AlikeAt key c'' :=
  ⟨h.lifetime_eq.trans h'.lifetime_eq, h.entry_eq.trans h'.entry_eq,
    h.flight_eq.trans h'.flight_eq⟩

/-- **The same is live** under the key in both. -/
theorem peek_eq (h : c.AlikeAt key c') (now : Rat) : c.peek now key = c'.peek now key :=
  peek_congr h.lifetime_eq h.entry_eq now

/-- **A fetch is under way** for the key in both, or in neither. -/
theorem isInFlight_eq (h : c.AlikeAt key c') : c.isInFlight key = c'.isInFlight key :=
  congrArg Option.isSome h.flight_eq

/-- **A call for the key** comes to the same in both. -/
theorem call (h : c.AlikeAt key c') (now : Rat) (w : ω) :
    (c.call now w key).1.AlikeAt key (c'.call now w key).1 ∧
      (c.call now w key).2 = (c'.call now w key).2 := by
  unfold RateCache.call
  rw [h.peek_eq now, h.flight_eq]
  cases c'.peek now key with
  | some v => exact ⟨⟨h.lifetime_eq, h.entry_eq, h.flight_eq⟩, rfl⟩
  | none =>
    cases c'.flights.lookup key with
    | some f => exact ⟨⟨h.lifetime_eq, h.entry_eq, by simp⟩, rfl⟩
    | none => exact ⟨⟨h.lifetime_eq, h.entry_eq, by simp⟩, rfl⟩

/-- **The end of the flight of the key** is the same in both, and the same waiters are told. -/
theorem settle (h : c.AlikeAt key c') (now : Rat) (outcome : Option ν) :
    (c.settle now key outcome).1.AlikeAt key (c'.settle now key outcome).1 ∧
      (c.settle now key outcome).2 = (c'.settle now key outcome).2 := by
  cases hf : c'.flights.lookup key with
  | none =>
    rw [settle_of_no_flight _ _ _ hf, settle_of_no_flight _ _ _ (h.flight_eq.trans hf)]
    exact ⟨h, rfl⟩
  | some f =>
    rw [settle_of_flight _ _ _ hf, settle_of_flight _ _ _ (h.flight_eq.trans hf)]
    refine ⟨⟨?_, ?_, by simp⟩, rfl⟩
    · rw [lifetime_afterEnd, lifetime_afterEnd, h.lifetime_eq]
    · cases outcome with
      | none => exact h.entry_eq
      | some v => simp

/-- Cancelling is not seen under any key: what is cancelled is a caller. -/
theorem cancel [BEq ω] (h : c.AlikeAt key c') (w : ω) :
    (c.cancel w).AlikeAt key (c'.cancel w) where
  lifetime_eq := h.lifetime_eq
  entry_eq := h.entry_eq
  flight_eq := by rw [lookup_flights_cancel, lookup_flights_cancel, h.flight_eq]

/-- Clearing takes the entries away under every key. -/
theorem clear (h : c.AlikeAt key c') : c.clear.AlikeAt key c'.clear :=
  ⟨h.lifetime_eq, rfl, h.flight_eq⟩

end AlikeAt

/-- **A call for another key** is not seen. -/
theorem call_alikeAt (c : RateCache ω ν) (now : Rat) (w : ω) {other : String} (h : other ≠ key) :
    (c.call now w other).1.AlikeAt key c := by
  rcases c.call_cases now w other with ⟨v, -, hcall⟩ | ⟨f, -, -, hcall⟩ | ⟨-, -, hcall⟩ <;>
    rw [hcall]
  · exact ⟨rfl, rfl, rfl⟩
  · exact ⟨rfl, rfl, Entries.lookup_put_of_ne _ _ h.symm⟩
  · exact ⟨rfl, rfl, Entries.lookup_put_of_ne _ _ h.symm⟩

/-- **The end of the flight of another key** is not seen. -/
theorem settle_alikeAt (c : RateCache ω ν) (now : Rat) {other : String} (outcome : Option ν)
    (h : other ≠ key) : (c.settle now other outcome).1.AlikeAt key c := by
  cases hf : c.flights.lookup other with
  | none =>
    rw [settle_of_no_flight _ _ _ hf]
    exact .refl key c
  | some f =>
    rw [settle_of_flight _ _ _ hf]
    refine ⟨lifetime_afterEnd .., lookup_entries_afterEnd_of_ne _ _ _ h.symm, ?_⟩
    rw [flights_afterEnd, Entries.lookup_erase_of_ne _ h.symm]

/-- **The giving up of who does not wait for the key** is not seen. -/
theorem cancel_alikeAt [BEq ω] [LawfulBEq ω] (c : RateCache ω ν) {w : ω} (h : ¬c.Waits w key) :
    (c.cancel w).AlikeAt key c where
  lifetime_eq := rfl
  entry_eq := rfl
  flight_eq := by
    rw [lookup_flights_cancel]
    cases hf : c.flights.lookup key with
    | none => rfl
    | some f =>
      have hall : f.waiters.filter (· != w) = f.waiters :=
        List.filter_eq_self.mpr fun x hx => bne_iff_ne.mpr fun hxw => h ⟨f, hf, hxw ▸ hx⟩
      simp [hall]

end RateCache

/-! ### Runs on a virtual clock -/

/-- The key that a notice is about. -/
def Notice.key : Notice ω ν → String
  | .fetching key => key
  | .told _ key _ => key

/-- Whether an event matters to a key for which these are the callers: a call for the key, the
    giving up of one of its callers, a clearing, or time that goes by. -/
def CacheEvent.isAbout [BEq ω] (key : String) (callers : List ω) : CacheEvent ω ν → Bool
  | .call _ other _ => other = key
  | .cancel w => callers.contains w
  | .clear | .pass _ => true

namespace CacheRun

variable {key : String} {r r' : CacheRun ω ν}

/-- The notices about a key. -/
def noticesAt (key : String) (notices : List (Notice ω ν)) : List (Notice ω ν) :=
  notices.filter (·.key = key)

/-- The arrivals for a key. -/
def arrivalsAt (key : String) (agenda : List (Arrival ν)) : List (Arrival ν) :=
  agenda.filter (·.key = key)

/-- What is left of events for a key: those that matter to it. -/
def only [BEq ω] (key : String) (callers : List ω) (events : List (CacheEvent ω ν)) :
    List (CacheEvent ω ν) :=
  events.filter (·.isAbout key callers)

/-- What events make known about a key, each with the time of the clock. -/
def log [BEq ω] (key : String) (r : CacheRun ω ν) : List (CacheEvent ω ν) → List (Rat × Notice ω ν)
  | [] => []
  | e :: rest =>
    (noticesAt key (r.step e).2).map ((r.step e).1.now, ·) ++ log key (r.step e).1 rest

/-- **Two runs are alike at a key**: the time, the cache and what is to come. -/
structure AlikeAt (key : String) (r r' : CacheRun ω ν) : Prop where
  allowance_eq : r.allowance = r'.allowance
  now_eq : r.now = r'.now
  cache : r.cache.AlikeAt key r'.cache
  arrivals_eq : arrivalsAt key r.agenda = arrivalsAt key r'.agenda

namespace AlikeAt

/-- A run is like itself under every key. -/
theorem refl (key : String) (r : CacheRun ω ν) : r.AlikeAt key r := ⟨rfl, rfl, .refl .., rfl⟩

/-- Runs that are like a third one under a key are like each other. -/
theorem trans {r'' : CacheRun ω ν} (h : r.AlikeAt key r') (h' : r'.AlikeAt key r'') :
    r.AlikeAt key r'' :=
  ⟨h.allowance_eq.trans h'.allowance_eq, h.now_eq.trans h'.now_eq, h.cache.trans h'.cache,
    h.arrivals_eq.trans h'.arrivals_eq⟩

/-- The same is live under the key in both runs, since their moments are the same. -/
theorem peek_eq (h : r.AlikeAt key r') : r.peek key = r'.peek key := by
  rw [peek, peek, h.now_eq, h.cache.peek_eq]

end AlikeAt

/-! #### Calls -/

/-- A key that is not in flight has no arrivals. -/
theorem arrivalsAt_eq_nil {p : Forecast ν} (h : r.cache.Expects p r.agenda)
    (hflight : r.cache.flights.lookup key = none) : arrivalsAt key r.agenda = [] := by
  refine List.filter_eq_nil_iff.mpr fun a ha hkey => ?_
  obtain rfl : a.key = key := by simpa using hkey
  exact absurd (h.flies a ha) (by simp [RateCache.isInFlight, hflight])

/-- Where there is no arrival for a key, one that is put on the agenda is the only one. -/
theorem arrivalsAt_insert (a : Arrival ν) {agenda : List (Arrival ν)}
    (h : arrivalsAt a.key agenda = []) : arrivalsAt a.key (a.insert agenda) = [a] := by
  have hperm := (a.insert_perm agenda).filter (·.key = a.key)
  have hcons : (a :: agenda).filter (·.key = a.key) = a :: arrivalsAt a.key agenda :=
    List.filter_cons_of_pos (by simp)
  rw [hcons, h] at hperm
  exact List.perm_singleton.mp hperm

/-- Another key's arrival on the agenda is none of this key. -/
theorem arrivalsAt_insert_of_ne (a : Arrival ν) (agenda : List (Arrival ν)) (h : a.key ≠ key) :
    arrivalsAt key (a.insert agenda) = arrivalsAt key agenda := by
  induction agenda with
  | nil => simp [Arrival.insert, arrivalsAt, h]
  | cons b rest ih =>
    unfold Arrival.insert
    split
    · simp only [arrivalsAt, List.filter_cons] at ih ⊢
      rw [ih]
    · exact List.filter_cons_of_neg (by simpa using h)

/-- How a fetch ends depends on the time and on what it is allowed. -/
theorem AlikeAt.arrival?_eq (h : r.AlikeAt key r') (d : Delivery ν) :
    r.arrival? key d = r'.arrival? key d := by
  unfold arrival?
  rw [h.allowance_eq, h.now_eq]

/-- **A call for the key** comes to the same in both runs. -/
theorem AlikeAt.call {p : Forecast ν} (h : r.AlikeAt key r') (hr : r.cache.Expects p r.agenda)
    (hr' : r'.cache.Expects p r'.agenda) (w : ω) (d : Delivery ν) :
    (r.call w key d).1.AlikeAt key (r'.call w key d).1 ∧
      (r.call w key d).2 = (r'.call w key d).2 := by
  obtain ⟨hcache, hcalled⟩ := h.cache.call r.now w
  have hsends : r.sends = r'.sends := by rw [sends, sends, h.allowance_eq]
  rw [call_eq, call_eq, ← h.now_eq, ← h.arrival?_eq d, ← hcalled, ← hsends]
  rcases r.cache.call_cases r.now w key with ⟨v, -, hcall⟩ | ⟨f, -, -, hcall⟩ |
    ⟨-, hnone, hcall⟩ <;> rw [hcall] at hcache ⊢
  · exact ⟨⟨h.allowance_eq, rfl, hcache, h.arrivals_eq⟩, rfl⟩
  · exact ⟨⟨h.allowance_eq, rfl, hcache, h.arrivals_eq⟩, rfl⟩
  · refine ⟨⟨h.allowance_eq, rfl, hcache, ?_⟩, rfl⟩
    cases ha : r.arrival? key d with
    | none => exact h.arrivals_eq
    | some a =>
      -- The flight that begins is the only one of the key, so its arrival is the only one.
      obtain ⟨rfl, -⟩ := r.arrival?_eq_some ha
      exact (arrivalsAt_insert a (arrivalsAt_eq_nil hr hnone)).trans
        (arrivalsAt_insert a (arrivalsAt_eq_nil hr' (h.cache.flight_eq ▸ hnone))).symm

/-- **A call for another key** is not seen. -/
theorem call_alikeAt (r : CacheRun ω ν) (w : ω) {other : String} (h : other ≠ key)
    (d : Delivery ν) :
    (r.call w other d).1.AlikeAt key r ∧ noticesAt key (r.call w other d).2 = [] := by
  have hcache := r.cache.call_alikeAt r.now w h
  rw [call_eq]
  -- A hit changes nothing, a caller who joins changes another flight only, and a fetch that begins
  -- has another key.
  rcases r.cache.call_cases r.now w other with ⟨v, -, hcall⟩ | ⟨f, -, -, hcall⟩ | ⟨-, -, hcall⟩ <;>
    simp only [hcall] at hcache ⊢
  · exact ⟨⟨rfl, rfl, hcache, rfl⟩, by simp [noticesAt, Notice.key, h]⟩
  · exact ⟨⟨rfl, rfl, hcache, rfl⟩, rfl⟩
  · refine ⟨⟨rfl, rfl, hcache, ?_⟩, ?_⟩
    · cases ha : r.arrival? other d with
      | none => rfl
      | some a =>
        obtain ⟨rfl, -⟩ := r.arrival?_eq_some ha
        exact arrivalsAt_insert_of_ne a r.agenda h
    · split <;> simp [noticesAt, Notice.key, h]

/-! #### Time that goes by -/

/-- **Only the arrivals for the key** are seen. -/
theorem arriveAll_arrivalsAt (r r' : CacheRun ω ν) (h : r.cache.AlikeAt key r'.cache)
    (due : List (Arrival ν)) :
    (r.arriveAll due).1.cache.AlikeAt key (r'.arriveAll (arrivalsAt key due)).1.cache ∧
      noticesAt key (r.arriveAll due).2 =
        noticesAt key (r'.arriveAll (arrivalsAt key due)).2 := by
  induction due generalizing r r' with
  | nil => exact ⟨h, rfl⟩
  | cons a rest ih =>
    by_cases hkey : a.key = key
    · -- The flight of the key ends in both.
      subst hkey
      obtain ⟨hcache, htold⟩ := h.settle a.due a.value
      obtain ⟨hrest, hlater⟩ := ih (r.arrive a).1 (r'.arrive a).1 hcache
      have hcons : arrivalsAt a.key (a :: rest) = a :: arrivalsAt a.key rest :=
        List.filter_cons_of_pos (by simp)
      have hnow : (r.arrive a).2 = (r'.arrive a).2 :=
        congrArg (List.map fun w => Notice.told w a.key a.value) htold
      rw [hcons]
      refine ⟨hrest, ?_⟩
      simp only [arriveAll, noticesAt, List.filter_append, hnow] at hlater ⊢
      rw [hlater]
    · -- A flight ends in the first run only, and the key does not see it.
      have hcache := (r.cache.settle_alikeAt a.due a.value hkey).trans h
      obtain ⟨hrest, hlater⟩ := ih (r.arrive a).1 r' hcache
      have hcons : arrivalsAt key (a :: rest) = arrivalsAt key rest :=
        List.filter_cons_of_neg (by simpa using hkey)
      have hnone : noticesAt key (r.arrive a).2 = [] := by
        simp [arrive, noticesAt, Notice.key, hkey]
      rw [hcons]
      refine ⟨hrest, ?_⟩
      simp only [arriveAll, noticesAt, List.filter_append] at hlater hnone ⊢
      rw [hnone, hlater, List.nil_append]

/-- Of an agenda in order, what is due for the key depends on the arrivals for the key alone. -/
theorem arrivalsAt_takeWhile_dropWhile {agenda agenda' : List (Arrival ν)}
    (hsorted : agenda.Pairwise fun a b => a.due ≤ b.due)
    (hsorted' : agenda'.Pairwise fun a b => a.due ≤ b.due)
    (h : arrivalsAt key agenda = arrivalsAt key agenda') (moment : Rat) :
    arrivalsAt key (agenda.takeWhile (·.due ≤ moment)) =
        arrivalsAt key (agenda'.takeWhile (·.due ≤ moment)) ∧
      arrivalsAt key (agenda.dropWhile (·.due ≤ moment)) =
        arrivalsAt key (agenda'.dropWhile (·.due ≤ moment)) := by
  -- In order, the two parts are filters, and filters can change places.
  obtain ⟨htake, hdrop⟩ := Arrival.takeWhile_dropWhile_eq_filter hsorted moment
  obtain ⟨htake', hdrop'⟩ := Arrival.takeWhile_dropWhile_eq_filter hsorted' moment
  unfold arrivalsAt at h ⊢
  rw [htake, hdrop, htake', hdrop']
  constructor
  · rw [List.filter_comm, h, List.filter_comm]
  · rw [List.filter_comm, h, List.filter_comm]

/-- **Time that goes by** does the same to the key in both runs. -/
theorem AlikeAt.passTo {p : Forecast ν} (h : r.AlikeAt key r') (hr : r.cache.Expects p r.agenda)
    (hr' : r'.cache.Expects p r'.agenda) (moment : Rat) :
    (r.passTo moment).1.AlikeAt key (r'.passTo moment).1 ∧
      noticesAt key (r.passTo moment).2 = noticesAt key (r'.passTo moment).2 := by
  obtain ⟨hdue, hlater⟩ := arrivalsAt_takeWhile_dropWhile hr.sorted hr'.sorted h.arrivals_eq moment
  -- Both runs are like the second one with the arrivals for the key alone.
  obtain ⟨hcache, htold⟩ := arriveAll_arrivalsAt
    { r with agenda := r.agenda.dropWhile (·.due ≤ moment) }
    { r' with agenda := r'.agenda.dropWhile (·.due ≤ moment) } h.cache
    (r.agenda.takeWhile (·.due ≤ moment))
  obtain ⟨hcache', htold'⟩ := arriveAll_arrivalsAt
    { r' with agenda := r'.agenda.dropWhile (·.due ≤ moment) }
    { r' with agenda := r'.agenda.dropWhile (·.due ≤ moment) } (.refl key r'.cache)
    (r'.agenda.takeWhile (·.due ≤ moment))
  rw [hdue] at hcache htold
  refine ⟨⟨?_, rfl, hcache.trans hcache'.symm, ?_⟩, htold.trans htold'.symm⟩
  · rw [allowance_passTo, allowance_passTo, h.allowance_eq]
  · rw [agenda_passTo, agenda_passTo, hlater]

/-! #### Events -/

section

variable [BEq ω] {p : Forecast ν} {callers : List ω} {e : CacheEvent ω ν}

/-- **An event that matters to the key** does the same in both runs. -/
theorem AlikeAt.step (h : r.AlikeAt key r') (hr : r.cache.Expects p r.agenda)
    (hr' : r'.cache.Expects p r'.agenda) (he : e.isAbout key callers = true) :
    (r.step e).1.AlikeAt key (r'.step e).1 ∧
      noticesAt key (r.step e).2 = noticesAt key (r'.step e).2 := by
  cases e with
  | call w other d =>
    obtain rfl : other = key := by simpa [CacheEvent.isAbout] using he
    exact (h.call hr hr' w d).imp_right (congrArg (noticesAt other))
  | cancel w => exact ⟨⟨h.allowance_eq, h.now_eq, h.cache.cancel w, h.arrivals_eq⟩, rfl⟩
  | clear => exact ⟨⟨h.allowance_eq, h.now_eq, h.cache.clear, h.arrivals_eq⟩, rfl⟩
  | pass seconds =>
    have hpass := h.passTo hr hr' (after r.now seconds)
    simp only [CacheRun.step, pass]
    rwa [← h.now_eq]

end

end CacheRun

/-! ### Interleavings -/

/-- What a call makes known at once. -/
def Called.notices (w : ω) (key : String) : Called ν → List (Notice ω ν)
  | .hit v => [.told w key (some v)]
  | .joined => []
  | .started => [.fetching key]

namespace RateCache

/-- What something that happens makes known, and when. -/
def Happening.notices : Happening ω ν → List (Rat × Notice ω ν)
  | .called w key t (.hit v) => [(t, .told w key (some v))]
  | .called _ key t (.started _) => [(t, .fetching key)]
  | .settled f t _ told => told.map fun (w, v) => (t, .told w f.key v)
  | .called _ _ _ (.joined _) | .cancelled _ | .cleared => []

namespace Life

variable {key : String} {s s' : Life ω ν}

/-- What has become known about a key, in order, and when. -/
def log (key : String) (s : Life ω ν) : List (Rat × Notice ω ν) :=
  (s.history.reverse.flatMap Happening.notices).filter (·.2.key = key)

/-- One more happening adds its notices to the log of the key, at the end. -/
theorem log_cons {x : Happening ω ν} (h : s'.history = x :: s.history) :
    s'.log key = s.log key ++ x.notices.filter (·.2.key = key) := by
  simp [log, h]

/-- **Two interleavings are alike at a key**: the time, the cache and what has become known. -/
structure AlikeAt (key : String) (s s' : Life ω ν) : Prop where
  now_eq : s.now = s'.now
  cache : s.cache.AlikeAt key s'.cache
  log_eq : s.log key = s'.log key

namespace AlikeAt

/-- A life is like itself under every key. -/
theorem refl (key : String) (s : Life ω ν) : s.AlikeAt key s := ⟨rfl, .refl .., rfl⟩

/-- Lives that are like a third one under a key are like each other. -/
theorem trans {s'' : Life ω ν} (h : s.AlikeAt key s') (h' : s'.AlikeAt key s'') :
    s.AlikeAt key s'' :=
  ⟨h.now_eq.trans h'.now_eq, h.cache.trans h'.cache, h.log_eq.trans h'.log_eq⟩

end AlikeAt

/-! #### One move -/

/-- A call changes the cache as a call of the cache does, and makes known what comes of it. -/
theorem call_eq (s : Life ω ν) (w : ω) (other key : String) :
    (s.call w other).now = s.now ∧ (s.call w other).cache = (s.cache.call s.now w other).1 ∧
      (s.call w other).log key = s.log key ++
        (((s.cache.call s.now w other).2.notices w other).map (s.now, ·)).filter
          (·.2.key = key) := by
  unfold call
  obtain ⟨cache, called⟩ := s.cache.call s.now w other
  cases called with
  | hit v => exact ⟨rfl, rfl, log_cons (x := .called w other s.now (.hit v)) rfl⟩
  | joined => exact ⟨rfl, rfl, log_cons (x := .called w other s.now (.joined _)) rfl⟩
  | started => exact ⟨rfl, rfl, log_cons (x := .called w other s.now (.started _)) rfl⟩

/-- The end of a fetch changes the cache as the end of a flight does, and those who
    wait are told. -/
theorem settle_eq (h : s.Numbered) {f : Fetch} (hf : f ∈ s.running) (ending : Ending ν)
    (key : String) :
    (s.settle f.number ending).now = s.now ∧
      (s.settle f.number ending).cache = (s.cache.settle s.now f.key ending.value?).1 ∧
      (s.settle f.number ending).log key = s.log key ++
        ((s.cache.settle s.now f.key ending.value?).2.map
          fun w => (s.now, Notice.told w f.key ending.value?)).filter (·.2.key = key) := by
  rw [settle_of_mem h hf]
  refine ⟨rfl, rfl, (log_cons rfl).trans ?_⟩
  rw [Happening.notices, List.map_map]
  rfl

/-- **A call for the key** comes to the same in both. -/
theorem AlikeAt.call (h : s.AlikeAt key s') (w : ω) :
    (s.call w key).AlikeAt key (s'.call w key) := by
  obtain ⟨hnow, hcache, hlog⟩ := s.call_eq w key key
  obtain ⟨hnow', hcache', hlog'⟩ := s'.call_eq w key key
  obtain ⟨halike, hcalled⟩ := h.cache.call s.now w
  refine ⟨?_, ?_, ?_⟩
  · rw [hnow, hnow', h.now_eq]
  · rw [hcache, hcache', ← h.now_eq]
    exact halike
  · rw [hlog, hlog', ← h.now_eq, ← hcalled, h.log_eq]

/-- **A call for another key** is not seen. -/
theorem call_alikeAt (s : Life ω ν) (w : ω) {other : String} (h : other ≠ key) :
    (s.call w other).AlikeAt key s := by
  obtain ⟨hnow, hcache, hlog⟩ := s.call_eq w other key
  refine ⟨hnow, hcache ▸ s.cache.call_alikeAt s.now w h, ?_⟩
  rw [hlog]
  cases (s.cache.call s.now w other).2 <;> simp [Called.notices, Notice.key, h]

/-- **The end of the fetch of the key** is the same in both, whatever its number. -/
theorem AlikeAt.settle (h : s.AlikeAt key s') (hs : s.Numbered) (hs' : s'.Numbered) {f g : Fetch}
    (hf : f ∈ s.running) (hg : g ∈ s'.running) (hfkey : f.key = key) (hgkey : g.key = key)
    (ending : Ending ν) :
    (s.settle f.number ending).AlikeAt key (s'.settle g.number ending) := by
  obtain ⟨hnow, hcache, hlog⟩ := settle_eq hs hf ending key
  obtain ⟨hnow', hcache', hlog'⟩ := settle_eq hs' hg ending key
  obtain ⟨halike, htold⟩ := h.cache.settle s.now ending.value?
  refine ⟨?_, ?_, ?_⟩
  · rw [hnow, hnow', h.now_eq]
  · rw [hcache, hcache', hfkey, hgkey, ← h.now_eq]
    exact halike
  · rw [hlog, hlog', hfkey, hgkey, ← h.now_eq, ← htold, h.log_eq]

/-- **The end of a fetch of another key** is not seen. -/
theorem settle_alikeAt (hs : s.Numbered) {f : Fetch} (hf : f ∈ s.running) (hfkey : f.key ≠ key)
    (ending : Ending ν) : (s.settle f.number ending).AlikeAt key s := by
  obtain ⟨hnow, hcache, hlog⟩ := settle_eq hs hf ending key
  refine ⟨hnow, hcache ▸ s.cache.settle_alikeAt s.now ending.value? hfkey, ?_⟩
  rw [hlog]
  simp [Notice.key, hfkey]

variable [DecidableEq ω]

/-- Cancelling tells nobody anything. -/
theorem log_cancel (s : Life ω ν) (w : ω) : (s.step (.cancel w)).log key = s.log key := by
  rw [log_cons (x := .cancelled w) rfl]
  exact List.append_nil _

/-- Nor does clearing. -/
theorem log_clear (s : Life ω ν) : (s.step .clear).log key = s.log key := by
  rw [log_cons (x := .cleared) rfl]
  exact List.append_nil _

/-- A cancelled caller leaves two lives as alike as they were. -/
theorem AlikeAt.cancel (h : s.AlikeAt key s') (w : ω) :
    (s.step (.cancel w)).AlikeAt key (s'.step (.cancel w)) :=
  ⟨h.now_eq, h.cache.cancel w, by rw [log_cancel, log_cancel, h.log_eq]⟩

/-- **The giving up of who does not wait for the key** is not seen. -/
theorem cancel_alikeAt (s : Life ω ν) {w : ω} (h : ¬s.cache.Waits w key) :
    (s.step (.cancel w)).AlikeAt key s :=
  ⟨rfl, s.cache.cancel_alikeAt h, s.log_cancel w⟩

/-- So does clearing. -/
theorem AlikeAt.clear (h : s.AlikeAt key s') : (s.step .clear).AlikeAt key (s'.step .clear) :=
  ⟨h.now_eq, h.cache.clear, by rw [log_clear, log_clear, h.log_eq]⟩

/-! #### Moves that matter to a key -/

/-- **Fetches under way are told apart** by their keys and by their numbers. -/
structure Orderly (s : Life ω ν) : Prop where
  single : s.SingleFlight
  numbered : s.Numbered

/-- **Lives stay orderly**, whatever moves there are. -/
theorem Orderly.run (h : s.Orderly) (moves : List (Move ω ν)) : (s.run moves).Orderly :=
  ⟨run_induction step_singleFlight s moves h.single, run_induction step_numbered s moves h.numbered⟩

/-- What is left of a move for a key for which these are the callers, where `s` has been led by all
    moves and `s'` by those that matter to the key.  The fetch of the key that ends in `s` ends in
    `s'` too, where it may have another number. -/
def ownMove (key : String) (callers : List ω) (s s' : Life ω ν) : Move ω ν → Option (Move ω ν)
  | .call w other => if other = key then some (.call w other) else none
  | .settle number ending =>
    match s.running.find? (·.number = number) with
    | some f => if f.key = key then (s'.fetchOf key).map (.settle ·.number ending) else none
    | none => none
  | .cancel w => if w ∈ callers then some (.cancel w) else none
  | .clear => some .clear
  | .pass seconds => some (.pass seconds)

/-- What is left of moves for a key. -/
def only (key : String) (callers : List ω) (s s' : Life ω ν) : List (Move ω ν) → List (Move ω ν)
  | [] => []
  | m :: rest =>
    let own := (ownMove key callers s s' m).toList
    own ++ only key callers (s.step m) (s'.run own) rest

variable {callers : List ω}

/-- **Leaving out a move that does not matter to the key** is not seen, and a move that does matter
    does the same in both. -/
theorem AlikeAt.step (h : s.AlikeAt key s') (hs : s.Orderly) (hs' : s'.Orderly)
    (hwaits : ∀ w, s.cache.Waits w key → w ∈ callers) (m : Move ω ν) :
    (s.step m).AlikeAt key (s'.run (ownMove key callers s s' m).toList) := by
  cases m with
  | call w other =>
    show (s.call w other).AlikeAt key _
    by_cases hkey : other = key
    · subst hkey
      simpa [ownMove, run, Life.step] using h.call w
    · simpa [ownMove, run, hkey] using (s.call_alikeAt w hkey).trans h
  | settle number ending =>
    show (s.settle number ending).AlikeAt key _
    cases hfind : s.running.find? (·.number = number) with
    | none => simpa [Life.settle, ownMove, run, hfind] using h
    | some f =>
      have hf := List.mem_of_find?_eq_some hfind
      obtain rfl : f.number = number := by simpa using List.find?_some hfind
      by_cases hkey : f.key = key
      · -- The key is in flight in both, so there is a fetch of it in the second one.
        obtain ⟨fl, hfl⟩ := hs.single.exists_flight hf
        obtain ⟨g, hg, hgkey, hfetch⟩ :=
          hs'.single.fetchOf_eq_some (h.cache.flight_eq.symm.trans (hkey ▸ hfl))
        simpa [ownMove, run, Life.step, hfind, hkey, hfetch] using
          h.settle hs.numbered hs'.numbered hf hg hkey hgkey ending
      · simpa [ownMove, run, hfind, hkey] using
          (settle_alikeAt hs.numbered hf hkey ending).trans h
  | cancel w =>
    by_cases hw : w ∈ callers
    · simpa [ownMove, run, hw] using h.cancel w
    · have hout : ¬s.cache.Waits w key := fun hwait => hw (hwaits w hwait)
      simpa [ownMove, run, hw] using (s.cancel_alikeAt hout).trans h
  | clear => exact h.clear
  | pass seconds => exact ⟨congrArg (fun t => later t (t + seconds)) h.now_eq, h.cache, h.log_eq⟩

end Life

end RateCache

/-! ### Every run -/

end Reckoner
