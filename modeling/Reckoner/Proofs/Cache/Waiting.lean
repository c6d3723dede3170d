import Reckoner.Proofs.Cache.Agenda

/-!
# Calls, and time that goes by

A waiter of a run of a rate cache is told a value at once, or it waits for a flight and is told when
the flight is due.  What it is told is what a forecast says, as long as the fetches do what the
forecast says.

* `call_cases`, `call_eq` — the three things that a call can come to in a run.
* `expects_call`, `expects_passTo` — calls and the passing of time keep what a cache and its agenda
  promise each other.
* `RateCache.Waits` — a waiter waits for the flight of a key; `waits_of_call`, `waits_of_settle` —
  nobody begins to wait but who calls.
* `told_or_waits_call`, `told_or_waits_passTo` — who calls or waits is told, or waits.
* `told_passTo_of_due` — who waits is told by the time the flight is due.
* `lookup_flights_passTo` — a flight that goes on while time goes by is not due.
-/

namespace Reckoner

variable {ω ν : Type}

/-! ### Asking -/

namespace CacheRun

/-- **Inversion of a call.** The waiter is told the value that is there, or joins a flight, or
    begins one, whose end goes on the agenda. -/
theorem call_cases (r : CacheRun ω ν) (w : ω) (key : String) (d : Delivery ν) :
    (∃ v, r.cache.peek r.now key = some v ∧
      r.call w key d = ({ r with cache := r.cache.afterHit }, [.told w key (some v)])) ∨
    (∃ f, r.cache.peek r.now key = none ∧ r.cache.flights.lookup key = some f ∧
      r.call w key d = ({ r with cache := r.cache.afterJoin w key f }, [])) ∨
    (r.cache.peek r.now key = none ∧ r.cache.flights.lookup key = none ∧
      r.call w key d =
        ({ r with
            cache := r.cache.afterStart r.now w key
            agenda := (r.arrival? key d).elim r.agenda fun a => a.insert r.agenda },
          if r.sends then [.fetching key] else [])) := by
  rcases r.cache.call_cases r.now w key with ⟨v, hpeek, hcall⟩ | ⟨f, hpeek, hflight, hcall⟩ |
    ⟨hpeek, hflight, hcall⟩
  · exact .inl ⟨v, hpeek, by simp only [call, hcall]⟩
  · exact .inr (.inl ⟨f, hpeek, hflight, by simp only [call, hcall]⟩)
  · refine .inr (.inr ⟨hpeek, hflight, ?_⟩)
    simp only [call, hcall]
    show (schedule _ (r.arrival? key d), _) = _
    cases r.arrival? key d <;> rfl

/-- A call in a run is a call of its cache; the end of a flight that it begins goes on the agenda,
    whoever waits for it. -/
theorem call_eq (r : CacheRun ω ν) (w : ω) (key : String) (d : Delivery ν) :
    r.call w key d =
      match (r.cache.call r.now w key).2 with
      | .hit v => ({ r with cache := (r.cache.call r.now w key).1 }, [.told w key (some v)])
      | .joined => ({ r with cache := (r.cache.call r.now w key).1 }, [])
      | .started =>
        ({ r with
            cache := (r.cache.call r.now w key).1
            agenda := (r.arrival? key d).elim r.agenda fun a => a.insert r.agenda },
          if r.sends then [.fetching key] else []) := by
  unfold call
  obtain ⟨cache, called⟩ := r.cache.call r.now w key
  cases called with
  | hit v => rfl
  | joined => rfl
  | started =>
    show (schedule _ (r.arrival? key d), _) = _
    cases r.arrival? key d <;> rfl

/-- A call changes the cache as a call of the cache does. -/
theorem cache_call (r : CacheRun ω ν) (w : ω) (key : String) (d : Delivery ν) :
    (r.call w key d).1.cache = (r.cache.call r.now w key).1 := by
  rw [call_eq]
  cases (r.cache.call r.now w key).2 <;> rfl

end CacheRun

/-! ### Waiting -/

/-- A waiter waits for the flight of a key. -/
def RateCache.Waits (c : RateCache ω ν) (w : ω) (key : String) : Prop :=
  ∃ f, c.flights.lookup key = some f ∧ w ∈ f.waiters

namespace RateCache

/-- Only a flight can be waited for. -/
theorem Waits.isInFlight {c : RateCache ω ν} {w : ω} {key : String} (h : c.Waits w key) :
    c.isInFlight key = true := by
  obtain ⟨f, hf, -⟩ := h
  simp [RateCache.isInFlight, hf]

/-- Whether somebody waits for a key depends on the flight of that key alone. -/
theorem Waits.congr {c c' : RateCache ω ν} {w : ω} {key : String} (h : c.Waits w key)
    (heq : c'.flights.lookup key = c.flights.lookup key) : c'.Waits w key := by
  obtain ⟨f, hf, hw⟩ := h
  exact ⟨f, heq.trans hf, hw⟩

/-- That another one gives up changes nothing for a waiter. -/
theorem Waits.cancel [BEq ω] [LawfulBEq ω] {c : RateCache ω ν} {w other : ω} {key : String}
    (h : c.Waits w key) (hne : w ≠ other) : (c.cancel other).Waits w key := by
  obtain ⟨f, hf, hw⟩ := h
  refine ⟨⟨f.startedAt, f.waiters.filter (· != other)⟩, ?_, ?_⟩
  · rw [lookup_flights_cancel, hf]
    rfl
  · exact List.mem_filter.mpr ⟨hw, by simpa using hne⟩

/-- Nobody begins to wait because another one gives up. -/
theorem Waits.of_cancel [BEq ω] {c : RateCache ω ν} {w other : ω} {key : String}
    (h : (c.cancel other).Waits w key) : c.Waits w key := by
  obtain ⟨f, hf, hw⟩ := h
  rw [lookup_flights_cancel] at hf
  obtain ⟨g, hg, rfl⟩ := Option.map_eq_some_iff.mp hf
  exact ⟨g, hg, List.mem_of_mem_filter hw⟩

/-- Nobody but the waiter that calls begins to wait. -/
theorem waits_of_call {c : RateCache ω ν} {now : Rat} {w w' : ω} {key other : String}
    (h : (c.call now w key).1.Waits w' other) :
    w' = w ∧ other = key ∧ c.peek now key = none ∨ c.Waits w' other := by
  rcases c.call_cases now w key with ⟨v, -, hcall⟩ | ⟨f, hpeek, hflight, hcall⟩ |
    ⟨hpeek, -, hcall⟩ <;> rw [hcall] at h
  · exact .inr (h.congr rfl)
  · by_cases hkey : other = key
    · -- Who waits for this flight has waited for it, or has just joined it.
      subst hkey
      obtain ⟨g, hg, hw⟩ := h
      cases (Entries.lookup_put_self c.flights other _).symm.trans hg
      obtain hw | hw := List.mem_append.mp hw
      · exact .inr ⟨f, hflight, hw⟩
      · exact .inl ⟨List.mem_singleton.mp hw, rfl, hpeek⟩
    · exact .inr (h.congr (Entries.lookup_put_of_ne _ _ hkey).symm)
  · by_cases hkey : other = key
    · subst hkey
      obtain ⟨g, hg, hw⟩ := h
      cases (Entries.lookup_put_self c.flights other _).symm.trans hg
      exact .inl ⟨List.mem_singleton.mp hw, rfl, hpeek⟩
    · exact .inr (h.congr (Entries.lookup_put_of_ne _ _ hkey).symm)

end RateCache

namespace CacheRun

variable {p : Forecast ν} {r : CacheRun ω ν} {w : ω} {key : String}

/-! ### What a call does -/

/-- **A call keeps the promises** if its fetch does what the forecast says. -/
theorem expects_call (h : r.cache.Expects p r.agenda) {d : Delivery ν}
    (hd : p.Covers r.allowance key d) :
    (r.call w key d).1.cache.Expects p (r.call w key d).1.agenda := by
  rcases r.call_cases w key d with ⟨v, -, hcall⟩ | ⟨f, -, hflight, hcall⟩ | ⟨-, hflight, hcall⟩ <;>
    rw [hcall]
  · exact h.congr (fun _ _ he => he) (fun _ => rfl)
  · exact h.congr (fun _ _ he => he) (RateCache.isInFlight_afterJoin r.cache w hflight)
  · refine h.afterStart hflight ?_ ?_
    · intro a ha
      obtain ⟨hkey, hending⟩ := r.arrival?_eq_some ha
      exact ⟨hkey, (hd r.now).1 a.value hending⟩
    · intro hends
      rw [isSome_arrival?]
      exact (hd r.now).2 hends

/-- What a call tells at once is a value that the forecast says. -/
theorem brings_of_told_call (h : r.cache.Expects p r.agenda) {d : Delivery ν} {w' : ω}
    {key' : String} {v : Option ν} (htold : Notice.told w' key' v ∈ (r.call w key d).2) :
    p.Brings key' v := by
  rcases r.call_cases w key d with ⟨v, hpeek, hcall⟩ | ⟨f, -, -, hcall⟩ | ⟨-, -, hcall⟩ <;>
    rw [hcall] at htold
  · cases List.mem_singleton.mp htold
    exact h.brings_of_peek hpeek
  · cases htold
  · split at htold
    · cases List.mem_singleton.mp htold
    · cases htold

/-- Who calls is told a value at once, or waits. -/
theorem told_or_waits_call (r : CacheRun ω ν) (w : ω) (key : String) (d : Delivery ν) :
    (∃ v, Notice.told w key v ∈ (r.call w key d).2) ∨ (r.call w key d).1.cache.Waits w key := by
  rcases r.call_cases w key d with ⟨v, -, hcall⟩ | ⟨f, -, -, hcall⟩ | ⟨-, -, hcall⟩ <;>
    rw [hcall]
  · exact .inl ⟨some v, List.mem_singleton_self _⟩
  · exact .inr ⟨⟨f.startedAt, f.waiters ++ [w]⟩, by simp, by simp⟩
  · exact .inr ⟨⟨r.now, [w]⟩, by simp, by simp⟩

/-- Who waits goes on waiting when somebody calls. -/
theorem waits_call {w' : ω} {key' : String} (h : r.cache.Waits w' key') (d : Delivery ν) :
    (r.call w key d).1.cache.Waits w' key' := by
  rcases r.call_cases w key d with ⟨v, -, hcall⟩ | ⟨f, -, hflight, hcall⟩ | ⟨-, hflight, hcall⟩ <;>
    rw [hcall]
  · exact h.congr rfl
  · by_cases hkey : key' = key
    · -- Who joins a flight is put behind those who wait for it.
      subst hkey
      obtain ⟨g, hg, hw⟩ := h
      rw [hflight] at hg
      cases hg
      exact ⟨⟨f.startedAt, f.waiters ++ [w]⟩, by simp, by simp [hw]⟩
    · exact h.congr (Entries.lookup_put_of_ne _ _ hkey)
  · have hne : key' ≠ key := by
      rintro rfl
      obtain ⟨g, hg, -⟩ := h
      rw [hflight] at hg
      cases hg
    exact h.congr (Entries.lookup_put_of_ne _ _ hne)

@[simp] theorem allowance_call (r : CacheRun ω ν) (w : ω) (key : String) (d : Delivery ν) :
    (r.call w key d).1.allowance = r.allowance := by
  rcases r.call_cases w key d with ⟨v, -, hcall⟩ | ⟨f, -, -, hcall⟩ | ⟨-, -, hcall⟩ <;> rw [hcall]

/-! ### What the passing of time does -/

/-- A flight of the agenda ends: its cache is that after the end, and its waiters are told. -/
theorem arrive_of_flight {a : Arrival ν} {f : Flight ω}
    (hf : r.cache.flights.lookup a.key = some f) :
    r.arrive a = ({ r with now := a.due, cache := r.cache.afterEnd a.due a.key a.value },
      f.waiters.map fun w => .told w a.key a.value) := by
  unfold arrive
  rw [RateCache.settle_of_flight r.cache a.due a.value hf]

@[simp] theorem agenda_arriveAll (r : CacheRun ω ν) (due : List (Arrival ν)) :
    (r.arriveAll due).1.agenda = r.agenda := by
  induction due generalizing r with
  | nil => rfl
  | cons a rest ih => exact ih (r.arrive a).1

@[simp] theorem allowance_arriveAll (r : CacheRun ω ν) (due : List (Arrival ν)) :
    (r.arriveAll due).1.allowance = r.allowance := by
  induction due generalizing r with
  | nil => rfl
  | cons a rest ih => exact ih (r.arrive a).1

/-- A flight ends, and the others are still to come. -/
theorem expects_arrive {a : Arrival ν} {rest : List (Arrival ν)}
    (h : r.cache.Expects p (a :: rest)) : (r.arrive a).1.cache.Expects p rest := by
  obtain ⟨f, hf⟩ := Option.isSome_iff_exists.mp (h.flies a List.mem_cons_self)
  rw [arrive_of_flight hf]
  exact h.afterEnd a.due

/-- **Flights end one after the other**, and what is left of the agenda is still to come. -/
theorem expects_arriveAll {due rest : List (Arrival ν)} (h : r.cache.Expects p (due ++ rest)) :
    (r.arriveAll due).1.cache.Expects p rest := by
  induction due generalizing r with
  | nil => exact h
  | cons a due ih => exact ih (expects_arrive h)

/-- Who is told something is told the value of an arrival. -/
theorem exists_of_told_arriveAll {due : List (Arrival ν)} {v : Option ν}
    (htold : Notice.told w key v ∈ (r.arriveAll due).2) : ∃ a ∈ due, a.key = key ∧ a.value = v := by
  induction due generalizing r with
  | nil => cases htold
  | cons a due ih =>
    rcases List.mem_append.mp htold with htold | htold
    · obtain ⟨w', -, heq⟩ := List.mem_map.mp htold
      cases heq
      exact ⟨a, List.mem_cons_self, rfl, rfl⟩
    · obtain ⟨b, hb, hkey⟩ := ih htold
      exact ⟨b, .tail a hb, hkey⟩

/-- The flight of another key does not end. -/
theorem lookup_flights_arrive_of_ne {a : Arrival ν} (hne : key ≠ a.key) :
    (r.arrive a).1.cache.flights.lookup key = r.cache.flights.lookup key := by
  cases hf : r.cache.flights.lookup a.key with
  | none => simp only [arrive, RateCache.settle_of_no_flight r.cache a.due a.value hf]
  | some f =>
    rw [arrive_of_flight hf]
    simp [Entries.lookup_erase_of_ne _ hne]

/-- When an arrival has come, there is no flight of its key, and the other flights go on. -/
theorem lookup_flights_arrive {a : Arrival ν} {f : Flight ω}
    (h : (r.arrive a).1.cache.flights.lookup key = some f) :
    a.key ≠ key ∧ r.cache.flights.lookup key = some f :=
  RateCache.lookup_flights_settle h

/-- A flight that is there after others have ended was there before, and is none of them. -/
theorem lookup_flights_arriveAll {due : List (Arrival ν)} {f : Flight ω}
    (h : (r.arriveAll due).1.cache.flights.lookup key = some f) :
    (∀ a ∈ due, a.key ≠ key) ∧ r.cache.flights.lookup key = some f := by
  induction due generalizing r with
  | nil => exact ⟨by simp, h⟩
  | cons a rest ih =>
    obtain ⟨hrest, hf⟩ := ih h
    obtain ⟨hne, hf⟩ := lookup_flights_arrive hf
    exact ⟨List.forall_mem_cons.mpr ⟨hne, hrest⟩, hf⟩

/-- **Who waits is told** if the flight is among those that end, and goes on waiting if not. -/
theorem told_or_waits_arriveAll (h : r.cache.Waits w key) (due : List (Arrival ν)) :
    (∃ v, Notice.told w key v ∈ (r.arriveAll due).2) ∨
      (∀ a ∈ due, a.key ≠ key) ∧ (r.arriveAll due).1.cache.Waits w key := by
  induction due generalizing r with
  | nil => exact .inr ⟨by simp, h⟩
  | cons a due ih =>
    by_cases hkey : a.key = key
    · -- This flight is the one that is waited for.
      subst hkey
      obtain ⟨f, hf, hw⟩ := h
      have htold : Notice.told w a.key a.value ∈ (r.arrive a).2 := by
        rw [arrive_of_flight hf]
        exact List.mem_map_of_mem hw
      exact .inl ⟨a.value, List.mem_append_left _ htold⟩
    · have hwaits := h.congr (lookup_flights_arrive_of_ne (Ne.symm hkey))
      rcases ih hwaits with ⟨v, hv⟩ | ⟨hnone, hafter⟩
      · exact .inl ⟨v, List.mem_append_right _ hv⟩
      · refine .inr ⟨?_, hafter⟩
        intro b hb
        rcases List.mem_cons.mp hb with rfl | hb
        · exact hkey
        · exact hnone b hb

/-- The flights that are due by a moment end. -/
def land (r : CacheRun ω ν) (moment : Rat) : CacheRun ω ν × List (Notice ω ν) :=
  { r with agenda := r.agenda.dropWhile (·.due ≤ moment) }.arriveAll
    (r.agenda.takeWhile (·.due ≤ moment))

/-- Who waits for a flight that is due is told, and the others go on waiting. -/
theorem told_or_waits_land (h : r.cache.Waits w key) (moment : Rat) :
    (∃ v, Notice.told w key v ∈ (r.land moment).2) ∨
      (∀ a ∈ r.agenda.takeWhile (·.due ≤ moment), a.key ≠ key) ∧
        (r.land moment).1.cache.Waits w key := by
  unfold land
  apply told_or_waits_arriveAll
  exact h

/-- Time goes by: the flights that are due end, and the clock is set. -/
theorem passTo_eq (r : CacheRun ω ν) (moment : Rat) :
    r.passTo moment = ({ (r.land moment).1 with now := moment }, (r.land moment).2) := rfl

@[simp] theorem agenda_passTo (r : CacheRun ω ν) (moment : Rat) :
    (r.passTo moment).1.agenda = r.agenda.dropWhile (·.due ≤ moment) := by
  rw [passTo_eq]
  exact agenda_arriveAll _ _

@[simp] theorem allowance_passTo (r : CacheRun ω ν) (moment : Rat) :
    (r.passTo moment).1.allowance = r.allowance := by
  rw [passTo_eq]
  exact allowance_arriveAll _ _

/-- **A flight that goes on is not due.** -/
theorem lookup_flights_passTo {moment : Rat} {f : Flight ω}
    (h : (r.passTo moment).1.cache.flights.lookup key = some f) :
    (∀ a ∈ r.agenda.takeWhile (·.due ≤ moment), a.key ≠ key) ∧
      r.cache.flights.lookup key = some f := by
  rw [passTo_eq] at h
  obtain ⟨hdue, hf⟩ := lookup_flights_arriveAll
    (r := { r with agenda := r.agenda.dropWhile (·.due ≤ moment) }) h
  exact ⟨hdue, hf⟩

/-- **The passing of time keeps the promises.** -/
theorem expects_passTo (h : r.cache.Expects p r.agenda) (moment : Rat) :
    (r.passTo moment).1.cache.Expects p (r.passTo moment).1.agenda := by
  rw [agenda_passTo]
  apply expects_arriveAll
  rw [List.takeWhile_append_dropWhile]
  exact h

/-- What is told when time goes by is what the forecast says. -/
theorem brings_of_told_passTo (h : r.cache.Expects p r.agenda) {moment : Rat} {v : Option ν}
    (htold : Notice.told w key v ∈ (r.passTo moment).2) : p.Brings key v := by
  rw [passTo_eq] at htold
  obtain ⟨a, ha, rfl, rfl⟩ := exists_of_told_arriveAll htold
  exact h.coming a (List.takeWhile_subset _ ha)

/-- Who waits is told when time goes by, or goes on waiting. -/
theorem told_or_waits_passTo (h : r.cache.Waits w key) (moment : Rat) :
    (∃ v, Notice.told w key v ∈ (r.passTo moment).2) ∨ (r.passTo moment).1.cache.Waits w key := by
  rcases told_or_waits_land h moment with htold | ⟨-, hwaits⟩
  · exact .inl htold
  · exact .inr hwaits

/-- **Who waits is told by the time the flight is due.** -/
theorem told_passTo_of_due (h : r.cache.Expects p r.agenda) (hwaits : r.cache.Waits w key)
    {moment due : Rat} (hdue : r.due? key = some due) (hle : due ≤ moment) :
    ∃ v, Notice.told w key v ∈ (r.passTo moment).2 := by
  obtain ⟨a, hfind, rfl⟩ := Option.map_eq_some_iff.mp hdue
  have hkey : a.key = key := by simpa using List.find?_some hfind
  have ha := Arrival.mem_takeWhile_of_due h.sorted (List.mem_of_find?_eq_some hfind) hle
  rcases told_or_waits_land hwaits moment with htold | ⟨hnone, -⟩
  · exact htold
  · exact absurd hkey (hnone a ha)

/-- A flight that somebody waits for and that is certain to end is due at some time. -/
theorem isSome_due? (h : r.cache.Expects p r.agenda) (hwaits : r.cache.Waits w key)
    (hends : p.Ends key) : (r.due? key).isSome = true := by
  obtain ⟨a, ha, hkey⟩ := h.arrives key hwaits.isInFlight hends
  rw [due?, Option.isSome_map, List.find?_isSome]
  exact ⟨a, ha, by simpa using hkey⟩

end CacheRun

end Reckoner
