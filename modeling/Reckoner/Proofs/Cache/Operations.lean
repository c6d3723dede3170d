import Mathlib.Tactic.Linarith
import Mathlib.Data.Rat.Lemmas
import Reckoner.Cache.Basic

/-!
# What the operations of a rate cache do

Each operation is described by what becomes of one key: of its entry and of its flight.

* `call_cases` — the three things that asking for a key can come to, with the cache after each.
* `settle_of_flight` — the end of a flight: the flight is gone, and a value is stored under its key.
* `peek_eq_some_iff` — a value is still good if it is that of the entry and the entry still lasts.
* `peek_congr`, `peek_eq_none_of_le` — it depends on the entry of its key alone, and what is no
  longer good does not become good again.
-/

namespace Reckoner.RateCache

variable {ω ν : Type}

/-! ### Entries that are still good -/

/-- A key has a value that is still good exactly if its entry is. -/
theorem peek_eq_some_iff (c : RateCache ω ν) (now : Rat) (key : String) (v : ν) :
    c.peek now key = some v ↔
      ∃ e, c.entries.lookup key = some e ∧ c.isLive now e = true ∧ e.value = v := by
  simp [peek, Option.map_eq_some_iff, Option.filter_eq_some_iff, and_assoc]

/-- A key has no value that is still good exactly if its entry, if any, is not. -/
theorem peek_eq_none_iff (c : RateCache ω ν) (now : Rat) (key : String) :
    c.peek now key = none ↔ ∀ e, c.entries.lookup key = some e → c.isLive now e = false := by
  simp [peek, Option.filter_eq_none_iff]

/-- What is no longer good does not become good again. -/
theorem isLive_eq_false_of_le (c : RateCache ω ν) {now later : Rat} (h : now ≤ later)
    (e : Entry ν) (hdead : c.isLive now e = false) : c.isLive later e = false := by
  unfold isLive Span.covers at hdead ⊢
  cases hspan : c.lifetime with
  | seconds s =>
    simp only [hspan, decide_eq_false_iff_not, not_lt] at hdead ⊢
    exact hdead.trans h
  | endless => simp [hspan] at hdead
  | undefined => rfl

/-- A key that has no value that is still good does not get one because time goes by. -/
theorem peek_eq_none_of_le (c : RateCache ω ν) {now later : Rat} (h : now ≤ later) {key : String}
    (hpeek : c.peek now key = none) : c.peek later key = none := by
  rw [peek_eq_none_iff] at hpeek ⊢
  exact fun e he => c.isLive_eq_false_of_le h e (hpeek e he)

/-- The value of a key depends on the entry of that key alone. -/
theorem peek_congr {c c' : RateCache ω ν} {key : String} (hlifetime : c.lifetime = c'.lifetime)
    (hentry : c.entries.lookup key = c'.entries.lookup key) (now : Rat) :
    c.peek now key = c'.peek now key := by
  have hlive : c.isLive now = c'.isLive now := by
    funext e
    rw [isLive, isLive, hlifetime]
  rw [peek, peek, hentry, hlive]

/-! ### Asking -/

/-- The cache after a hit. -/
def afterHit (c : RateCache ω ν) : RateCache ω ν := { c with hits := c.hits + 1 }

/-- The cache after a waiter has joined a flight. -/
def afterJoin (c : RateCache ω ν) (waiter : ω) (key : String) (f : Flight ω) : RateCache ω ν :=
  { c with
    joins := c.joins + 1
    flights := c.flights.put key { f with waiters := f.waiters ++ [waiter] } }

/-- The cache after a flight has begun. -/
def afterStart (c : RateCache ω ν) (now : Rat) (waiter : ω) (key : String) : RateCache ω ν :=
  { c with fetches := c.fetches + 1, flights := c.flights.put key ⟨now, [waiter]⟩ }

/-- **Inversion of a call.** The value is there, or its flight is joined, or a flight begins. -/
theorem call_cases (c : RateCache ω ν) (now : Rat) (waiter : ω) (key : String) :
    (∃ v, c.peek now key = some v ∧ c.call now waiter key = (c.afterHit, .hit v)) ∨
    (∃ f, c.peek now key = none ∧ c.flights.lookup key = some f ∧
      c.call now waiter key = (c.afterJoin waiter key f, .joined)) ∨
    (c.peek now key = none ∧ c.flights.lookup key = none ∧
      c.call now waiter key = (c.afterStart now waiter key, .started)) := by
  unfold call
  cases hpeek : c.peek now key with
  | some v => exact .inl ⟨v, rfl, rfl⟩
  | none =>
    cases hflight : c.flights.lookup key with
    | some f => exact .inr (.inl ⟨f, rfl, rfl, rfl⟩)
    | none => exact .inr (.inr ⟨rfl, rfl, rfl⟩)

/-- Who joins is the last to wait for the fetch. -/
@[simp] theorem flights_afterJoin (c : RateCache ω ν) (w : ω) (key : String) (f : Flight ω) :
    (c.afterJoin w key f).flights = c.flights.put key ⟨f.startedAt, f.waiters ++ [w]⟩ := rfl

/-- A fetch begins for one caller, and now. -/
@[simp] theorem flights_afterStart (c : RateCache ω ν) (now : Rat) (w : ω) (key : String) :
    (c.afterStart now w key).flights = c.flights.put key ⟨now, [w]⟩ := rfl

/-- Joining a flight begins none. -/
theorem isInFlight_afterJoin (c : RateCache ω ν) (w : ω) {key : String} {f : Flight ω}
    (hf : c.flights.lookup key = some f) (other : String) :
    (c.afterJoin w key f).isInFlight other = c.isInFlight other := by
  by_cases hother : other = key
  · simp [isInFlight, hother, hf]
  · simp [isInFlight, Entries.lookup_put_of_ne _ _ hother]

/-- After a flight has begun, its key is in flight besides those that were. -/
theorem isInFlight_afterStart_iff (c : RateCache ω ν) (now : Rat) (w : ω) (key other : String) :
    (c.afterStart now w key).isInFlight other = true ↔
      other = key ∨ c.isInFlight other = true :=
  Entries.isSome_lookup_put c.flights key other ⟨now, [w]⟩

/-! ### The end of a flight -/

/-- The cache after the flight of a key has ended. -/
def afterEnd (c : RateCache ω ν) (now : Rat) (key : String) (outcome : Option ν) :
    RateCache ω ν :=
  match outcome with
  | some value =>
    { c with flights := c.flights.erase key, entries := c.entries.put key ⟨value, now⟩ }
  | none => { c with flights := c.flights.erase key, failures := c.failures + 1 }

/-- A flight that is under way ends, and those who waited for it are told. -/
theorem settle_of_flight (c : RateCache ω ν) (now : Rat) {key : String} (outcome : Option ν)
    {f : Flight ω} (h : c.flights.lookup key = some f) :
    c.settle now key outcome = (c.afterEnd now key outcome, f.waiters) := by
  cases outcome <;> simp [settle, h, afterEnd]

/-- Where there is no flight, nothing ends. -/
theorem settle_of_no_flight (c : RateCache ω ν) (now : Rat) {key : String} (outcome : Option ν)
    (h : c.flights.lookup key = none) : c.settle now key outcome = (c, []) := by
  simp [settle, h]

/-- A fetch that ends is under way no more. -/
@[simp] theorem flights_afterEnd (c : RateCache ω ν) (now : Rat) (key : String)
    (outcome : Option ν) : (c.afterEnd now key outcome).flights = c.flights.erase key := by
  cases outcome <;> rfl

/-- A flight that is there after one has ended was there before, and has another key. -/
theorem lookup_flights_settle {c : RateCache ω ν} {now : Rat} {key other : String}
    {outcome : Option ν} {f : Flight ω}
    (h : (c.settle now key outcome).1.flights.lookup other = some f) :
    key ≠ other ∧ c.flights.lookup other = some f := by
  cases hf : c.flights.lookup key with
  | none =>
    rw [settle_of_no_flight _ _ _ hf] at h
    refine ⟨?_, h⟩
    rintro rfl
    cases hf.symm.trans h
  | some g =>
    rw [settle_of_flight _ _ _ hf, flights_afterEnd] at h
    have hne : other ≠ key := by
      rintro rfl
      simp at h
    exact ⟨hne.symm, (Entries.lookup_erase_of_ne _ hne).symm.trans h⟩

/-- After a flight has ended, the other keys are in flight as before. -/
theorem isInFlight_afterEnd_iff (c : RateCache ω ν) (now : Rat) (key : String)
    (outcome : Option ν) (other : String) :
    (c.afterEnd now key outcome).isInFlight other = true ↔
      c.isInFlight other = true ∧ other ≠ key := by
  by_cases hother : other = key
  · simp [isInFlight, hother]
  · simp [isInFlight, Entries.lookup_erase_of_ne _ hother, hother]

/-- The end of a fetch leaves the lifetime of entries as it is. -/
@[simp] theorem lifetime_afterEnd (c : RateCache ω ν) (now : Rat) (key : String)
    (outcome : Option ν) : (c.afterEnd now key outcome).lifetime = c.lifetime := by
  cases outcome <;> rfl

/-- Without a value nothing is stored. -/
@[simp] theorem entries_afterEnd_none (c : RateCache ω ν) (now : Rat) (key : String) :
    (c.afterEnd now key none).entries = c.entries := rfl

/-- A value is stored with the time when it came. -/
@[simp] theorem entries_afterEnd_some (c : RateCache ω ν) (now : Rat) (key : String) (v : ν) :
    (c.afterEnd now key (some v)).entries = c.entries.put key ⟨v, now⟩ := rfl

/-- Only the key whose flight ended gets another entry. -/
theorem lookup_entries_afterEnd_of_ne (c : RateCache ω ν) (now : Rat) {key other : String}
    (outcome : Option ν) (h : other ≠ key) :
    (c.afterEnd now key outcome).entries.lookup other = c.entries.lookup other := by
  cases outcome with
  | none => rfl
  | some v => exact Entries.lookup_put_of_ne _ _ h

/-- The other keys keep the values that are still good. -/
theorem peek_afterEnd_of_ne (c : RateCache ω ν) (now : Rat) {key other : String}
    (outcome : Option ν) (h : other ≠ key) (after : Rat) :
    (c.afterEnd now key outcome).peek after other = c.peek after other :=
  peek_congr (lifetime_afterEnd ..) (lookup_entries_afterEnd_of_ne c now outcome h) after

/-! ### Giving up and clearing -/

/-- Who gives up waits for no flight any more, and every flight goes on. -/
theorem lookup_flights_cancel [BEq ω] (c : RateCache ω ν) (w : ω) (key : String) :
    (c.cancel w).flights.lookup key =
      (c.flights.lookup key).map fun f => ⟨f.startedAt, f.waiters.filter (· != w)⟩ :=
  Entries.lookup_mapValues (fun f : Flight ω => Flight.mk f.startedAt (f.waiters.filter (· != w)))
    c.flights key

/-- A caller who gives up leaves the fetch under way. -/
@[simp] theorem isInFlight_cancel [BEq ω] (c : RateCache ω ν) (w : ω) (key : String) :
    (c.cancel w).isInFlight key = c.isInFlight key := by
  simp [isInFlight, lookup_flights_cancel]

/-- Clearing leaves no entries. -/
@[simp] theorem entries_clear (c : RateCache ω ν) : c.clear.entries = [] := rfl

end Reckoner.RateCache
