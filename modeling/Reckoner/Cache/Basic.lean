import Reckoner.Cache.Span
import Reckoner.Entries

/-!
# The rate cache

A rate cache keeps values for some time and sees to it that a value that is being fetched is not
fetched a second time.

* `Entry`, `Flight` — a value that was stored, and a fetch that is under way with those who wait
  for it.
* `RateCache` — the entries, the flights and the counters of a cache.
* `RateCache.peek` — the value of a key that is still good.
* `RateCache.call` — asks for the value of a key.
* `RateCache.settle` — ends the flight of a key.
* `RateCache.cancel`, `RateCache.clear` — a waiter gives up; all entries are dropped.
-/

namespace Reckoner

/-- A value that was stored. -/
structure Entry (ν : Type) where
  value : ν
  storedAt : Rat

/-- A fetch that is under way, and who waits for it. -/
structure Flight (ω : Type) where
  startedAt : Rat
  waiters : List ω

/-- A cache of values that are good for some time, asked by waiters. -/
structure RateCache (ω ν : Type) where
  /-- How long a value is good. -/
  lifetime : Span
  entries : Entries (Entry ν)
  /-- The fetches that are under way, at most one for each key. -/
  flights : Entries (Flight ω)
  hits : Nat
  joins : Nat
  fetches : Nat
  failures : Nat

/-- What comes of asking for the value of a key. -/
inductive Called (ν : Type) where
  /-- The value was there. -/
  | hit (value : ν)
  /-- The value was being fetched already. -/
  | joined
  /-- A fetch was begun. -/
  | started

namespace RateCache

variable {ω ν : Type}

/-- A cache without entries and flights. -/
def empty (lifetime : Span) : RateCache ω ν := ⟨lifetime, [], [], 0, 0, 0, 0⟩

/-- Whether an entry is still good. -/
def isLive (c : RateCache ω ν) (now : Rat) (e : Entry ν) : Bool :=
  c.lifetime.covers e.storedAt now

/-- The value of a key that is still good. -/
def peek (c : RateCache ω ν) (now : Rat) (key : String) : Option ν :=
  ((c.entries.lookup key).filter (c.isLive now)).map (·.value)

/-- Whether the value of a key is being fetched. -/
def isInFlight (c : RateCache ω ν) (key : String) : Bool := (c.flights.lookup key).isSome

/-- A waiter asks for the value of a key: it has the value at once, or waits for the flight of the
    key, which begins if it is not under way. -/
def call (c : RateCache ω ν) (now : Rat) (waiter : ω) (key : String) :
    RateCache ω ν × Called ν :=
  match c.peek now key with
  | some value => ({ c with hits := c.hits + 1 }, .hit value)
  | none =>
    match c.flights.lookup key with
    | some f =>
      let joined : Flight ω := { f with waiters := f.waiters ++ [waiter] }
      ({ c with joins := c.joins + 1, flights := c.flights.put key joined }, .joined)
    | none =>
      ({ c with fetches := c.fetches + 1, flights := c.flights.put key ⟨now, [waiter]⟩ },
        .started)

/-- Ends the flight of a key with a value or without one, and gives those who waited for it.  A
    value is stored; the lack of one is counted as a failure. -/
def settle (c : RateCache ω ν) (now : Rat) (key : String) (outcome : Option ν) :
    RateCache ω ν × List ω :=
  match c.flights.lookup key with
  | none => (c, [])
  | some f =>
    let landed := { c with flights := c.flights.erase key }
    match outcome with
    | some value => ({ landed with entries := c.entries.put key ⟨value, now⟩ }, f.waiters)
    | none => ({ landed with failures := c.failures + 1 }, f.waiters)

/-- Whether somebody waits for a flight. -/
def isWaiting [BEq ω] (c : RateCache ω ν) (waiter : ω) : Bool :=
  c.flights.any fun (_, f) => f.waiters.contains waiter

/-- A waiter gives up.  The flight goes on. -/
def cancel [BEq ω] (c : RateCache ω ν) (waiter : ω) : RateCache ω ν :=
  let without (f : Flight ω) : Flight ω := { f with waiters := f.waiters.filter (· != waiter) }
  { c with flights := c.flights.map fun (key, f) => (key, without f) }

/-- Drops all entries.  Flights go on. -/
def clear (c : RateCache ω ν) : RateCache ω ν := { c with entries := [] }

end RateCache

end Reckoner
