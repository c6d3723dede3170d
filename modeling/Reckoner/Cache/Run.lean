import Reckoner.Cache.Basic

/-!
# Runs of a rate cache

A run lets time go by over a rate cache: a fetch ends when its value arrives or when the time it is
allowed is over, whichever is first.  Where both are at the same moment, either may be first.

* `Delivery`, `Delivery.end?` — what a fetch would bring, and after how long; when it ends, and with
  what.
* `Arrival` — the end of a flight that is to come.
* `CacheRun` — a rate cache with its clock and the arrivals to come.
* `CacheEvent`, `CacheRun.step` — what can happen in a run, and what it does.
* `Notice` — what an event makes known.
-/

namespace Reckoner

/-- What a fetch would bring, and after how long.  A fetch without a delay never ends by itself. -/
structure Delivery (ν : Type) where
  delay : Option Rat
  value : Option ν
  /-- Whether it brings something in time if it ends at the very moment at which the time that it is
      allowed is over.  Which of the two comes first depends on all else that is under way. -/
  winsTie : Bool

/-- When a fetch that begins at a moment ends, and with what, unless it never does: with what it
    brings if that comes in the time that it is allowed, and without a value when that time is over.
    A fetch that is allowed no time is over before it begins; one that needs no time is not. -/
def Delivery.end? {ν : Type} (d : Delivery ν) (allowance : Span) (now : Rat) :
    Option (Rat × Option ν) :=
  match d.delay, allowance.deadline? now with
  | none, none => none
  | none, some deadline => some (deadline, none)
  | some t, none => some (after now t, d.value)
  | some t, some deadline =>
    let comes := after now t
    let isInTime := t ≤ 0 || comes < deadline || (comes = deadline && d.winsTie)
    if !allowance.isVoid && isInTime then some (comes, d.value) else some (deadline, none)

/-- The end of a flight that is to come. -/
structure Arrival (ν : Type) where
  due : Rat
  key : String
  value : Option ν

/-- A rate cache with its clock and the arrivals to come, the earliest first. -/
structure CacheRun (ω ν : Type) where
  /-- How long a fetch may take. -/
  allowance : Span
  now : Rat
  cache : RateCache ω ν
  agenda : List (Arrival ν)

/-- What an event makes known. -/
inductive Notice (ω ν : Type) where
  /-- A fetch of a key was sent. -/
  | fetching (key : String)
  /-- A waiter is told the value of the key that it asked for, or that there is none. -/
  | told (waiter : ω) (key : String) (value : Option ν)

/-- What can happen in a run. -/
inductive CacheEvent (ω ν : Type) where
  /-- A waiter asks for a key.  The delivery is what a fetch of the key would bring now. -/
  | call (waiter : ω) (key : String) (delivery : Delivery ν)
  /-- A waiter gives up. -/
  | cancel (waiter : ω)
  /-- All entries are dropped. -/
  | clear
  /-- Time goes by. -/
  | pass (seconds : Rat)

/-- Puts an arrival behind those that are due before it or together with it. -/
def Arrival.insert {ν : Type} (a : Arrival ν) : List (Arrival ν) → List (Arrival ν)
  | [] => [a]
  | b :: rest => if b.due ≤ a.due then b :: insert a rest else a :: b :: rest

namespace CacheRun

variable {ω ν : Type}

/-- The beginning of a run, at time zero. -/
def start (lifetime allowance : Span) : CacheRun ω ν := ⟨allowance, 0, .empty lifetime, []⟩

/-- Whether a fetch is sent at all: it is not if it is allowed no time. -/
def sends (r : CacheRun ω ν) : Bool := !r.allowance.isVoid

/-- The end of the flight that a fetch begins now, unless it never ends. -/
def arrival? (r : CacheRun ω ν) (key : String) (d : Delivery ν) : Option (Arrival ν) :=
  (d.end? r.allowance r.now).map fun (due, value) => ⟨due, key, value⟩

/-- Adds the end of a flight to the arrivals to come. -/
def schedule (r : CacheRun ω ν) (a? : Option (Arrival ν)) : CacheRun ω ν :=
  match a? with
  | some a => { r with agenda := a.insert r.agenda }
  | none => r

/-- A waiter asks for a key. -/
def call (r : CacheRun ω ν) (waiter : ω) (key : String) (d : Delivery ν) :
    CacheRun ω ν × List (Notice ω ν) :=
  let (cache, called) := r.cache.call r.now waiter key
  let r := { r with cache := cache }
  match called with
  | .hit value => (r, [.told waiter key (some value)])
  | .joined => (r, [])
  | .started => (r.schedule (r.arrival? key d), if r.sends then [.fetching key] else [])

/-- A flight ends, at the time of its arrival. -/
def arrive (r : CacheRun ω ν) (a : Arrival ν) : CacheRun ω ν × List (Notice ω ν) :=
  let (cache, waiters) := r.cache.settle a.due a.key a.value
  ({ r with now := a.due, cache := cache }, waiters.map fun w => .told w a.key a.value)

/-- Flights end one after the other. -/
def arriveAll (r : CacheRun ω ν) : List (Arrival ν) → CacheRun ω ν × List (Notice ω ν)
  | [] => (r, [])
  | a :: rest =>
    let (r, told) := r.arrive a
    let (r, later) := r.arriveAll rest
    (r, told ++ later)

/-- Time goes by up to a moment.  Every flight that ends by then ends at its own time. -/
def passTo (r : CacheRun ω ν) (moment : Rat) : CacheRun ω ν × List (Notice ω ν) :=
  let due := r.agenda.takeWhile (·.due ≤ moment)
  let (r', told) := { r with agenda := r.agenda.dropWhile (·.due ≤ moment) }.arriveAll due
  ({ r' with now := moment }, told)

/-- Time goes by.  It does not go backwards. -/
def pass (r : CacheRun ω ν) (seconds : Rat) : CacheRun ω ν × List (Notice ω ν) :=
  r.passTo (after r.now seconds)

/-- What an event does, and what it makes known. -/
def step [BEq ω] (r : CacheRun ω ν) : CacheEvent ω ν → CacheRun ω ν × List (Notice ω ν)
  | .call waiter key d => r.call waiter key d
  | .cancel waiter => ({ r with cache := r.cache.cancel waiter }, [])
  | .clear => ({ r with cache := r.cache.clear }, [])
  | .pass seconds => r.pass seconds

/-- A run over events in order, with what each of them makes known. -/
def run [BEq ω] (r : CacheRun ω ν) : List (CacheEvent ω ν) → CacheRun ω ν × List (List (Notice ω ν))
  | [] => (r, [])
  | e :: rest =>
    let (r, notices) := r.step e
    let (r, later) := r.run rest
    (r, notices :: later)

/-- The value of a key that is still good. -/
def peek (r : CacheRun ω ν) (key : String) : Option ν := r.cache.peek r.now key

/-- When the flight of a key ends. -/
def due? (r : CacheRun ω ν) (key : String) : Option Rat :=
  (r.agenda.find? (·.key == key)).map (·.due)

end CacheRun

end Reckoner
