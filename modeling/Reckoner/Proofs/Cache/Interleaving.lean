import Reckoner.Proofs.Cache.Operations

/-!
# Interleavings of a rate cache

Calls, ends of fetches, cancellations, clearings and the passing of time may follow each other in
any order.  Nothing is assumed about when a fetch ends or how: the surroundings choose a fetch that
is under way and let it end with a value, without one, with an error or by running out of time.

* `Ending`, `Fetch` — how a fetch ends; a fetch with its number and its key.
* `Move` — what can come next.
* `Happening` — what a move makes of the past.
* `Life` — a cache with its clock, the fetches under way and all that has happened.
* `Life.step`, `Life.run` — one move, and any number of them.
* `Life.call_cases`, `Life.settle_cases` — all that a call and the end of a fetch can do.
* `Life.run_induction` — what holds at the beginning and is kept by every move always holds.
-/

namespace Reckoner.RateCache

/-! ### Fetches -/

/-- How a fetch ends. -/
inductive Ending (ν : Type) where
  | delivered (value : ν)
  /-- It brought nothing. -/
  | empty
  /-- It raised an error. -/
  | raised
  /-- The time that it was allowed was over. -/
  | timedOut

/-- The value that a fetch brings, if it brings one. -/
def Ending.value? {ν : Type} : Ending ν → Option ν
  | .delivered value => some value
  | .empty | .raised | .timedOut => none

/-- A fetch that was started.  Fetches are numbered in the order of their starts. -/
structure Fetch where
  number : Nat
  key : String
deriving DecidableEq

/-! ### Moves and happenings -/

/-- What can come next. -/
inductive Move (ω ν : Type) where
  /-- A waiter asks for a key. -/
  | call (waiter : ω) (key : String)
  /-- The fetch with a number ends, if it is under way. -/
  | settle (number : Nat) (ending : Ending ν)
  /-- A waiter gives up. -/
  | cancel (waiter : ω)
  /-- All entries are dropped. -/
  | clear
  /-- Time goes by. -/
  | pass (seconds : Rat)

/-- What a call receives at once. -/
inductive Reception (ν : Type) where
  | hit (value : ν)
  /-- A fetch was started for it. -/
  | started (fetch : Fetch)
  /-- It waits for the fetch of its key that is under way. -/
  | joined (fetch : Option Fetch)

/-- The fetch that a call waits for. -/
def Reception.fetch? {ν : Type} : Reception ν → Option Fetch
  | .hit _ => none
  | .started f => some f
  | .joined f => f

/-- Something that has happened. -/
inductive Happening (ω ν : Type) where
  | called (waiter : ω) (key : String) (time : Rat) (reception : Reception ν)
  /-- A fetch ended, and waiters were told a value or that there is none. -/
  | settled (fetch : Fetch) (time : Rat) (ending : Ending ν) (told : List (ω × Option ν))
  | cancelled (waiter : ω)
  | cleared

/-- A cache with its clock, the fetches that were started and have not ended, how many were started,
    and all that has happened, the latest first. -/
structure Life (ω ν : Type) where
  now : Rat
  cache : RateCache ω ν
  running : List Fetch
  started : Nat
  history : List (Happening ω ν)

namespace Life

variable {ω ν : Type}

/-- The beginning, at time zero. -/
def start (lifetime : Span) : Life ω ν := ⟨0, .empty lifetime, [], 0, []⟩

/-- The fetch that the next call without a value and without a flight starts. -/
def nextFetch (s : Life ω ν) (key : String) : Fetch := ⟨s.started, key⟩

/-- The fetch of a key that is under way. -/
def fetchOf (s : Life ω ν) (key : String) : Option Fetch := s.running.find? (·.key = key)

/-- A waiter asks for a key. -/
def call (s : Life ω ν) (waiter : ω) (key : String) : Life ω ν :=
  let (cache, called) := s.cache.call s.now waiter key
  let received (r : Reception ν) : Life ω ν :=
    { s with cache := cache, history := .called waiter key s.now r :: s.history }
  match called with
  | .hit value => received (.hit value)
  | .joined => received (.joined (s.fetchOf key))
  | .started =>
    { received (.started (s.nextFetch key)) with
      running := s.running ++ [s.nextFetch key]
      started := s.started + 1 }

/-- The fetch with a number ends. -/
def settle (s : Life ω ν) (number : Nat) (ending : Ending ν) : Life ω ν :=
  match s.running.find? (·.number = number) with
  | none => s
  | some f =>
    let (cache, waiters) := s.cache.settle s.now f.key ending.value?
    let told := waiters.map fun w => (w, ending.value?)
    { s with
      cache := cache
      running := s.running.filter (· ≠ f)
      history := .settled f s.now ending told :: s.history }

/-- What a move does. -/
def step [DecidableEq ω] (s : Life ω ν) : Move ω ν → Life ω ν
  | .call waiter key => s.call waiter key
  | .settle number ending => s.settle number ending
  | .cancel waiter =>
    { s with cache := s.cache.cancel waiter, history := .cancelled waiter :: s.history }
  | .clear => { s with cache := s.cache.clear, history := .cleared :: s.history }
  | .pass seconds => { s with now := later s.now (s.now + seconds) }

/-- What moves do one after the other. -/
def run [DecidableEq ω] (s : Life ω ν) (moves : List (Move ω ν)) : Life ω ν := moves.foldl step s

/-! ### What a move can do -/

/-- **Inversion of a call.** A call is a hit, joins the flight of its key, or starts a fetch. -/
theorem call_cases (s : Life ω ν) (w : ω) (key : String) :
    (∃ v, s.cache.peek s.now key = some v ∧
      s.call w key =
        { s with
          cache := s.cache.afterHit
          history := .called w key s.now (.hit v) :: s.history }) ∨
    (∃ f, s.cache.peek s.now key = none ∧ s.cache.flights.lookup key = some f ∧
      s.call w key =
        { s with
          cache := s.cache.afterJoin w key f
          history := .called w key s.now (.joined (s.fetchOf key)) :: s.history }) ∨
    (s.cache.peek s.now key = none ∧ s.cache.flights.lookup key = none ∧
      s.call w key =
        { s with
          cache := s.cache.afterStart s.now w key
          running := s.running ++ [s.nextFetch key]
          started := s.started + 1
          history := .called w key s.now (.started (s.nextFetch key)) :: s.history }) := by
  unfold call
  obtain ⟨v, hpeek, hcall⟩ | ⟨f, hpeek, hflight, hcall⟩ | ⟨hpeek, hflight, hcall⟩ :=
    s.cache.call_cases s.now w key
  · exact .inl ⟨v, hpeek, by rw [hcall]⟩
  · exact .inr (.inl ⟨f, hpeek, hflight, by rw [hcall]⟩)
  · exact .inr (.inr ⟨hpeek, hflight, by rw [hcall]⟩)

/-- **Inversion of the end of a fetch.** A fetch that is not under way cannot end.  One that is
    leaves the fetches under way, and the flight of its key ends. -/
theorem settle_cases (s : Life ω ν) (number : Nat) (ending : Ending ν) :
    s.settle number ending = s ∨
    ∃ f ∈ s.running, f.number = number ∧
      s.settle number ending =
        { s with
          cache := (s.cache.settle s.now f.key ending.value?).1
          running := s.running.filter (· ≠ f)
          history := .settled f s.now ending
            ((s.cache.settle s.now f.key ending.value?).2.map fun w => (w, ending.value?)) ::
              s.history } := by
  unfold settle
  cases hfind : s.running.find? (·.number = number) with
  | none => exact .inl rfl
  | some f =>
    have hnumber : f.number = number := by simpa using List.find?_some hfind
    exact .inr ⟨f, List.mem_of_find?_eq_some hfind, hnumber, rfl⟩

/-! ### What always holds -/

variable [DecidableEq ω]

/-- **Invariants.** What holds at the beginning and is kept by every move holds after any moves. -/
theorem run_induction {P : Life ω ν → Prop} (hstep : ∀ s m, P s → P (s.step m))
    (s : Life ω ν) (moves : List (Move ω ν)) (hs : P s) : P (s.run moves) := by
  induction moves generalizing s with
  | nil => exact hs
  | cons m rest ih => exact ih (s.step m) (hstep s m hs)

end Life

end Reckoner.RateCache
