import Mathlib.Data.Finset.Card
import Mathlib.Data.Set.Card
import Reckoner.Cache.Counters
import Reckoner.Proofs.Cache.Runs
import Reckoner.Proofs.Cache.SingleFlight

/-!
# The counters of a cache balance

Every call is counted as a hit, a join or a fetch; every fetch has failed, has delivered a value or
is under way; and there is one entry for every key that has been stored since the last clearing.

* `Stocking`, `keysOf` — what fills and empties a cache, and the keys that are left in it.
* `RateCache.Tallied` — the invariant: the counters, the flights and the entries are what was called
  and stored.
* `Tallied.call`, `Tallied.settle`, `Tallied.cancel`, `Tallied.clear` — every operation keeps it.
* `RateCache.Balances` — the counters that are shown balance.
* `run_balances` — they do after every move of an interleaving and every event of a run.
-/

namespace Reckoner

variable {ω ν : Type}

/-! ### What fills and empties a cache -/

/-- A value is stored for a key, or all entries are dropped. -/
inductive Stocking where
  | stored (key : String)
  | emptied

/-- Whether a value is stored. -/
def Stocking.isStored : Stocking → Bool
  | .stored _ => true
  | .emptied => false

/-- What the end of a fetch stores. -/
def Stocking.ofEnd (key : String) (outcome : Option ν) : List Stocking :=
  match outcome with
  | some _ => [.stored key]
  | none => []

/-- The keys for which a value was stored since the entries were dropped last.  The latest stocking
    comes first. -/
def Stocking.keysOf : List Stocking → List String
  | [] => []
  | .emptied :: _ => []
  | .stored key :: earlier => key :: keysOf earlier

namespace RateCache

open Stocking

/-! ### The invariant -/

/-- **The counters, the flights and the entries are what was called and stored.** -/
structure Tallied (c : RateCache ω ν) (calls : Nat) (past : List Stocking) : Prop where
  calls_eq : c.hits + c.joins + c.fetches = calls
  fetches_eq : c.fetches = c.failures + past.countP isStored + c.flights.length
  flights_nodup : c.flights.keys.Nodup
  entries_nodup : c.entries.keys.Nodup
  mem_entries_iff : ∀ key, key ∈ c.entries.keys ↔ key ∈ keysOf past

namespace Tallied

variable {c : RateCache ω ν} {calls : Nat} {past : List Stocking}

theorem empty (lifetime : Span) : (RateCache.empty lifetime : RateCache ω ν).Tallied 0 [] where
  calls_eq := rfl
  fetches_eq := rfl
  flights_nodup := List.nodup_nil
  entries_nodup := List.nodup_nil
  mem_entries_iff key := by simp [RateCache.empty, Entries.keys, keysOf]

/-- **A call is counted once**: as a hit, as a join, or as a fetch. -/
theorem call (h : c.Tallied calls past) (now : Rat) (w : ω) (key : String) :
    (c.call now w key).1.Tallied (calls + 1) past := by
  have hcalls := h.calls_eq
  have hfetches := h.fetches_eq
  rcases c.call_cases now w key with ⟨v, -, hcall⟩ | ⟨f, -, hf, hcall⟩ | ⟨-, hnone, hcall⟩ <;>
    rw [hcall]
  · refine ⟨?_, h.fetches_eq, h.flights_nodup, h.entries_nodup, h.mem_entries_iff⟩
    simp only [afterHit]
    omega
  · -- The key has a flight already, so that there are as many flights as before.
    have hkeys := Entries.keys_put c.flights key ⟨f.startedAt, f.waiters ++ [w]⟩
    rw [hf, Option.isSome_some, if_pos rfl] at hkeys
    have hlength := congrArg List.length hkeys
    rw [Entries.length_keys, Entries.length_keys] at hlength
    refine ⟨?_, ?_, Entries.nodup_keys_put h.flights_nodup key _, h.entries_nodup,
      h.mem_entries_iff⟩
    · simp only [afterJoin]
      omega
    · rw [flights_afterJoin, hlength]
      exact h.fetches_eq
  · -- The flight that begins has a key of its own.
    have hkeys := Entries.keys_put c.flights key ⟨now, [w]⟩
    rw [hnone, Option.isSome_none, if_neg Bool.false_ne_true] at hkeys
    have hlength := congrArg List.length hkeys
    rw [List.length_append, Entries.length_keys, Entries.length_keys, List.length_singleton]
      at hlength
    refine ⟨?_, ?_, Entries.nodup_keys_put h.flights_nodup key _, h.entries_nodup,
      h.mem_entries_iff⟩
    · simp only [afterStart]
      omega
    · rw [flights_afterStart, hlength]
      simp only [afterStart]
      omega

/-- **The end of a fetch is counted once**: as a failure, or by what it stores. -/
theorem settle (h : c.Tallied calls past) (now : Rat) {key : String} (outcome : Option ν)
    (hflight : c.isInFlight key = true) :
    (c.settle now key outcome).1.Tallied calls (ofEnd key outcome ++ past) := by
  obtain ⟨f, hf⟩ := Option.isSome_iff_exists.mp hflight
  have hfetches := h.fetches_eq
  have hkeys := Entries.keys_erase c.flights key
  have hmem : key ∈ c.flights.keys := (Entries.mem_keys_iff c.flights key).mpr hflight
  -- One flight less is under way.
  have hlength : (c.flights.erase key).length + 1 = c.flights.length := by
    have hfilter : c.flights.keys.filter (· ≠ key) = c.flights.keys.erase key := by
      rw [h.flights_nodup.erase_eq_filter]
      exact List.filter_congr fun k _ => by simp [bne, BEq.beq]
    have herase := List.length_erase_add_one hmem
    rw [← hfilter, ← hkeys, Entries.length_keys, Entries.length_keys] at herase
    exact herase
  have hnodup : (c.flights.erase key).keys.Nodup := by
    rw [hkeys]
    exact h.flights_nodup.filter _
  rw [settle_of_flight _ _ _ hf]
  cases outcome with
  | none =>
    refine ⟨h.calls_eq, ?_, hnodup, h.entries_nodup, h.mem_entries_iff⟩
    simp only [afterEnd, ofEnd, List.nil_append]
    omega
  | some v =>
    refine ⟨h.calls_eq, ?_, hnodup, Entries.nodup_keys_put h.entries_nodup key _, fun other => ?_⟩
    · simp only [afterEnd, ofEnd, List.singleton_append, List.countP_cons, isStored, if_true]
      omega
    · -- A key that was stored before keeps its entry, so that keys are counted once.
      rw [entries_afterEnd_some, Entries.mem_keys_iff, Entries.isSome_lookup_put,
        ← Entries.mem_keys_iff, h.mem_entries_iff]
      simp [ofEnd, keysOf]

/-- Giving up is not counted. -/
theorem cancel [BEq ω] (h : c.Tallied calls past) (w : ω) : (c.cancel w).Tallied calls past where
  calls_eq := h.calls_eq
  fetches_eq := by
    simp only [RateCache.cancel, List.length_map]
    exact h.fetches_eq
  flights_nodup := by
    simp only [RateCache.cancel, Entries.keys, List.map_map]
    exact h.flights_nodup
  entries_nodup := h.entries_nodup
  mem_entries_iff := h.mem_entries_iff

/-- Clearing leaves no entry. -/
theorem clear (h : c.Tallied calls past) : c.clear.Tallied calls (.emptied :: past) where
  calls_eq := h.calls_eq
  fetches_eq := by
    rw [List.countP_cons_of_neg Bool.false_ne_true]
    exact h.fetches_eq
  flights_nodup := h.flights_nodup
  entries_nodup := List.nodup_nil
  mem_entries_iff key := by simp [RateCache.clear, Entries.keys, keysOf]

end Tallied

/-! ### The counters that are shown -/

/-- **The counters balance** when there were so many calls, so many fetches delivered a value, and
    values were stored for these keys since the last clearing. -/
def Balances (c : RateCache ω ν) (calls delivered : Nat) (stored : List String) : Prop :=
  ∃ entries inFlight hits joins fetches failures : Nat,
    (∀ name lifetime, c.counters name lifetime =
      .obj [("name", .str name), ("ttl_seconds", .float lifetime), ("entries", .int entries),
        ("in_flight", .int inFlight), ("hits", .int hits), ("joins", .int joins),
        ("fetches", .int fetches), ("failures", .int failures)]) ∧
    hits + joins + fetches = calls ∧
    fetches = failures + delivered + inFlight ∧
    inFlight = {key | c.isInFlight key = true}.ncard ∧
    entries = stored.toFinset.card

/-- The number of flights is the number of keys in flight. -/
theorem Tallied.length_flights {c : RateCache ω ν} {calls : Nat} {past : List Stocking}
    (h : c.Tallied calls past) : c.flights.length = {key | c.isInFlight key = true}.ncard := by
  have hset : {key | c.isInFlight key = true} = ↑c.flights.keys.toFinset := by
    ext key
    rw [Set.mem_ofPred_eq, List.coe_toFinset, Set.mem_ofPred_eq, Entries.mem_keys_iff]
    rfl
  rw [hset, Set.ncard_coe_finset, List.toFinset_card_of_nodup h.flights_nodup, Entries.length_keys]

/-- The number of entries is the number of keys for which a value was stored. -/
theorem Tallied.length_entries {c : RateCache ω ν} {calls : Nat} {past : List Stocking}
    (h : c.Tallied calls past) : c.entries.length = (keysOf past).toFinset.card := by
  rw [← Entries.length_keys, ← List.toFinset_card_of_nodup h.entries_nodup]
  congr 1
  ext key
  rw [List.mem_toFinset, List.mem_toFinset, h.mem_entries_iff]

theorem Tallied.balances {c : RateCache ω ν} {calls : Nat} {past : List Stocking}
    (h : c.Tallied calls past) : c.Balances calls (past.countP isStored) (keysOf past) :=
  ⟨c.entries.length, c.flights.length, c.hits, c.joins, c.fetches, c.failures, fun _ _ => rfl,
    h.calls_eq, h.fetches_eq, h.length_flights, h.length_entries⟩

/-! ### Interleavings -/

/-- What something that happens fills or empties. -/
def Happening.stockings : Happening ω ν → List Stocking
  | .settled f _ ending _ => ofEnd f.key ending.value?
  | .cleared => [.emptied]
  | .called .. | .cancelled _ => []

/-- Whether a move is a call. -/
def Move.isCall : Move ω ν → Bool
  | .call _ _ => true
  | _ => false

namespace Life

/-- What has filled and emptied the cache, the latest first. -/
def stockings (s : Life ω ν) : List Stocking := s.history.flatMap Happening.stockings

variable [DecidableEq ω]

/-- **Every move keeps the invariant**, and counts if it is a call. -/
theorem step_tallied {s : Life ω ν} (hsingle : s.SingleFlight) {calls : Nat}
    (h : s.cache.Tallied calls s.stockings) (m : Move ω ν) :
    (s.step m).cache.Tallied (calls + if m.isCall then 1 else 0) (s.step m).stockings := by
  cases m with
  | call w key =>
    have hcall := h.call s.now w key
    show (s.call w key).cache.Tallied (calls + 1) (s.call w key).stockings
    -- The cache is that after the call, whatever the call is told.
    unfold Life.call
    generalize s.cache.call s.now w key = result at hcall
    obtain ⟨cache, called⟩ := result
    cases called <;> exact hcall
  | settle number ending =>
    show (s.settle number ending).cache.Tallied calls (s.settle number ending).stockings
    obtain heq | ⟨f, hf, -, heq⟩ := s.settle_cases number ending <;> rw [heq]
    · exact h
    · exact h.settle s.now ending.value? ((hsingle.isInFlight_iff f.key).mpr ⟨f, hf, rfl⟩)
  | cancel w => exact h.cancel w
  | clear => exact h.clear
  | pass seconds => exact h

theorem run_tallied {s : Life ω ν} (hsingle : s.SingleFlight) {calls : Nat}
    (h : s.cache.Tallied calls s.stockings) (moves : List (Move ω ν)) :
    (s.run moves).cache.Tallied (calls + moves.countP Move.isCall) (s.run moves).stockings := by
  induction moves generalizing s calls with
  | nil => exact h
  | cons m rest ih =>
    have hrest := ih (step_singleFlight s m hsingle) (step_tallied hsingle h m)
    rwa [Nat.add_assoc, Nat.add_comm (if m.isCall then 1 else 0), ← List.countP_cons] at hrest

end Life
end RateCache

/-! ### Runs on a virtual clock -/

open Stocking RateCache

/-- Whether an event is a call. -/
def CacheEvent.isCall : CacheEvent ω ν → Bool
  | .call _ _ _ => true
  | _ => false

namespace CacheRun

/-- What flights that end one after the other store, the latest first. -/
def storedBy : List (Arrival ν) → List Stocking
  | [] => []
  | a :: rest => storedBy rest ++ ofEnd a.key a.value

/-- What an event fills and empties, the latest first.  When time goes by, the arrivals that are due
    store what they bring. -/
def stockings (r : CacheRun ω ν) : CacheEvent ω ν → List Stocking
  | .pass seconds => storedBy (r.agenda.takeWhile (·.due ≤ after r.now seconds))
  | .clear => [.emptied]
  | .call .. | .cancel _ => []

variable [BEq ω]

/-- What events fill and empty, the latest first. -/
def stockingsOf (r : CacheRun ω ν) : List (CacheEvent ω ν) → List Stocking
  | [] => []
  | e :: rest => stockingsOf (r.step e).1 rest ++ r.stockings e

omit [BEq ω] in
/-- Flights that end one after the other are counted one after the other. -/
theorem tallied_arriveAll {r : CacheRun ω ν} {due rest : List (Arrival ν)} {calls : Nat}
    {past : List Stocking} (hexpects : r.cache.Expects .unknown (due ++ rest))
    (h : r.cache.Tallied calls past) :
    (r.arriveAll due).1.cache.Tallied calls (storedBy due ++ past) := by
  induction due generalizing r past with
  | nil => exact h
  | cons a due ih =>
    have harrive : (r.arrive a).1.cache.Tallied calls (ofEnd a.key a.value ++ past) :=
      h.settle a.due a.value (hexpects.flies a List.mem_cons_self)
    rw [storedBy, List.append_assoc]
    exact ih (expects_arrive hexpects) harrive

/-- **Every event keeps the invariant**, and counts if it is a call. -/
theorem step_tallied {r : CacheRun ω ν} {calls : Nat} {past : List Stocking}
    (hexpects : r.cache.Expects .unknown r.agenda) (h : r.cache.Tallied calls past)
    (e : CacheEvent ω ν) :
    (r.step e).1.cache.Tallied (calls + if e.isCall then 1 else 0) (r.stockings e ++ past) := by
  cases e with
  | call w key d =>
    show (r.call w key d).1.cache.Tallied (calls + 1) past
    rw [cache_call]
    exact h.call r.now w key
  | cancel w => exact h.cancel w
  | clear => exact h.clear
  | pass seconds =>
    -- What is due now and what is due later are the agenda, in its order.
    have hsplit : r.cache.Expects .unknown
        (r.agenda.takeWhile (·.due ≤ after r.now seconds) ++
          r.agenda.dropWhile (·.due ≤ after r.now seconds)) := by
      rw [List.takeWhile_append_dropWhile]
      exact hexpects
    exact tallied_arriveAll
      (r := { r with agenda := r.agenda.dropWhile (·.due ≤ after r.now seconds) })
      hsplit h

theorem run_tallied {r : CacheRun ω ν} {calls : Nat} {past : List Stocking}
    (hexpects : r.cache.Expects .unknown r.agenda) (h : r.cache.Tallied calls past)
    (events : List (CacheEvent ω ν)) :
    (r.run events).1.cache.Tallied (calls + events.countP CacheEvent.isCall)
      (r.stockingsOf events ++ past) := by
  induction events generalizing r calls past with
  | nil => exact h
  | cons e rest ih =>
    have hrest := ih (expects_step hexpects e) (step_tallied hexpects h e)
    rw [stockingsOf, List.append_assoc]
    rwa [Nat.add_assoc, Nat.add_comm (if e.isCall then 1 else 0), ← List.countP_cons] at hrest

end CacheRun

/-- **The counters always balance**, after any moves in any order and after any events on a virtual
    clock: hits, joins and fetches are the calls; every fetch has failed, has delivered a value or
    is under way; and there are as many entries as keys that were stored since the last clearing. -/
theorem RateCache.run_balances [DecidableEq ω] (lifetime allowance : Span) :
    (∀ moves : List (Move ω ν),
      let s := (Life.start lifetime).run moves
      s.cache.Balances (moves.countP Move.isCall) (s.stockings.countP isStored)
        (keysOf s.stockings)) ∧
      ∀ events : List (CacheEvent ω ν),
        let past := (CacheRun.start lifetime allowance).stockingsOf events
        ((CacheRun.start lifetime allowance).run events).1.cache.Balances
          (events.countP CacheEvent.isCall) (past.countP isStored) (keysOf past) := by
  -- A run begins with empty sums, so that what was counted on the way is all there is.
  refine ⟨fun moves => ?_, fun events => ?_⟩
  · have h := Life.run_tallied (Life.start_singleFlight lifetime) (Tallied.empty lifetime) moves
    rw [Nat.zero_add] at h
    exact h.balances
  · have h := CacheRun.run_tallied (r := CacheRun.start lifetime allowance)
      (.empty .unknown lifetime) (.empty lifetime) events
    rw [Nat.zero_add, List.append_nil] at h
    exact h.balances

end Reckoner
