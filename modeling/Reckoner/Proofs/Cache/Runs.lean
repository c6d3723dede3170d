import Reckoner.Proofs.Cache.Yields

/-!
# Runs of a cache, event by event

What holds of every run is proved by adding one event at the end of it.

* `run_append`, `run_concat` — a run over more events goes on where the first ones have led.
* `expects_run` — the promises of a cache and its agenda hold after every run.
* `lookup_flights_step` — **inversion of an event**: a flight was begun by a call just now, or it
  was there before, and who waits for it has waited before or has just joined it.
* `allowance_run` — the time that a fetch may take stays as it is.
* `peek_run_eq_none` — a key in flight has no value that is still good.
-/

namespace Reckoner.CacheRun

variable {ω ν : Type} {r : CacheRun ω ν} {key : String}

/-! ### Entries while time goes by -/

/-- Flights that end without a value for a key leave its entry as it is. -/
theorem lookup_entries_arriveAll {due : List (Arrival ν)}
    (h : ∀ a ∈ due, a.key = key → a.value = none) :
    (r.arriveAll due).1.cache.entries.lookup key = r.cache.entries.lookup key := by
  induction due generalizing r with
  | nil => rfl
  | cons a rest ih =>
    obtain ⟨ha, hrest⟩ := List.forall_mem_cons.mp h
    refine (ih (r := (r.arrive a).1) hrest).trans ?_
    cases hf : r.cache.flights.lookup a.key with
    | none => simp only [arrive, RateCache.settle_of_no_flight r.cache a.due a.value hf]
    | some f =>
      rw [arrive_of_flight hf]
      by_cases hkey : a.key = key
      · rw [ha hkey]
        rfl
      · exact RateCache.lookup_entries_afterEnd_of_ne _ _ _ (Ne.symm hkey)

@[simp] theorem lifetime_arriveAll (r : CacheRun ω ν) (due : List (Arrival ν)) :
    (r.arriveAll due).1.cache.lifetime = r.cache.lifetime := by
  induction due generalizing r with
  | nil => rfl
  | cons a rest ih =>
    refine (ih (r.arrive a).1).trans ?_
    cases hf : r.cache.flights.lookup a.key with
    | none => simp only [arrive, RateCache.settle_of_no_flight r.cache a.due a.value hf]
    | some f => simp [arrive_of_flight hf]

/-- An entry changes while time goes by only if a value for it is due. -/
theorem lookup_entries_passTo {moment : Rat}
    (h : ∀ a ∈ r.agenda.takeWhile (·.due ≤ moment), a.key = key → a.value = none) :
    (r.passTo moment).1.cache.entries.lookup key = r.cache.entries.lookup key := by
  rw [passTo_eq]
  exact lookup_entries_arriveAll (r := { r with agenda := _ }) h

/-- What is not there does not come back while time goes by, unless a value for it is due. -/
theorem peek_passTo_eq_none {moment : Rat} (hle : r.now ≤ moment) (hpeek : r.peek key = none)
    (h : ∀ a ∈ r.agenda.takeWhile (·.due ≤ moment), a.key = key → a.value = none) :
    (r.passTo moment).1.peek key = none := by
  have hentry := lookup_entries_passTo h
  have hlifetime : (r.passTo moment).1.cache.lifetime = r.cache.lifetime := by
    rw [passTo_eq]
    exact lifetime_arriveAll _ _
  exact (RateCache.peek_congr hlifetime hentry moment).trans (r.cache.peek_eq_none_of_le hle hpeek)

variable [BEq ω]

/-! ### One event -/

theorem allowance_step (r : CacheRun ω ν) (e : CacheEvent ω ν) :
    (r.step e).1.allowance = r.allowance := by
  cases e with
  | call w key d => exact r.allowance_call w key d
  | cancel w => rfl
  | clear => rfl
  | pass seconds => exact r.allowance_passTo _

/-- **Inversion of an event.** A flight was begun by a call just now, or it was there before. -/
theorem lookup_flights_step {e : CacheEvent ω ν} {f : Flight ω}
    (h : (r.step e).1.cache.flights.lookup key = some f) :
    (∃ w d, e = .call w key d ∧ r.lacks key = true ∧ f = ⟨r.now, [w]⟩) ∨
      ∃ g, r.cache.flights.lookup key = some g ∧ f.startedAt = g.startedAt ∧
        ∀ w ∈ f.waiters, w ∈ g.waiters ∨ ∃ d, e = .call w key d := by
  cases e with
  | call w other d =>
    replace h : (r.call w other d).1.cache.flights.lookup key = some f := h
    rcases r.call_cases w other d with ⟨v, -, hcall⟩ | ⟨g, -, hg, hcall⟩ | ⟨hpeek, hnone, hcall⟩ <;>
      rw [hcall] at h
    · exact .inr ⟨f, h, rfl, fun w hw => .inl hw⟩
    · by_cases hkey : key = other
      · -- The flight has one waiter more, who has just called.
        subst hkey
        cases (Entries.lookup_put_self r.cache.flights key _).symm.trans h
        refine .inr ⟨g, hg, rfl, fun w' hw' => ?_⟩
        rcases List.mem_append.mp hw' with hw' | hw'
        · exact .inl hw'
        · exact .inr ⟨d, by rw [List.mem_singleton.mp hw']⟩
      · rw [RateCache.flights_afterJoin, Entries.lookup_put_of_ne _ _ hkey] at h
        exact .inr ⟨f, h, rfl, fun w hw => .inl hw⟩
    · by_cases hkey : key = other
      · subst hkey
        cases (Entries.lookup_put_self r.cache.flights key _).symm.trans h
        have hlacks : r.lacks key = true :=
          lacks_iff.mpr ⟨hpeek, by simp [RateCache.isInFlight, hnone]⟩
        exact .inl ⟨w, d, rfl, hlacks, rfl⟩
      · rw [RateCache.flights_afterStart, Entries.lookup_put_of_ne _ _ hkey] at h
        exact .inr ⟨f, h, rfl, fun w hw => .inl hw⟩
  | cancel w =>
    replace h : (r.cache.cancel w).flights.lookup key = some f := h
    rw [RateCache.lookup_flights_cancel] at h
    obtain ⟨g, hg, rfl⟩ := Option.map_eq_some_iff.mp h
    exact .inr ⟨g, hg, rfl, fun w' hw' => .inl (List.mem_of_mem_filter hw')⟩
  | clear => exact .inr ⟨f, h, rfl, fun w hw => .inl hw⟩
  | pass seconds =>
    exact .inr ⟨f, (lookup_flights_passTo h).2, rfl, fun w hw => .inl hw⟩

/-- Every event keeps the promises of a cache and its agenda. -/
theorem expects_step (h : r.cache.Expects .unknown r.agenda) (e : CacheEvent ω ν) :
    (r.step e).1.cache.Expects .unknown (r.step e).1.agenda := by
  cases e with
  | call w key d => exact expects_call h (Forecast.covers_unknown _ _ _)
  | cancel w => exact h.cancel w
  | clear => exact h.clear
  | pass seconds => exact expects_passTo h _

/-- **A key in flight has no value that is still good** after an event, if it had none before. -/
theorem peek_step_eq_none (h : r.cache.isInFlight key = true → r.peek key = none)
    {e : CacheEvent ω ν} (hflight : (r.step e).1.cache.isInFlight key = true) :
    (r.step e).1.peek key = none := by
  obtain ⟨f, hf⟩ := Option.isSome_iff_exists.mp hflight
  have hpeek : r.peek key = none := by
    rcases lookup_flights_step hf with ⟨w, d, -, hlacks, -⟩ | ⟨g, hg, -, -⟩
    · exact (lacks_iff.mp hlacks).1
    · exact h (by simp [RateCache.isInFlight, hg])
  cases e with
  | call w other d => exact (r.peek_call w other d key).trans hpeek
  | cancel w => exact hpeek
  | clear => simp [step, peek, RateCache.peek]
  | pass seconds =>
    refine peek_passTo_eq_none (le_after _ _) hpeek fun a ha hkey => ?_
    exact absurd hkey ((lookup_flights_passTo hf).1 a ha)

/-! ### Any number of events -/

/-- Events in two parts happen one part after the other. -/
theorem run_append (r : CacheRun ω ν) (events more : List (CacheEvent ω ν)) :
    r.run (events ++ more) =
      (((r.run events).1.run more).1, (r.run events).2 ++ ((r.run events).1.run more).2) := by
  induction events generalizing r with
  | nil => rfl
  | cons e rest ih => simp only [List.cons_append, run, ih]

/-- The last event happens where the others have led. -/
theorem run_concat (r : CacheRun ω ν) (events : List (CacheEvent ω ν)) (e : CacheEvent ω ν) :
    (r.run (events ++ [e])).1 = ((r.run events).1.step e).1 := by
  rw [run_append]
  rfl

theorem allowance_run (r : CacheRun ω ν) (events : List (CacheEvent ω ν)) :
    (r.run events).1.allowance = r.allowance := by
  induction events generalizing r with
  | nil => rfl
  | cons e rest ih => exact (ih (r.step e).1).trans (r.allowance_step e)

/-- **The promises of a cache and its agenda hold after every run.** -/
theorem expects_run (lifetime allowance : Span) (events : List (CacheEvent ω ν)) :
    ((start lifetime allowance).run events).1.cache.Expects .unknown
      ((start lifetime allowance).run events).1.agenda := by
  suffices hgeneral : ∀ r : CacheRun ω ν, r.cache.Expects .unknown r.agenda →
      (r.run events).1.cache.Expects .unknown (r.run events).1.agenda from
    hgeneral _ (.empty _ lifetime)
  induction events with
  | nil => exact fun _ h => h
  | cons e rest ih => exact fun r h => ih _ (expects_step h e)

/-- **A key that is in flight has no value that is still good.** -/
theorem peek_run_eq_none (lifetime allowance : Span) (events : List (CacheEvent ω ν))
    (hflight : ((start lifetime allowance).run events).1.cache.isInFlight key = true) :
    ((start lifetime allowance).run events).1.peek key = none := by
  suffices hgeneral : ∀ r : CacheRun ω ν,
      (r.cache.isInFlight key = true → r.peek key = none) →
      (r.run events).1.cache.isInFlight key = true → (r.run events).1.peek key = none from
    hgeneral _ (fun _ => rfl) hflight
  clear hflight
  induction events with
  | nil => exact fun _ h => h
  | cons e rest ih => exact fun r h => ih _ (peek_step_eq_none h)

end Reckoner.CacheRun
