import Mathlib.Data.List.Induction
import Reckoner.Proofs.Cache.Runs

/-!
# No fetch outlives its allowance

A fetch that is under way began a shorter time ago than a fetch may take, whatever has been asked,
given up and cleared since.

* `CacheRun.Punctual` — the invariant: every flight has its arrival, which is due when the time that
  it is allowed is over, or before.
* `Punctual.step` — every event keeps it.
* `CacheRun.FlyingSince` — the fetch of a key began with a call, has been under way since, and all
  who wait for it have called since.
* `exists_flyingSince_run` — every flight of a run began so, at the time that it remembers.
* `run_beganInTime` — after every step, every key in flight is fetched since less than the
  allowance.
-/

namespace Reckoner.CacheRun

variable {ω ν : Type} {r : CacheRun ω ν} {key : String} {s : Rat}

/-! ### Arrivals in time -/

/-- **Every flight ends in time** when a fetch may take `s` seconds.  Without any time, it ends at
    the time at which it began. -/
structure Punctual (s : Rat) (r : CacheRun ω ν) : Prop where
  isFloat_now : IsFloat r.now
  sorted : r.agenda.Pairwise fun a b => a.due ≤ b.due
  begun : ∀ key f, r.cache.flights.lookup key = some f → f.startedAt ≤ r.now
  arrives : ∀ key f, r.cache.flights.lookup key = some f →
    ∃ a ∈ r.agenda, a.key = key ∧ a.due ≤ after f.startedAt s

/-- A fetch that begins now has an arrival, which is due in time. -/
theorem exists_arrival (h : r.allowance.length? = some s) (key : String) (d : Delivery ν) :
    ∃ a, r.arrival? key d = some a ∧ a.key = key ∧ a.due ≤ after r.now s := by
  obtain ⟨⟨due, value⟩, hend⟩ := Option.isSome_iff_exists.mp (Delivery.isSome_end? h d r.now)
  exact ⟨⟨due, key, value⟩, by rw [arrival?, hend]; rfl, rfl, Delivery.end?_le h hend⟩

theorem punctual_start (lifetime allowance : Span) :
    (start lifetime allowance : CacheRun ω ν).Punctual s where
  isFloat_now := isFloat_zero
  sorted := List.Pairwise.nil
  begun key f hf := by simp [start, RateCache.empty] at hf
  arrives key f hf := by simp [start, RateCache.empty] at hf

/-- The clock, the agenda and the beginnings of the flights are all that matters. -/
theorem Punctual.congr (h : r.Punctual s) {c : RateCache ω ν}
    (hflights : ∀ key f, c.flights.lookup key = some f →
      ∃ g, r.cache.flights.lookup key = some g ∧ f.startedAt = g.startedAt) :
    ({ r with cache := c } : CacheRun ω ν).Punctual s where
  isFloat_now := h.isFloat_now
  sorted := h.sorted
  begun key f hf := by
    obtain ⟨g, hg, heq⟩ := hflights key f hf
    rw [heq]
    exact h.begun key g hg
  arrives key f hf := by
    obtain ⟨g, hg, heq⟩ := hflights key f hf
    rw [heq]
    exact h.arrives key g hg

theorem Punctual.call (h : r.Punctual s) (hs : r.allowance.length? = some s) (w : ω) (key : String)
    (d : Delivery ν) : (r.call w key d).1.Punctual s := by
  rcases r.call_cases w key d with ⟨v, -, hcall⟩ | ⟨f, -, hf, hcall⟩ | ⟨-, -, hcall⟩ <;> rw [hcall]
  · exact h.congr fun other g hg => ⟨g, hg, rfl⟩
  · refine h.congr fun other g hg => ?_
    by_cases hkey : other = key
    · -- Who joins a flight does not change when it began.
      subst hkey
      cases (Entries.lookup_put_self r.cache.flights other _).symm.trans hg
      exact ⟨f, hf, rfl⟩
    · exact ⟨g, (Entries.lookup_put_of_ne _ _ hkey).symm.trans hg, rfl⟩
  · obtain ⟨a, ha, rfl, hdue⟩ := exists_arrival hs key d
    rw [ha]
    have hmem : ∀ b, b ∈ a.insert r.agenda ↔ b = a ∨ b ∈ r.agenda := fun b =>
      (a.insert_perm r.agenda).mem_iff.trans List.mem_cons
    -- A flight is the one that begins now, or it was there before.
    have hcases : ∀ other f, (r.cache.flights.put a.key ⟨r.now, [w]⟩).lookup other = some f →
        other = a.key ∧ f = ⟨r.now, [w]⟩ ∨ r.cache.flights.lookup other = some f := by
      intro other f hf
      by_cases hkey : other = a.key
      · subst hkey
        cases (Entries.lookup_put_self r.cache.flights a.key _).symm.trans hf
        exact .inl ⟨rfl, rfl⟩
      · exact .inr ((Entries.lookup_put_of_ne _ _ hkey).symm.trans hf)
    refine ⟨h.isFloat_now, a.insert_sorted h.sorted, fun other f hf => ?_, fun other f hf => ?_⟩
    · rcases hcases other f hf with ⟨-, rfl⟩ | hf
      · exact Rat.le_refl
      · exact h.begun other f hf
    · rcases hcases other f hf with ⟨rfl, rfl⟩ | hf
      · exact ⟨a, (hmem a).mpr (.inl rfl), rfl, hdue⟩
      · obtain ⟨b, hb, hkey, hle⟩ := h.arrives other f hf
        exact ⟨b, (hmem b).mpr (.inr hb), hkey, hle⟩

theorem Punctual.passTo (h : r.Punctual s) {moment : Rat} (hfloat : IsFloat moment)
    (hle : r.now ≤ moment) : (r.passTo moment).1.Punctual s where
  isFloat_now := hfloat
  sorted := by
    rw [agenda_passTo]
    exact h.sorted.sublist (List.dropWhile_sublist _)
  begun key f hf := (h.begun key f (lookup_flights_passTo hf).2).trans hle
  arrives key f hf := by
    obtain ⟨hdue, hf⟩ := lookup_flights_passTo hf
    obtain ⟨a, ha, hkey, hin⟩ := h.arrives key f hf
    rw [agenda_passTo]
    rw [← List.takeWhile_append_dropWhile (p := (·.due ≤ moment)) (l := r.agenda)] at ha
    rcases List.mem_append.mp ha with ha | ha
    · exact absurd hkey (hdue a ha)
    · exact ⟨a, ha, hkey, hin⟩

theorem Punctual.pass (h : r.Punctual s) (seconds : Rat) : (r.pass seconds).1.Punctual s :=
  h.passTo (isFloat_after h.isFloat_now seconds) (le_after _ _)

/-- **Every event keeps the flights in time.** -/
theorem Punctual.step [BEq ω] (h : r.Punctual s) (hs : r.allowance.length? = some s)
    (e : CacheEvent ω ν) : (r.step e).1.Punctual s := by
  cases e with
  | call w key d => exact h.call hs w key d
  | cancel w =>
    refine h.congr fun key f hf => ?_
    rw [RateCache.lookup_flights_cancel] at hf
    obtain ⟨g, hg, rfl⟩ := Option.map_eq_some_iff.mp hf
    exact ⟨g, hg, rfl⟩
  | clear => exact h.congr fun key f hf => ⟨f, hf, rfl⟩
  | pass seconds => exact h.pass seconds

theorem Punctual.run [BEq ω] (h : r.Punctual s) (hs : r.allowance.length? = some s)
    (events : List (CacheEvent ω ν)) : (r.run events).1.Punctual s := by
  induction events generalizing r with
  | nil => exact h
  | cons e rest ih => exact ih (h.step hs e) ((congrArg _ (r.allowance_step e)).trans hs)

/-- **What is under way is not over**, once all that is due has ended. -/
theorem Punctual.lasts_pass (h : r.Punctual s) {seconds : Rat} {f : Flight ω}
    (hf : (r.pass seconds).1.cache.flights.lookup key = some f) :
    0 ≤ (r.pass seconds).1.now - f.startedAt ∧ (r.pass seconds).1.now - f.startedAt < s := by
  have hafter := h.pass seconds
  have hbegun := hafter.begun key f hf
  obtain ⟨a, ha, -, hdue⟩ := hafter.arrives key f hf
  rw [CacheRun.pass, agenda_passTo] at ha
  have hnow : (r.pass seconds).1.now < a.due := Arrival.lt_due_of_mem_dropWhile h.sorted ha
  exact ⟨sub_nonneg.mpr hbegun, sub_lt_of_lt_after hafter.isFloat_now hbegun (hnow.trans_le hdue)⟩

/-! ### The beginning of a flight -/

variable [BEq ω] {r₀ : CacheRun ω ν} {before since : List (CacheEvent ω ν)}

/-- **The fetch of a key is under way since a call**: before the call there was no value that was
    still good and no fetch; since then the key has been in flight, and all who wait for the fetch
    have called. -/
structure FlyingSince (r₀ : CacheRun ω ν) (key : String) (before since : List (CacheEvent ω ν)) :
    Prop where
  begun : ∃ w d rest, since = .call w key d :: rest
  lacked : (r₀.run before).1.lacks key = true
  flies : ∀ part, part <+: since → part ≠ [] →
    (r₀.run (before ++ part)).1.cache.isInFlight key = true
  called : ∀ w, (r₀.run (before ++ since)).1.cache.Waits w key → ∃ d, .call w key d ∈ since

/-- A call for what lacks begins a flight. -/
theorem flyingSince_call {w : ω} {d : Delivery ν} (hlacks : (r₀.run before).1.lacks key = true)
    (hflight : (r₀.run (before ++ [.call w key d])).1.cache.flights.lookup key =
      some ⟨(r₀.run before).1.now, [w]⟩) : FlyingSince r₀ key before [.call w key d] where
  begun := ⟨w, d, [], rfl⟩
  lacked := hlacks
  flies part hpart hne := by
    obtain rfl : part = [.call w key d] := by
      rcases List.prefix_cons_iff.mp hpart with rfl | ⟨t, rfl, ht⟩
      · exact absurd rfl hne
      · rw [List.prefix_nil.mp ht]
    simp [RateCache.isInFlight, hflight]
  called w' hw' := by
    obtain ⟨f, hf, hw'⟩ := hw'
    cases hflight.symm.trans hf
    exact ⟨d, by rw [List.mem_singleton.mp hw']; exact List.mem_singleton_self _⟩

/-- An event after which the key is still in flight goes on with the flight. -/
theorem FlyingSince.concat (h : FlyingSince r₀ key before since) {e : CacheEvent ω ν}
    (hflight : (r₀.run (before ++ since ++ [e])).1.cache.isInFlight key = true)
    (hcalled : ∀ w, (r₀.run (before ++ since ++ [e])).1.cache.Waits w key →
      (r₀.run (before ++ since)).1.cache.Waits w key ∨ ∃ d, e = .call w key d) :
    FlyingSince r₀ key before (since ++ [e]) where
  begun := by
    obtain ⟨w, d, rest, rfl⟩ := h.begun
    exact ⟨w, d, rest ++ [e], rfl⟩
  lacked := h.lacked
  flies part hpart hne := by
    -- The whole of the events is the only new beginning of them.
    rcases List.prefix_concat_iff.mp hpart with rfl | hpart
    · rw [← List.append_assoc]
      exact hflight
    · exact h.flies part hpart hne
  called w hw := by
    rw [← List.append_assoc] at hw
    -- Who waits has waited before, or has called just now.
    rcases hcalled w hw with hw | ⟨d, rfl⟩
    · obtain ⟨d, hd⟩ := h.called w hw
      exact ⟨d, List.mem_append_left _ hd⟩
    · exact ⟨d, List.mem_append_right _ (List.mem_singleton_self _)⟩

/-- **Every flight began with a call**, at the time that it remembers. -/
theorem exists_flyingSince_run (lifetime allowance : Span) (events : List (CacheEvent ω ν)) :
    let r₀ : CacheRun ω ν := start lifetime allowance
    ∀ f, (r₀.run events).1.cache.flights.lookup key = some f →
      ∃ before since, events = before ++ since ∧ FlyingSince r₀ key before since ∧
        f.startedAt = (r₀.run before).1.now := by
  intro r₀
  -- The induction is over the last event.
  induction events using List.reverseRecOn with
  | nil =>
    intro f hf
    simp [run, r₀, start, RateCache.empty] at hf
  | append_singleton events e ih =>
    intro f hf
    have hflight : (r₀.run (events ++ [e])).1.cache.isInFlight key = true := by
      simp [RateCache.isInFlight, hf]
    have hstep := hf
    rw [run_concat] at hstep
    rcases lookup_flights_step hstep with ⟨w, d, rfl, hlacks, rfl⟩ | ⟨g, hg, hstarted, hwaiters⟩
    · exact ⟨events, [.call w key d], rfl, flyingSince_call hlacks hf, rfl⟩
    · obtain ⟨before, since, rfl, hsince, hbegan⟩ := ih g hg
      refine ⟨before, since ++ [e], List.append_assoc .., hsince.concat hflight ?_,
        hstarted.trans hbegan⟩
      rintro w ⟨f', hf', hw⟩
      cases hf.symm.trans hf'
      exact (hwaiters w hw).imp_left fun hw => ⟨g, hg, hw⟩

/-! ### Steps -/

/-- The events of steps.  After each step, everything is done that needs no time. -/
def eventsOf (steps : List (List (CacheEvent ω ν))) : List (CacheEvent ω ν) :=
  steps.flatMap (· ++ [.pass 0])

/-- After steps, what is under way is not over. -/
theorem contains_run_eventsOf (lifetime allowance : Span) (steps : List (List (CacheEvent ω ν)))
    {f : Flight ω}
    (hf : ((start lifetime allowance).run (eventsOf steps)).1.cache.flights.lookup key = some f) :
    allowance.contains
      (((start lifetime allowance : CacheRun ω ν).run (eventsOf steps)).1.now - f.startedAt) =
        true := by
  rcases List.eq_nil_or_concat' steps with rfl | ⟨earlier, last, rfl⟩
  · simp [eventsOf, run, start, RateCache.empty] at hf
  · have hevents : eventsOf (earlier ++ [last]) = eventsOf earlier ++ last ++ [.pass 0] := by
      simp [eventsOf]
    -- The last thing in a step is that all ends which is due, although no time goes by.
    rw [hevents, run_concat] at hf ⊢
    exact Span.contains_of_lt fun s hs =>
      ((punctual_start lifetime allowance).run hs _).lasts_pass hf

/-- **No fetch outlives its allowance.** After every step of every run, the fetch of a key that is
    in flight began with a call for it, a shorter time ago than a fetch may take.  The key has been
    in flight ever since, and who waits for the fetch has begun or joined it with a
    call since then. -/
theorem run_beganInTime (lifetime allowance : Span) (steps : List (List (CacheEvent ω ν)))
    (key : String)
    (hflight : ((start lifetime allowance).run (eventsOf steps)).1.cache.isInFlight key = true) :
    ∃ before since, eventsOf steps = before ++ since ∧
      FlyingSince (start lifetime allowance) key before since ∧
      allowance.contains (((start lifetime allowance).run (eventsOf steps)).1.now -
        ((start lifetime allowance).run before).1.now) = true := by
  obtain ⟨f, hf⟩ := Option.isSome_iff_exists.mp hflight
  obtain ⟨before, since, hevents, hsince, hbegan⟩ :=
    exists_flyingSince_run lifetime allowance (eventsOf steps) f hf
  refine ⟨before, since, hevents, hsince, ?_⟩
  rw [← hbegan]
  exact contains_run_eventsOf lifetime allowance steps hf

/-- A fetch that never ends is begun.  It is joined after two seconds, its first waiter gives up and
    all entries are dropped, and two more seconds go by. -/
def hangingSteps : List (List (CacheEvent Nat Nat)) :=
  [[.call 1 "USD" ⟨none, none, false⟩], [.pass 2], [.call 2 "USD" ⟨none, none, false⟩],
    [.cancel 1, .clear],
    [.pass 2]]

/-- The fetch is still under way, and began less than the five seconds ago that it may take. -/
theorem hanging_beganInTime :
    ((start (.seconds 60) (.seconds 5)).run (eventsOf hangingSteps)).1.cache.isInFlight "USD" =
        true ∧
      ∃ before since, eventsOf hangingSteps = before ++ since ∧
        FlyingSince (start (.seconds 60) (.seconds 5)) "USD" before since ∧
        Span.contains (.seconds 5)
          (((start (.seconds 60) (.seconds 5)).run (eventsOf hangingSteps)).1.now -
            ((start (.seconds 60) (.seconds 5)).run before).1.now) = true := by
  have hflight : ((start (.seconds 60) (.seconds 5)).run
      (eventsOf hangingSteps)).1.cache.isInFlight "USD" = true := by decide +kernel
  exact ⟨hflight, run_beganInTime _ _ _ _ hflight⟩

end Reckoner.CacheRun
