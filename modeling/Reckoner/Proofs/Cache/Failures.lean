import Reckoner.Proofs.Cache.Deadlines
import Reckoner.Proofs.Cache.Provenance
import Reckoner.Proofs.Cache.VirtualTime

/-!
# A failed fetch leaves no trace

A fetch that ends without a value, because it brought nothing, raised an error or ran out of time,
leaves the entries as they are.  Its key is free again, so that the next call for it begins another
fetch.

* `Life.lookup_entries_step`, `CacheRun.lookup_entries_step` — what can change the entry of a key.
* `Life.Lacks` — a key has no value and is not fetched; `run_lacks` — until it is asked for, it
  stays so.  `CacheRun.run_lacks` is the same on a virtual clock.
* `Life.LeavesNoTrace`, `CacheRun.LeavesNoTrace` — what is left of a fetch that failed.
* `coming?_of_flyingSince` — a flight ends with what the call that began it brings in time.
* `run_leavesNoTrace` — every fetch that fails leaves no trace.
-/

namespace Reckoner

variable {ω ν : Type}

namespace RateCache.Life

variable [DecidableEq ω] {s : Life ω ν} {key : String}

/-! ### What changes an entry -/

/-- **An entry changes** only if a fetch of its key delivers a value, or if all are dropped. -/
theorem lookup_entries_step (s : Life ω ν) (m : Move ω ν) (key : String) :
    (s.step m).cache.entries.lookup key = s.cache.entries.lookup key ∨ m = .clear ∨
      ∃ f ∈ s.running, ∃ v, f.key = key ∧ m = .settle f.number (.delivered v) := by
  cases m with
  | call w other =>
    refine .inl ?_
    show (s.call w other).cache.entries.lookup key = _
    obtain ⟨v, -, heq⟩ | ⟨fl, -, -, heq⟩ | ⟨-, -, heq⟩ := s.call_cases w other <;> rw [heq] <;> rfl
  | settle number ending =>
    show (s.settle number ending).cache.entries.lookup key = _ ∨ _
    obtain heq | ⟨f, hf, rfl, heq⟩ := s.settle_cases number ending <;> rw [heq]
    · exact .inl rfl
    · cases hfl : s.cache.flights.lookup f.key with
      | none => exact .inl (by rw [settle_of_no_flight _ _ _ hfl])
      | some fl =>
        rw [settle_of_flight _ _ _ hfl]
        -- Only a value that comes for the key itself is stored under it.
        by_cases hkey : key = f.key
        · cases ending with
          | delivered v => exact .inr (.inr ⟨f, hf, v, hkey.symm, rfl⟩)
          | empty | raised | timedOut => exact .inl rfl
        · exact .inl (lookup_entries_afterEnd_of_ne _ _ _ hkey)
  | cancel w => exact .inl rfl
  | clear => exact .inr (.inl rfl)
  | pass seconds => exact .inl rfl

/-! ### Keys that are not fetched -/

/-- **A key lacks its value**: there is none that is still good, and none is being fetched. -/
structure Lacks (s : Life ω ν) (key : String) : Prop where
  peek_eq_none : s.cache.peek s.now key = none
  isInFlight_eq : s.cache.isInFlight key = false

/-- A key that lacks its value lacks it after every move but a call for it. -/
theorem step_lacks (hsingle : s.SingleFlight) (h : s.Lacks key) {m : Move ω ν}
    (hm : ∀ w, m ≠ .call w key) : (s.step m).Lacks key := by
  have hnorun : ∀ f ∈ s.running, f.key ≠ key := by
    rintro f hf rfl
    have hflight := (hsingle.isInFlight_iff f.key).mpr ⟨f, hf, rfl⟩
    exact absurd hflight (by simp [h.isInFlight_eq])
  cases m with
  | call w other =>
    have hne : key ≠ other := by
      rintro rfl
      exact hm w rfl
    show (s.call w other).Lacks key
    obtain ⟨v, -, heq⟩ | ⟨fl, -, hfl, heq⟩ | ⟨-, -, heq⟩ := s.call_cases w other <;> rw [heq]
    · exact ⟨h.peek_eq_none, h.isInFlight_eq⟩
    · exact ⟨h.peek_eq_none, (isInFlight_afterJoin s.cache w hfl key).trans h.isInFlight_eq⟩
    · refine ⟨h.peek_eq_none, ?_⟩
      exact (congrArg Option.isSome (Entries.lookup_put_of_ne _ _ hne)).trans h.isInFlight_eq
  | settle number ending =>
    show (s.settle number ending).Lacks key
    obtain heq | ⟨f, hf, -, heq⟩ := s.settle_cases number ending <;> rw [heq]
    · exact h
    · -- The fetch that ends is one of another key.
      obtain ⟨fl, hfl⟩ := hsingle.exists_flight hf
      have hne : key ≠ f.key := (hnorun f hf).symm
      rw [settle_of_flight _ _ _ hfl]
      refine ⟨?_, ?_⟩
      · exact (peek_afterEnd_of_ne _ _ _ hne _).trans h.peek_eq_none
      · simp only [isInFlight, flights_afterEnd, Entries.lookup_erase_of_ne _ hne]
        exact h.isInFlight_eq
  | cancel w => exact ⟨h.peek_eq_none, (isInFlight_cancel s.cache w key).trans h.isInFlight_eq⟩
  | clear => exact ⟨by simp [step, peek], h.isInFlight_eq⟩
  | pass seconds =>
    exact ⟨s.cache.peek_eq_none_of_le (le_later_left _ _) h.peek_eq_none, h.isInFlight_eq⟩

/-- **Until it is asked for**, a key that lacks its value goes on lacking it. -/
theorem run_lacks (hsingle : s.SingleFlight) (h : s.Lacks key) {moves : List (Move ω ν)}
    (hmoves : ∀ w, .call w key ∉ moves) : (s.run moves).Lacks key := by
  induction moves generalizing s with
  | nil => exact h
  | cons m rest ih =>
    refine ih (step_singleFlight s m hsingle) (step_lacks hsingle h fun w hw => ?_) fun w hw => ?_
    · exact hmoves w (hw ▸ List.mem_cons_self)
    · exact hmoves w (.tail m hw)

/-- A call for a key that lacks its value begins a fetch. -/
theorem call_of_lacks (h : s.Lacks key) (w : ω) :
    (s.step (.call w key)).history =
      .called w key s.now (.started (s.nextFetch key)) :: s.history := by
  show (s.call w key).history = _
  obtain ⟨v, hv, -⟩ | ⟨fl, -, hfl, -⟩ | ⟨-, -, heq⟩ := s.call_cases w key
  · cases h.peek_eq_none.symm.trans hv
  · have hflight := h.isInFlight_eq
    simp [isInFlight, hfl] at hflight
  · rw [heq]

/-! ### What is left of a fetch that failed -/

/-- **A fetch `f` leaves no trace** when its end leads from `s` to `t`: the entries are the same,
    its key is no longer in flight, one failure more is counted, all those who wait for it are told
    that there is no value, and the next call for its key begins a fetch that was never heard of. -/
structure LeavesNoTrace (f : Fetch) (ending : Ending ν) (s t : Life ω ν) : Prop where
  entries_eq : t.cache.entries = s.cache.entries
  wasInFlight : s.cache.isInFlight f.key = true
  isInFlight_eq : t.cache.isInFlight f.key = false
  failures_eq : t.cache.failures = s.cache.failures + 1
  told : ∃ told, t.history = .settled f s.now ending told :: s.history ∧
    ∀ w outcome, (w, outcome) ∈ told ↔ outcome = none ∧ WaitsFor f w s.history
  anew : ∀ later, (∀ w, .call w f.key ∉ later) → ∀ w, ∃ g : Fetch,
    ((t.run later).step (.call w f.key)).history =
        .called w f.key (t.run later).now (.started g) :: (t.run later).history ∧
      g.key = f.key ∧ Unheard g (t.run later).history

/-- **A fetch that ends without a value leaves no trace.** -/
theorem leavesNoTrace_settle {lifetime : Span} (hsingle : s.SingleFlight) (hnumbered : s.Numbered)
    (hrec : s.Recorded lifetime) {f : Fetch} (hf : f ∈ s.running) {ending : Ending ν}
    (hending : ending.value? = none) :
    LeavesNoTrace f ending s (s.step (.settle f.number ending)) := by
  obtain ⟨fl, hfl⟩ := hsingle.exists_flight hf
  have hflight : s.cache.isInFlight f.key = true := (hsingle.isInFlight_iff f.key).mpr ⟨f, hf, rfl⟩
  have hsettle : s.step (.settle f.number ending) = s.settle f.number ending := rfl
  rw [settle_of_mem hnumbered hf, settle_of_flight _ _ _ hfl, hending] at hsettle
  -- Its key has no value, since it was in flight, and it is in flight no more.
  have hlacks : (s.step (.settle f.number ending)).Lacks f.key := by
    rw [hsettle]
    exact ⟨hsingle.peek_eq_none f.key hflight, by simp [isInFlight]⟩
  refine ⟨by rw [hsettle]; rfl, hflight, hlacks.isInFlight_eq, by rw [hsettle]; rfl, ?_, ?_⟩
  · refine ⟨fl.waiters.map fun w => (w, none), by rw [hsettle], fun w outcome => ?_⟩
    rw [← mem_waitingOn_iff, ← hrec.waiters_eq f hf fl hfl]
    simp [and_comm, eq_comm]
  · intro later hlater w
    obtain ⟨hafter, hrecafter⟩ :=
      run_recorded (step_recorded hrec hsingle (.settle f.number ending))
      (step_singleFlight s _ hsingle) later
    have hstill := run_lacks (step_singleFlight s _ hsingle) hlacks hlater
    exact ⟨_, call_of_lacks hstill w, rfl, hrecafter.unheard _ (le_refl _)⟩

end RateCache.Life

namespace CacheRun

variable [BEq ω] {r : CacheRun ω ν} {p : Forecast ν} {key : String}

/-! ### On a virtual clock -/

/-- **An entry changes** only if a value for it has come, or if all are dropped. -/
theorem lookup_entries_step (h : r.cache.Expects p r.agenda) (e : CacheEvent ω ν) (key : String) :
    (r.step e).1.cache.entries.lookup key = r.cache.entries.lookup key ∨ e = .clear ∨
      ∃ seconds v, e = .pass seconds ∧ r.coming? key = some (some v) := by
  cases e with
  | call w other d =>
    refine .inl ?_
    show (r.call w other d).1.cache.entries.lookup key = _
    rcases r.call_cases w other d with ⟨v, -, hcall⟩ | ⟨f, -, -, hcall⟩ | ⟨-, -, hcall⟩ <;>
      rw [hcall] <;> rfl
  | cancel w => exact .inl rfl
  | clear => exact .inr (.inl rfl)
  | pass seconds =>
    -- Only an arrival that brings a value writes an entry.
    by_cases hvalue : ∃ v, r.coming? key = some (some v)
    · obtain ⟨v, hv⟩ := hvalue
      exact .inr (.inr ⟨seconds, v, rfl, hv⟩)
    · refine .inl (lookup_entries_passTo fun a ha hkey => ?_)
      have hcoming := coming?_of_mem h (List.takeWhile_subset _ ha)
      rw [hkey] at hcoming
      exact Option.eq_none_iff_forall_ne_some.mpr fun v hv => hvalue ⟨v, hv ▸ hcoming⟩

/-- A key that lacks its value lacks it after every event but a call for it. -/
theorem step_lacks (h : r.cache.Expects p r.agenda) (hlacks : r.lacks key = true)
    {e : CacheEvent ω ν} (he : ∀ w d, e ≠ .call w key d) : (r.step e).1.lacks key = true := by
  obtain ⟨hpeek, hflight⟩ := lacks_iff.mp hlacks
  cases e with
  | call w other d =>
    have hne : key ≠ other := by
      rintro rfl
      exact he w d rfl
    exact (lacks_call_of_ne r w d hne).trans hlacks
  | cancel w =>
    exact lacks_iff.mpr ⟨hpeek, (RateCache.isInFlight_cancel r.cache w key).trans hflight⟩
  | clear => exact lacks_iff.mpr ⟨by simp [step, peek, RateCache.peek], hflight⟩
  | pass seconds =>
    -- No arrival is one of the key, since it is not in flight.
    have hnone : ∀ a ∈ r.agenda, a.key ≠ key := by
      rintro a ha rfl
      exact absurd (h.flies a ha) (by simp [hflight])
    refine lacks_iff.mpr ⟨?_, ?_⟩
    · exact peek_passTo_eq_none (le_after _ _) hpeek fun a ha hkey =>
        absurd hkey (hnone a (List.takeWhile_subset _ ha))
    · cases hf : (r.step (.pass seconds)).1.cache.flights.lookup key with
      | none => simp [RateCache.isInFlight, hf]
      | some f => simp [RateCache.isInFlight, (lookup_flights_passTo hf).2] at hflight

/-- **Until it is asked for**, a key that lacks its value goes on lacking it. -/
theorem run_lacks (h : r.cache.Expects .unknown r.agenda) (hlacks : r.lacks key = true)
    {events : List (CacheEvent ω ν)} (hevents : ∀ w d, .call w key d ∉ events) :
    (r.run events).1.lacks key = true := by
  induction events generalizing r with
  | nil => exact hlacks
  | cons e rest ih =>
    refine ih (expects_step h e) (step_lacks h hlacks fun w d he => ?_) fun w d he => ?_
    · exact hevents w d (he ▸ List.mem_cons_self)
    · exact hevents w d (.tail e he)

/-- What is to come of a flight is the same as long as it goes on. -/
theorem coming?_step (h : r.cache.isInFlight key = true) {e : CacheEvent ω ν}
    (hafter : (r.step e).1.cache.isInFlight key = true) :
    (r.step e).1.coming? key = r.coming? key := by
  cases e with
  | call w other d => exact coming?_call_of_isInFlight h
  | cancel w => rfl
  | clear => rfl
  | pass seconds => exact coming?_passTo hafter

/-- **A flight ends with what the call that began it brings** in the time that it is allowed. -/
theorem coming?_of_flyingSince {lifetime allowance : Span} {before rest : List (CacheEvent ω ν)}
    {w : ω} {d : Delivery ν}
    (h : FlyingSince (start lifetime allowance) key before (.call w key d :: rest)) :
    ((start lifetime allowance).run (before ++ .call w key d :: rest)).1.coming? key =
      d.ending allowance ((start lifetime allowance : CacheRun ω ν).run before).1.now := by
  have hlacks := h.lacked
  have hflies := h.flies
  clear h
  -- The induction is over the last event: the flight that is there after it was there before.
  induction rest using List.reverseRecOn with
  | nil =>
    obtain ⟨hpeek, hflight⟩ := lacks_iff.mp hlacks
    rw [run_concat]
    refine (coming?_call (expects_run lifetime allowance before) hpeek w d).trans ?_
    rw [yield?, hpeek, hflight, allowance_run]
    rfl
  | append_singleton rest e ih =>
    have hbefore := hflies (.call w key d :: rest) ⟨[e], rfl⟩ (List.cons_ne_nil _ _)
    have hafter := hflies _ (List.prefix_refl _) (List.cons_ne_nil _ _)
    have hlast : before ++ .call w key d :: (rest ++ [e]) =
        before ++ .call w key d :: rest ++ [e] := by simp
    rw [hlast, run_concat] at hafter ⊢
    refine (coming?_step hbefore hafter).trans (ih fun part hpart => ?_)
    exact hflies part (hpart.trans ⟨[e], rfl⟩)

/-- **The fetch of a key leaves no trace** when it ends while time goes by: its entry is the same,
    all those who wait for it are told that there is no value, and the next call for it begins
    another fetch. -/
structure LeavesNoTrace (key : String) (r : CacheRun ω ν) (seconds : Rat) : Prop where
  entry_eq : (r.pass seconds).1.cache.entries.lookup key = r.cache.entries.lookup key
  told_iff : ∀ w v, .told w key v ∈ (r.pass seconds).2 ↔ v = none ∧ r.cache.Waits w key
  anew : ∀ later, (∀ w d, .call w key d ∉ later) → ∀ w d,
    let u := ((r.pass seconds).1.run later).1
    (u.call w key d).1.cache = u.cache.afterStart u.now w key

/-- **A fetch that ends without a value leaves no trace.** -/
theorem leavesNoTrace_pass (h : r.cache.Expects .unknown r.agenda) (hpeek : r.peek key = none)
    (hcoming : r.coming? key = some none) {seconds : Rat}
    (hended : (r.pass seconds).1.cache.isInFlight key = false) : r.LeavesNoTrace key seconds := by
  -- What arrives for the key brings no value, so that nothing is stored in the meantime.
  have hdue : ∀ a ∈ r.agenda.takeWhile (·.due ≤ after r.now seconds), a.key = key →
      a.value = none := by
    rintro a ha rfl
    exact Option.some.inj ((coming?_of_mem h (List.takeWhile_subset _ ha)).symm.trans hcoming)
  have hlacks : (r.pass seconds).1.lacks key = true :=
    lacks_iff.mpr ⟨peek_passTo_eq_none (le_after _ _) hpeek hdue, hended⟩
  refine ⟨lookup_entries_passTo hdue, fun w v => ⟨fun htold => ?_, ?_⟩, ?_⟩
  · obtain ⟨hwaits, hv⟩ := coming?_of_told_passTo h htold
    exact ⟨Option.some.inj (hv.symm.trans hcoming), hwaits⟩
  · rintro ⟨rfl, hwaits⟩
    obtain ⟨v, hv⟩ | hstill := told_or_waits_passTo hwaits (after r.now seconds)
    · obtain ⟨-, hbrings⟩ := coming?_of_told_passTo h hv
      rwa [Option.some.inj (hcoming.symm.trans hbrings)]
    · cases hended.symm.trans hstill.isInFlight
  · -- Afterwards the key is lacking, and the next call finds neither an entry nor a fetch.
    intro later hlater w d u
    have hstill : u.lacks key = true := run_lacks (expects_passTo h _) hlacks hlater
    obtain ⟨hnone, hflight⟩ := lacks_iff.mp hstill
    rcases u.call_cases w key d with ⟨v, hv, -⟩ | ⟨f, -, hf, -⟩ | ⟨-, -, hcall⟩
    · cases hnone.symm.trans hv
    · simp [RateCache.isInFlight, hf] at hflight
    · rw [hcall]

end CacheRun

/-! ### Every run -/

open RateCache Life in
/-- **A failed fetch leaves no trace**, in whatever order things happen: the entries are the same,
    its key is free again, one failure more is counted, those who wait are told that there is no
    value, and the next call begins another fetch.  Entries change only by what a fetch of their key
    delivers and by clearing.  On a virtual clock, too, a fetch that brings no value in the time
    that it is allowed leaves no trace. -/
theorem RateCache.run_leavesNoTrace [DecidableEq ω] (lifetime allowance : Span) :
    (∀ moves : List (Move ω ν), ∀ f ∈ ((start lifetime).run moves).running,
      ∀ ending : Ending ν, ending.value? = none →
        LeavesNoTrace f ending ((start lifetime).run moves)
          (((start lifetime).run moves).step (.settle f.number ending))) ∧
      (∀ (moves : List (Move ω ν)) (m : Move ω ν) (key : String),
        let s := (start lifetime).run moves
        (s.step m).cache.entries.lookup key = s.cache.entries.lookup key ∨ m = .clear ∨
          ∃ f ∈ s.running, ∃ v, f.key = key ∧ m = .settle f.number (.delivered v)) ∧
      (∀ (before rest : List (CacheEvent ω ν)) (w : ω) (key : String) (d : Delivery ν)
          (seconds : Rat),
        let began := ((CacheRun.start lifetime allowance : CacheRun ω ν).run before).1.now
        let r := ((CacheRun.start lifetime allowance).run (before ++ .call w key d :: rest)).1
        CacheRun.FlyingSince (CacheRun.start lifetime allowance) key before
            (.call w key d :: rest) →
          d.ending allowance began = some none → (r.pass seconds).1.cache.isInFlight key = false →
            r.LeavesNoTrace key seconds) ∧
      ∀ (events : List (CacheEvent ω ν)) (e : CacheEvent ω ν) (key : String),
        let r := ((CacheRun.start lifetime allowance).run events).1
        (r.step e).1.cache.entries.lookup key = r.cache.entries.lookup key ∨ e = .clear ∨
          ∃ seconds v, e = .pass seconds ∧ r.coming? key = some (some v) := by
  -- The first two parts are about moves, the others about the times at which fetches end.
  refine ⟨?_, ?_, ?_, ?_⟩
  · intro moves f hf ending hending
    obtain ⟨hsingle, hrec⟩ := run_recorded (start_recorded lifetime) (start_singleFlight lifetime)
      moves
    exact leavesNoTrace_settle hsingle (numbered_run lifetime moves) hrec hf hending
  · intro moves m key
    exact Life.lookup_entries_step _ m key
  · intro before rest w key d seconds began r hsince hending hended
    have hflight := hsince.flies _ (List.prefix_refl _) (List.cons_ne_nil _ _)
    have hpeek := CacheRun.peek_run_eq_none lifetime allowance _ hflight
    exact CacheRun.leavesNoTrace_pass (CacheRun.expects_run lifetime allowance _) hpeek
      ((CacheRun.coming?_of_flyingSince hsince).trans hending) hended
  · intro events e key
    exact CacheRun.lookup_entries_step (CacheRun.expects_run lifetime allowance events) e key

open RateCache Life in
/-- A fetch runs out of time that two waiters have called for, one of whom has given up, while the
    entries were dropped.  On a virtual clock, a fetch that never ends is over
    after five seconds. -/
theorem RateCache.leavesNoTrace_timedOut :
    (let s : Life Nat Nat := (start (.seconds 60)).run
        [.call 1 "USD", .call 2 "USD", .cancel 1, .clear];
      (⟨0, "USD"⟩ : Fetch) ∈ s.running ∧ Ending.value? (.timedOut : Ending Nat) = none ∧
        LeavesNoTrace ⟨0, "USD"⟩ .timedOut s (s.step (.settle 0 .timedOut))) ∧
      let hanging : CacheEvent Nat Nat := .call 1 "USD" ⟨none, none, false⟩
      let r : CacheRun Nat Nat := ((CacheRun.start (.seconds 60) (.seconds 5)).run [hanging]).1
      CacheRun.FlyingSince (CacheRun.start (.seconds 60) (.seconds 5)) "USD" [] [hanging] ∧
        (r.pass 5).1.cache.isInFlight "USD" = false ∧ r.LeavesNoTrace "USD" 5 := by
  constructor
  · intro s
    have hf : (⟨0, "USD"⟩ : Fetch) ∈ s.running := by decide +kernel
    exact ⟨hf, rfl, (run_leavesNoTrace (.seconds 60) (.seconds 5)).1 _ _ hf .timedOut rfl⟩
  · intro hanging r
    have hsince : CacheRun.FlyingSince (CacheRun.start (.seconds 60) (.seconds 5)) "USD" []
        [hanging] := CacheRun.flyingSince_call (by decide +kernel) rfl
    have hended : (r.pass 5).1.cache.isInFlight "USD" = false := by decide +kernel
    exact ⟨hsince, hended, (run_leavesNoTrace (.seconds 60) (.seconds 5)).2.2.1 [] [] 1 "USD"
      ⟨none, none, false⟩ 5 hsince rfl hended⟩

end Reckoner
