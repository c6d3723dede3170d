import Mathlib.Data.List.TakeWhile
import Reckoner.Proofs.Cache.SingleFlight
import Reckoner.Proofs.Cache.Waiting

/-!
# Runs on a virtual clock are interleavings

In a run of a cache with an agenda, each flight ends at the time of its arrival.  Such a run is one
of the interleavings in which flights may end at any time: the same moves can be made there, they
lead to the same cache at the same time, and the same waiters are told the same values in the same
order.  What holds of all interleavings thus holds of every run.

* `Life.Numbered` — the invariant that tells fetches under way apart by their numbers.
* `Life.told`, `Notice.told?` — who was told what, in order.
* `Life.Mirrors` — an interleaving has come to the cache and the time of a run.
* `CacheRun.OnTime` — the invariant of runs: no arrival of the agenda lies in the past.
* `exists_moves_run` — the moves that make a given run.
-/

namespace Reckoner

namespace RateCache

variable {ω ν : Type}

namespace Life

/-! ### Numbers of fetches -/

/-- **Fetches under way have different numbers**, all of them below the next one. -/
structure Numbered (s : Life ω ν) : Prop where
  number_lt : ∀ f ∈ s.running, f.number < s.started
  numbers_nodup : (s.running.map Fetch.number).Nodup

/-- A fetch that begins has the next number. -/
theorem call_numbered {s : Life ω ν} (h : s.Numbered) (w : ω) (key : String) :
    (s.call w key).Numbered := by
  obtain ⟨v, -, heq⟩ | ⟨fl, -, -, heq⟩ | ⟨-, -, heq⟩ := s.call_cases w key <;> rw [heq]
  · exact ⟨h.number_lt, h.numbers_nodup⟩
  · exact ⟨h.number_lt, h.numbers_nodup⟩
  · refine ⟨?_, ?_⟩
    · intro f hf
      obtain hf | hf := List.mem_append.mp hf
      · exact Nat.lt_succ_of_lt (h.number_lt f hf)
      · obtain rfl := List.mem_singleton.mp hf
        exact Nat.lt_succ_self s.started
    · -- The numbers in use are smaller than the next one.
      have hnew : s.started ∉ s.running.map Fetch.number := by
        intro hmem
        obtain ⟨f, hf, hnumber⟩ := List.mem_map.mp hmem
        exact absurd hnumber (h.number_lt f hf).ne
      rw [List.map_append]
      exact h.numbers_nodup.append (List.nodup_singleton _) (by simpa [nextFetch] using hnew)

/-- **Every move keeps the numbers apart.** -/
theorem step_numbered [DecidableEq ω] (s : Life ω ν) (m : Move ω ν) (h : s.Numbered) :
    (s.step m).Numbered := by
  cases m with
  | call w key => exact call_numbered h w key
  | settle number ending =>
    show (s.settle number ending).Numbered
    obtain heq | ⟨f, -, -, heq⟩ := s.settle_cases number ending <;> rw [heq]
    · exact h
    · exact ⟨fun g hg => h.number_lt g (List.mem_of_mem_filter hg),
        h.numbers_nodup.sublist (List.filter_sublist.map _)⟩
  | cancel w => exact ⟨h.number_lt, h.numbers_nodup⟩
  | clear => exact ⟨h.number_lt, h.numbers_nodup⟩
  | pass seconds => exact ⟨h.number_lt, h.numbers_nodup⟩

/-- So does every run. -/
theorem numbered_run [DecidableEq ω] (lifetime : Span) (moves : List (Move ω ν)) :
    ((start lifetime).run moves).Numbered :=
  run_induction step_numbered _ _ ⟨by simp [start], List.nodup_nil⟩

/-- A fetch under way can be picked by its number. -/
theorem settle_of_mem {s : Life ω ν} (h : s.Numbered) {f : Fetch} (hf : f ∈ s.running)
    (ending : Ending ν) :
    s.settle f.number ending =
      { s with
        cache := (s.cache.settle s.now f.key ending.value?).1
        running := s.running.filter (· ≠ f)
        history := .settled f s.now ending
          ((s.cache.settle s.now f.key ending.value?).2.map fun w => (w, ending.value?)) ::
            s.history } := by
  unfold settle
  cases hfind : s.running.find? (·.number = f.number) with
  | none =>
    have hne := List.find?_eq_none.mp hfind f hf
    simp at hne
  | some g =>
    have hnumber : g.number = f.number := by simpa using List.find?_some hfind
    -- Only one fetch has the number.
    obtain rfl : g = f :=
      List.inj_on_of_nodup_map h.numbers_nodup (List.mem_of_find?_eq_some hfind) hf hnumber
    rfl

end Life

/-! ### Who was told what -/

/-- Who is told what by something that happens. -/
def Happening.told : Happening ω ν → List (ω × String × Option ν)
  | .called w key _ (.hit v) => [(w, key, some v)]
  | .settled f _ _ told => told.map fun (w, v) => (w, f.key, v)
  | _ => []

/-- Who was told what, in order. -/
def Life.told (s : Life ω ν) : List (ω × String × Option ν) :=
  s.history.reverse.flatMap Happening.told

end RateCache

/-- Who is told what by a notice. -/
def Notice.told? {ω ν : Type} : Notice ω ν → Option (ω × String × Option ν)
  | .fetching _ => none
  | .told w key v => some (w, key, v)

/-- Who is told what by notices, in order. -/
def toldBy {ω ν : Type} (notices : List (Notice ω ν)) : List (ω × String × Option ν) :=
  notices.filterMap Notice.told?

/-- What is told is told in order. -/
theorem toldBy_append {ω ν : Type} (notices more : List (Notice ω ν)) :
    toldBy (notices ++ more) = toldBy notices ++ toldBy more := List.filterMap_append

namespace RateCache.Life

variable {ω ν : Type}

/-- One more happening tells what it tells after everything else. -/
theorem told_cons {s s' : Life ω ν} {x : Happening ω ν} (h : s'.history = x :: s.history) :
    s'.told = s.told ++ x.told := by
  simp [told, h]

/-! ### Interleavings that come to the same -/

/-- An interleaving has come to a cache at a time, after waiters were told this and that. -/
structure Mirrors (s : Life ω ν) (cache : RateCache ω ν) (now : Rat)
    (told : List (ω × String × Option ν)) : Prop where
  cache_eq : s.cache = cache
  now_eq : s.now = now
  told_eq : s.told = told
  single : s.SingleFlight
  numbered : s.Numbered

/-- The empty interleaving has come to the empty cache. -/
theorem mirrors_start (lifetime : Span) :
    (start lifetime : Life ω ν).Mirrors (.empty lifetime) 0 [] where
  cache_eq := rfl
  now_eq := rfl
  told_eq := rfl
  single := start_singleFlight lifetime
  numbered := ⟨by simp [start], List.nodup_nil⟩

variable [DecidableEq ω] {s : Life ω ν} {cache : RateCache ω ν} {now : Rat}
  {told : List (ω × String × Option ν)}

/-- A move leads to the cache, the time and the notices that it leads to. -/
theorem Mirrors.step (h : s.Mirrors cache now told) (m : Move ω ν) {cache' : RateCache ω ν}
    {now' : Rat} {told' : List (ω × String × Option ν)} (hcache : (s.step m).cache = cache')
    (hnow : (s.step m).now = now') (htold : (s.step m).told = s.told ++ told') :
    (s.step m).Mirrors cache' now' (told ++ told') :=
  ⟨hcache, hnow, h.told_eq ▸ htold, step_singleFlight s m h.single,
    step_numbered s m h.numbered⟩

/-- Time can go by up to any moment that is not over. -/
theorem Mirrors.pass (h : s.Mirrors cache now told) {moment : Rat} (hle : now ≤ moment) :
    (s.step (.pass (moment - now))).Mirrors cache moment told := by
  have hnow : later s.now (s.now + (moment - now)) = moment := by
    rw [h.now_eq, add_sub_cancel]
    exact if_pos hle
  have hstep := h.step (.pass (moment - now)) h.cache_eq hnow (List.append_nil s.told).symm
  rw [List.append_nil] at hstep
  exact hstep

/-- A call can be made, and its waiter is told what it is told in the run. -/
theorem Mirrors.call {r : CacheRun ω ν} (h : s.Mirrors r.cache r.now told) (w : ω) (key : String)
    (d : Delivery ν) :
    (s.step (.call w key)).Mirrors (r.call w key d).1.cache r.now
      (told ++ toldBy (r.call w key d).2) := by
  have hcall : s.cache.call s.now w key = r.cache.call r.now w key := by
    rw [h.cache_eq, h.now_eq]
  have hstep : s.step (.call w key) = s.call w key := rfl
  cases hr : r.cache.call r.now w key with
  | mk after called =>
    rw [hr] at hcall
    cases called with
    | hit v =>
      apply h.step <;> simp only [hstep, Life.call, CacheRun.call, hcall, hr]
      · exact h.now_eq
      · exact told_cons (x := .called w key s.now (.hit v)) rfl
    | joined =>
      apply h.step <;> simp only [hstep, Life.call, CacheRun.call, hcall, hr]
      · exact h.now_eq
      · exact told_cons (x := .called w key s.now (.joined (s.fetchOf key))) rfl
    | started =>
      -- That a fetch is sent is a notice, but nobody is told anything by it.
      have htold : toldBy (r.call w key d).2 = ([] : List (ω × String × Option ν)) := by
        simp only [CacheRun.call, hr]
        split <;> rfl
      rw [htold]
      apply h.step <;> simp only [hstep, Life.call, CacheRun.call, hcall, hr]
      · cases CacheRun.arrival? _ key d <;> rfl
      · exact h.now_eq
      · exact told_cons (x := .called w key s.now (.started (s.nextFetch key))) rfl

/-- A flight that is due can end, at its own time, and its waiters are told what they are told in
    the run. -/
theorem Mirrors.arrive {p : Forecast ν} {r : CacheRun ω ν} (h : s.Mirrors r.cache r.now told)
    {a : Arrival ν} {rest : List (Arrival ν)} (hr : r.cache.Expects p (a :: rest))
    (hdue : r.now ≤ a.due) :
    ∃ moves, (s.run moves).Mirrors (r.arrive a).1.cache (r.arrive a).1.now
      (told ++ toldBy (r.arrive a).2) := by
  have hpass := h.pass hdue
  have hflight : s.cache.isInFlight a.key = true := by
    rw [h.cache_eq]
    exact hr.flies a List.mem_cons_self
  -- The fetch whose end the arrival is.
  obtain ⟨f, hf, hkey⟩ := (h.single.isInFlight_iff a.key).mp hflight
  have hending : ∃ ending : Ending ν, ending.value? = a.value := by
    cases a.value with
    | some v => exact ⟨.delivered v, rfl⟩
    | none => exact ⟨.empty, rfl⟩
  obtain ⟨ending, hvalue⟩ := hending
  refine ⟨[.pass (a.due - r.now), .settle f.number ending], ?_⟩
  have hsettle := settle_of_mem hpass.numbered (f := f) hf ending
  rw [hpass.cache_eq, hpass.now_eq, hkey, hvalue] at hsettle
  refine hpass.step (.settle f.number ending) (congrArg Life.cache hsettle)
    (congrArg Life.now hsettle) ?_
  refine (told_cons (congrArg Life.history hsettle)).trans (congrArg _ ?_)
  simp [Happening.told, toldBy, CacheRun.arrive, Notice.told?, hkey, Function.comp_def]

/-- Moves one after the other are two runs. -/
theorem run_append (s : Life ω ν) (moves more : List (Move ω ν)) :
    s.run (moves ++ more) = (s.run moves).run more := List.foldl_append

/-- Flights can end one after the other as they do in the run. -/
theorem Mirrors.arriveAll {p : Forecast ν} {r : CacheRun ω ν}
    (h : s.Mirrors r.cache r.now told) {due rest : List (Arrival ν)}
    (hr : r.cache.Expects p (due ++ rest)) (hdue : ∀ a ∈ due, r.now ≤ a.due) :
    ∃ moves, (s.run moves).Mirrors (r.arriveAll due).1.cache (r.arriveAll due).1.now
      (told ++ toldBy (r.arriveAll due).2) := by
  induction due generalizing r s told with
  | nil => exact ⟨[], (List.append_nil told).symm ▸ h⟩
  | cons a due ih =>
    obtain ⟨moves, hmoves⟩ := h.arrive hr (hdue a List.mem_cons_self)
    -- The agenda is in order, so that the later arrivals are not in the past either.
    have hsorted := List.pairwise_cons.mp hr.sorted
    obtain ⟨more, hmore⟩ := ih hmoves (CacheRun.expects_arrive hr)
      fun b hb => hsorted.1 b (List.mem_append_left rest hb)
    refine ⟨moves ++ more, ?_⟩
    rw [run_append]
    show Mirrors _ _ _ (told ++ toldBy ((r.arrive a).2 ++ ((r.arrive a).1.arriveAll due).2))
    rw [toldBy_append, ← List.append_assoc]
    exact hmore

end RateCache.Life

namespace CacheRun

variable {ω ν : Type}

/-! ### Runs on a virtual clock -/

/-- No arrival of the agenda lies in the past. -/
structure OnTime (r : CacheRun ω ν) : Prop where
  expects : r.cache.Expects .unknown r.agenda
  le_due : ∀ a ∈ r.agenda, r.now ≤ a.due

/-- The clock is not set beyond the last of the flights that end. -/
theorem now_arriveAll_le {r : CacheRun ω ν} {due : List (Arrival ν)} {moment : Rat}
    (hnow : r.now ≤ moment) (hdue : ∀ a ∈ due, a.due ≤ moment) :
    (r.arriveAll due).1.now ≤ moment := by
  induction due generalizing r with
  | nil => exact hnow
  | cons a rest ih =>
    exact ih (r := (r.arrive a).1) (hdue a List.mem_cons_self) fun b hb => hdue b (.tail a hb)

/-- A flight does not end in the past. -/
theorem le_due_of_arrival? {r : CacheRun ω ν} {key : String} {d : Delivery ν} {a : Arrival ν}
    (ha : r.arrival? key d = some a) : r.now ≤ a.due := by
  obtain ⟨⟨due, value⟩, hend, rfl⟩ := Option.map_eq_some_iff.mp ha
  exact Delivery.le_of_end? hend

/-- A call brings at most one arrival, and none before now. -/
theorem OnTime.call {r : CacheRun ω ν} (h : r.OnTime) (w : ω) (key : String) (d : Delivery ν) :
    (r.call w key d).1.OnTime := by
  refine ⟨expects_call h.expects (Forecast.covers_unknown _ _ _), ?_⟩
  rcases r.call_cases w key d with ⟨v, -, hcall⟩ | ⟨f, -, -, hcall⟩ | ⟨-, -, hcall⟩ <;> rw [hcall]
  · exact h.le_due
  · exact h.le_due
  · cases ha : r.arrival? key d with
    | none => exact h.le_due
    | some a =>
      intro b hb
      rcases List.mem_cons.mp ((a.insert_perm r.agenda).mem_iff.mp hb) with rfl | hb
      · exact le_due_of_arrival? ha
      · exact h.le_due b hb

/-- What is due by a moment has arrived by then, and the rest is due later. -/
theorem OnTime.passTo {r : CacheRun ω ν} (h : r.OnTime) (moment : Rat) :
    (r.passTo moment).1.OnTime := by
  refine ⟨expects_passTo h.expects moment, ?_⟩
  intro a ha
  rw [agenda_passTo] at ha
  exact (Arrival.lt_due_of_mem_dropWhile h.expects.sorted ha).le

end CacheRun

namespace RateCache.Life

variable {ω ν : Type} [DecidableEq ω] {s : Life ω ν} {r : CacheRun ω ν}
  {told : List (ω × String × Option ν)}

/-- Time can go by as it does in the run. -/
theorem Mirrors.passTo (h : s.Mirrors r.cache r.now told) (hr : r.OnTime) {moment : Rat}
    (hle : r.now ≤ moment) :
    ∃ moves, (s.run moves).Mirrors (r.passTo moment).1.cache moment
      (told ++ toldBy (r.passTo moment).2) := by
  have hdue : ∀ a ∈ r.agenda.takeWhile (·.due ≤ moment), r.now ≤ a.due :=
    fun a ha => hr.le_due a (List.takeWhile_subset _ ha)
  have hsplit : r.cache.Expects .unknown
      (r.agenda.takeWhile (·.due ≤ moment) ++ r.agenda.dropWhile (·.due ≤ moment)) := by
    rw [List.takeWhile_append_dropWhile]
    exact hr.expects
  obtain ⟨moves, hmoves⟩ := Mirrors.arriveAll
    (r := { r with agenda := r.agenda.dropWhile (·.due ≤ moment) }) h hsplit hdue
  -- The last flight that is due ends by the moment, and the rest of the time goes by after it.
  have hlast : (r.land moment).1.now ≤ moment :=
    CacheRun.now_arriveAll_le hle fun a ha => by simpa using List.mem_takeWhile_imp ha
  refine ⟨moves ++ [.pass (moment - (r.land moment).1.now)], ?_⟩
  rw [run_append]
  exact hmoves.pass hlast

/-- **Every event can be mirrored.** -/
theorem Mirrors.event (h : s.Mirrors r.cache r.now told) (hr : r.OnTime) (e : CacheEvent ω ν) :
    (r.step e).1.OnTime ∧
      ∃ moves, (s.run moves).Mirrors (r.step e).1.cache (r.step e).1.now
        (told ++ toldBy (r.step e).2) := by
  cases e with
  | call w key d =>
    -- The clock stands still during a call.
    refine ⟨hr.call w key d, [.call w key], ?_⟩
    have hnow : (r.call w key d).1.now = r.now := by
      rcases r.call_cases w key d with ⟨v, -, hcall⟩ | ⟨f, -, -, hcall⟩ | ⟨-, -, hcall⟩ <;>
        rw [hcall]
    show Mirrors _ _ (r.call w key d).1.now _
    rw [hnow]
    exact h.call w key d
  | cancel w =>
    refine ⟨⟨hr.expects.cancel w, hr.le_due⟩, [.cancel w], ?_⟩
    exact h.step (.cancel w) (congrArg (RateCache.cancel · w) h.cache_eq) h.now_eq
      (told_cons (x := .cancelled w) rfl)
  | clear =>
    refine ⟨⟨hr.expects.clear, hr.le_due⟩, [.clear], ?_⟩
    exact h.step .clear (congrArg RateCache.clear h.cache_eq) h.now_eq
      (told_cons (x := .cleared) rfl)
  | pass seconds => exact ⟨hr.passTo _, h.passTo hr (le_after _ _)⟩

/-- **Every run on a virtual clock is an interleaving**: some moves lead to the cache and the time
    of the run, and waiters are told the same. -/
theorem exists_moves_run (lifetime allowance : Span) (events : List (CacheEvent ω ν)) :
    ∃ moves : List (Move ω ν),
      ((start lifetime).run moves).Mirrors ((CacheRun.start lifetime allowance).run events).1.cache
        ((CacheRun.start lifetime allowance).run events).1.now
        (toldBy ((CacheRun.start lifetime allowance).run events).2.flatten) := by
  -- The induction is over the events, from any run that is mirrored.
  suffices hgeneral : ∀ (r : CacheRun ω ν) (s : Life ω ν) (told : List (ω × String × Option ν)),
      s.Mirrors r.cache r.now told → r.OnTime →
      ∃ moves, (s.run moves).Mirrors (r.run events).1.cache (r.run events).1.now
        (told ++ toldBy (r.run events).2.flatten) from
    hgeneral _ (start lifetime) [] (mirrors_start lifetime)
      ⟨.empty _ lifetime, fun a ha => absurd ha List.not_mem_nil⟩
  induction events with
  | nil =>
    intro r s told h hr
    exact ⟨[], (List.append_nil told).symm ▸ h⟩
  | cons e rest ih =>
    intro r s told h hr
    obtain ⟨hr', moves, hmoves⟩ := h.event hr e
    obtain ⟨more, hmore⟩ := ih _ _ _ hmoves hr'
    refine ⟨moves ++ more, ?_⟩
    rw [run_append]
    show Mirrors _ _ _ (told ++ toldBy ((r.step e).2 ++ ((r.step e).1.run rest).2.flatten))
    rw [toldBy_append, ← List.append_assoc]
    exact hmore

end RateCache.Life

end Reckoner
