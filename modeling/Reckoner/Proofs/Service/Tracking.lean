import Reckoner.Proofs.Service.Answers
import Reckoner.Proofs.Service.Routes

/-!
# What a job will find is settled when it begins

What the lookups of a job will find is settled in the moment it begins: by what is stored, by what
is on its way, and by what the fetches bring that it begins.  Other jobs, the passing of time,
giving up and clearing change nothing about it, and neither do the other lookups of the job.

* `Service.tableNow?`, `Service.priceNow?`, `Outlook.now` — how the lookups of a job that begins now
  will end.
* `Service.Tracks` — the invariant: what a job has found, waits for or has ended with is what an
  exact outlook says.
* `Tracks.look`, `Tracks.passTo`, `kept_tracks` — whatever happens keeps it.
* `Service.tracks_begin` — a job that begins is tracked.
* `Service.InUse`, `inUse_run` — what holds of a service with feeds after every run.
* `InUse.foretold_asked`, `InUse.isSome_asked_iff` — a job that is asked has no result but the one
  that follows from what its lookups yield, and has it exactly if all of them end.
* `Tracks.foretold_run` — nor has a job that is left to itself.
-/

namespace Reckoner

/-- What a lookup of rates yields now: a table or none, unless it never ends. -/
def Service.tableNow? (s : Service) (net : Network) (code : String) : Option (Option RateTable) :=
  s.fiat.yield? code (s.ratesFetch net code).2

/-- What a lookup of a price yields now: a price or none, unless it never ends. -/
def Service.priceNow? (s : Service) (net : Network) (code : String) : Option (Option Float) :=
  s.crypto.yield? code (s.priceFetch net code).2

/-- How the lookups of a job that begins now will end. -/
def Outlook.now (net : Network) (s : Service) : Outlook :=
  .exact (s.tableNow? net) (s.priceNow? net)

namespace Service

variable {net : Network} {o : Outlook} {jobs : List Job} {s s' : Service}
  {table : String → Option (Option RateTable)} {price : String → Option (Option Float)}
  {p : Plan} {id : Nat}

/-! ### The invariant -/

/-- What is to come for a lookup is what is said. -/
def Awaits (table : String → Option (Option RateTable)) (price : String → Option (Option Float))
    (s : Service) : Lookup → Prop
  | .rates code => s.fiat.coming? code = table code
  | .price code => s.crypto.coming? code = price code

/-- What a lookup yields is what is said. -/
def Yields (table : String → Option (Option RateTable)) (price : String → Option (Option Float))
    (net : Network) (s : Service) : Lookup → Prop
  | .rates code => s.tableNow? net code = table code
  | .price code => s.priceNow? net code = price code

/-- **A job is tracked.** It has begun; what it has found, what is to come for it, and what it has
    ended with is what an exact outlook says. -/
structure Tracks (table : String → Option (Option RateTable))
    (price : String → Option (Option Float)) (p : Plan) (id : Nat) (s : Service) : Prop where
  lt_begun : id < s.begun
  task : ∀ t, (id, t) ∈ s.tasks → t.plan = p ∧ t.found.Fit (.exact table price)
  waits : ∀ l, s.Waits id l → s.Awaits table price l
  finished : ∀ r, (id, r) ∈ s.finished → p.Foretold (.exact table price) r

/-- Telling the tasks keeps a job tracked, if what it is told is what is said. -/
theorem Tracks.tell {ν : Type} {find : Task → String → Option ν → Task} {kind : String → Lookup}
    (h : s.Tracks table price p id) (L : Ledger find kind) (hbegun : s'.begun = s.begun)
    (hfinished : s'.finished = s.finished) (htasks : s'.tasks = s.tasks) (request : Request)
    {notices : List (Notice Nat ν)}
    (hfit : ∀ key v, Notice.told id key v ∈ notices →
      ∀ t : Task, t.found.Fit (.exact table price) → (find t key v).found.Fit (.exact table price))
    (hwaits : ∀ l, s'.Waits id l → s'.Awaits table price l) :
    (s'.tell find request notices).Tracks table price p id where
  lt_begun := hbegun ▸ h.lt_begun
  task t' ht' := by
    obtain ⟨⟨i, t⟩, ht, heq⟩ := List.mem_map.mp ht'
    cases heq
    obtain ⟨hplan, hfound⟩ := h.task t (htasks ▸ ht)
    exact ⟨(L.plan_hear id notices t).trans hplan,
      Ledger.hear_induction (P := fun t => t.found.Fit (.exact table price))
        (fun t key v htold => hfit key v htold t) hfound⟩
  waits l hl := by
    cases l with
    | rates code => exact hwaits (.rates code) hl
    | price code => exact hwaits (.price code) hl
  finished r hr := h.finished r (hfinished ▸ hr)

/-- A task that is finished has the result that follows from what it has found. -/
theorem Tracks.collect (h : s.Tracks table price p id) :
    s.collect.Tracks table price p id where
  lt_begun := h.lt_begun
  task t ht := h.task t (List.mem_of_mem_filter ht)
  waits := h.waits
  finished r hr := by
    rcases List.mem_append.mp hr with hr | hr
    · exact h.finished r hr
    · obtain ⟨⟨i, t⟩, ht, heq⟩ := List.mem_map.mp hr
      cases heq
      obtain ⟨ht, hcomplete⟩ := List.mem_filter.mp ht
      obtain ⟨rfl, hfound⟩ := h.task t ht
      exact ⟨t.found, hfound, t.isComplete_iff.mp hcomplete, rfl⟩

/-! ### Looking something up -/

/-- **A lookup keeps a job tracked**: one of another job in any case, and one of its own if it
    yields what is said. -/
theorem Tracks.look (h : s.Tracks table price p id) (hs : s.Keeps net o) (w : Nat) (l : Lookup)
    (hown : w = id → s.Yields table price net l) :
    (Service.look net w s l).Tracks table price p id := by
  cases l with
  | rates code =>
    rw [look_rates]
    refine h.tell Ledger.tables (by rfl) (by rfl) (by rfl) _ ?_ ?_
    · intro key v htold t ht
      obtain ⟨rfl, rfl, hyield⟩ := CacheRun.yield?_of_told_call htold
      exact fit_findTable ((hown rfl).symm.trans hyield) ht
    · -- The caller of this lookup waits for what is to come, and the others wait as they did.
      rintro (other | other) hwaits
      · rcases CacheRun.waits_of_call hwaits with ⟨rfl, rfl, hpeek⟩ | hwaits
        · exact (CacheRun.coming?_call hs.fiat hpeek _ _).trans (hown rfl)
        · exact (CacheRun.coming?_call_of_isInFlight hwaits.isInFlight).trans
            (h.waits (.rates other) hwaits)
      · exact h.waits (.price other) hwaits
  | price code =>
    rw [look_price]
    refine h.tell Ledger.prices (by rfl) (by rfl) (by rfl) _ ?_ ?_
    · intro key v htold t ht
      obtain ⟨rfl, rfl, hyield⟩ := CacheRun.yield?_of_told_call htold
      exact fit_findPrice ((hown rfl).symm.trans hyield) ht
    · rintro (other | other) hwaits
      · exact h.waits (.rates other) hwaits
      · rcases CacheRun.waits_of_call hwaits with ⟨rfl, rfl, hpeek⟩ | hwaits
        · exact (CacheRun.coming?_call hs.crypto hpeek _ _).trans (hown rfl)
        · exact (CacheRun.coming?_call_of_isInFlight hwaits.isInFlight).trans
            (h.waits (.price other) hwaits)

/-- The lookups of another job keep a job tracked. -/
theorem Tracks.foldl_look (h : s.Tracks table price p id) (hs : s.Keeps net o) {w : Nat}
    (hw : w ≠ id) (ls : List Lookup) :
    (ls.foldl (Service.look net w) s).Tracks table price p id := by
  induction ls generalizing s with
  | nil => exact h
  | cons l rest ih => exact ih (h.look hs w l fun heq => absurd heq hw) (hs.look w l)

/-- **Another job that begins** keeps a job tracked: its lookups join the fetches that are under
    way. -/
theorem Tracks.begin (h : s.Tracks table price p id) (hs : s.Keeps net o) (job : Job) :
    (s.begin net job).Tracks table price p id := by
  have hopened : (s.opened job.plan).Tracks table price p id :=
    { lt_begun := h.lt_begun.trans (Nat.lt_succ_self _)
      task := fun t ht => by
        rcases List.mem_append.mp ht with ht | ht
        · exact h.task t ht
        · -- The job that begins has another number.
          cases List.mem_singleton.mp ht
          exact absurd h.lt_begun (Nat.lt_irrefl _)
      waits := h.waits
      finished := h.finished }
  have hkeeps : (s.opened job.plan).Keeps net o := { hs with }
  rw [begin_eq]
  exact (hopened.foldl_look hkeeps h.lt_begun.ne' _).collect

/-! ### Time that goes by, giving up and clearing -/

/-- Tables that arrive are those that were to come. -/
theorem Tracks.landTables (h : s.Tracks table price p id) (hs : s.Keeps net o) (moment : Rat) :
    (s.landTables moment).Tracks table price p id := by
  refine h.tell Ledger.tables (by rfl) (by rfl) (by rfl) _ ?_ ?_
  · intro key v htold t ht
    obtain ⟨hwaits, hcoming⟩ := CacheRun.coming?_of_told_passTo hs.fiat htold
    exact fit_findTable ((h.waits (.rates key) hwaits).symm.trans hcoming) ht
  · rintro (code | code) hwaits
    · obtain ⟨hwaits, hcoming⟩ := CacheRun.waits_of_passTo hwaits
      exact hcoming.trans (h.waits (.rates code) hwaits)
    · exact h.waits (.price code) hwaits

/-- Prices that arrive are those that were to come. -/
theorem Tracks.landPrices (h : s.Tracks table price p id) (hs : s.Keeps net o) (moment : Rat) :
    (s.landPrices moment).Tracks table price p id := by
  refine h.tell Ledger.prices (by rfl) (by rfl) (by rfl) _ ?_ ?_
  · intro key v htold t ht
    obtain ⟨hwaits, hcoming⟩ := CacheRun.coming?_of_told_passTo hs.crypto htold
    exact fit_findPrice ((h.waits (.price key) hwaits).symm.trans hcoming) ht
  · rintro (code | code) hwaits
    · exact h.waits (.rates code) hwaits
    · obtain ⟨hwaits, hcoming⟩ := CacheRun.waits_of_passTo hwaits
      exact hcoming.trans (h.waits (.price code) hwaits)

/-- **The passing of time keeps a job tracked.** -/
theorem Tracks.passTo (h : s.Tracks table price p id) (hs : s.Keeps net o) (moment : Rat) :
    (s.passTo moment).Tracks table price p id := by
  rw [passTo_eq]
  exact ((h.landTables hs moment).landPrices (hs.landTables moment) moment).collect

/-- Whoever waits after somebody has given up has waited before. -/
theorem waits_of_cancel {w : Nat} {l : Lookup} (h : (s.cancel w).Waits id l) : s.Waits id l := by
  cases l with
  | rates code => exact RateCache.Waits.of_cancel h
  | price code => exact RateCache.Waits.of_cancel h

/-- A job that is given up waits for nothing, and no other job waits for less. -/
theorem Tracks.cancel (h : s.Tracks table price p id) (w : Nat) :
    (s.cancel w).Tracks table price p id where
  lt_begun := h.lt_begun
  task t ht := h.task t (List.mem_of_mem_filter ht)
  waits l hl := by
    have hawaits := h.waits l (waits_of_cancel hl)
    cases l with
    | rates code => exact hawaits
    | price code => exact hawaits
  finished := h.finished

/-- Clearing leaves the fetches under way, and so what is to come. -/
theorem Tracks.clear (h : s.Tracks table price p id) : s.clear.Tracks table price p id where
  lt_begun := h.lt_begun
  task := h.task
  waits l hl := by
    cases l with
    | rates code => exact h.waits (.rates code) hl
    | price code => exact h.waits (.price code) hl
  finished := h.finished

/-- Caches that keep their promises go on keeping them. -/
theorem inside_keeps (net : Network) (o : Outlook) : Inside net (Keeps net o) where
  congr h hsettings hfiat hcrypto :=
    ⟨hsettings ▸ h.covers, by rw [hfiat, hsettings]; exact h.fiat_allowance,
      by rw [hcrypto, hsettings]; exact h.crypto_allowance, hfiat ▸ h.fiat, hcrypto ▸ h.crypto⟩
  look id l _ h := h.look id l
  landTables moment h := h.landTables moment
  landPrices moment h := h.landPrices moment
  cancel id h := { h with fiat := h.fiat.cancel id, crypto := h.crypto.cancel id }
  clear h := { h with fiat := h.fiat.clear, crypto := h.crypto.clear }

/-- **Whatever happens keeps a job tracked.** -/
theorem kept_tracks (net : Network) (o : Outlook) (table : String → Option (Option RateTable))
    (price : String → Option (Option Float)) (p : Plan) (id : Nat) :
    Kept net fun s => s.Keeps net o ∧ s.Tracks table price p id where
  begin s job h := ⟨(inside_keeps net o).kept.begin s job h.1, h.2.begin h.1 job⟩
  passTo s moment hle h :=
    ⟨(inside_keeps net o).kept.passTo s moment hle h.1, h.2.passTo h.1 moment⟩
  cancel _ w h := ⟨(inside_keeps net o).cancel w h.1, h.2.cancel w⟩
  clear _ h := ⟨(inside_keeps net o).clear h.1, h.2.clear⟩
  take _ _ hrest h :=
    ⟨{ h.1 with }, { h.2 with finished := fun r hr => h.2.finished r (hrest hr) }⟩
  note _ _ h := ⟨{ h.1 with }, { h.2 with }⟩

/-! ### The lookups of the job itself -/

/-- **What a lookup yields does not depend on a different one.** -/
theorem Yields.look_of_ne {fx crypto : Feed} {timeout : Float} {l l' : Lookup}
    (h : s.Yields table price net l') (hs : s.IsFed fx crypto timeout) (hl : l.IsListed)
    (hl' : l'.IsListed) (hne : l ≠ l') (w : Nat) :
    (Service.look net w s l).Yields table price net l' := by
  cases l' with
  | rates code' =>
    have hfetch := ratesFetch_look_of_ne hs net w hl hl' hne
    show CacheRun.yield? _ _ (ratesFetch _ net code').2 = _
    rw [hfetch]
    -- Another lookup may call the same cache, but for another key.
    cases l with
    | rates code =>
      rw [look_rates]
      exact (CacheRun.yield?_call_of_ne _ _ _ (fun heq => hne (by rw [heq])) _).trans h
    | price code =>
      rw [look_price]
      exact h
  | price code' =>
    have hfetch := priceFetch_look_of_ne hs net w hl hl' hne
    show CacheRun.yield? _ _ (priceFetch _ net code').2 = _
    rw [hfetch]
    cases l with
    | rates code =>
      rw [look_rates]
      exact h
    | price code =>
      rw [look_price]
      exact (CacheRun.yield?_call_of_ne _ _ _ (fun heq => hne (by rw [heq])) _).trans h

/-- The lookups of a job keep it tracked, if all of them yield what is said. -/
theorem Tracks.foldl_own {fx crypto : Feed} {timeout : Float} (h : s.Tracks table price p id)
    (hs : s.Keeps net o) (hfed : s.IsFed fx crypto timeout) {ls : List Lookup}
    (hls : ∀ l ∈ ls, l.IsListed) (hnodup : ls.Nodup)
    (hyields : ∀ l ∈ ls, s.Yields table price net l) :
    (ls.foldl (Service.look net id) s).Tracks table price p id := by
  induction ls generalizing s with
  | nil => exact h
  | cons l rest ih =>
    obtain ⟨hl, hrest⟩ := List.forall_mem_cons.mp hls
    obtain ⟨hnew, hnodup⟩ := List.nodup_cons.mp hnodup
    obtain ⟨hyield, hyields⟩ := List.forall_mem_cons.mp hyields
    refine ih (h.look hs id l fun _ => hyield) (hs.look id l)
      ((inside_isFed net fx crypto timeout).look id hl hfed) hrest hnodup fun l' hl' => ?_
    -- No lookup is made twice, so that the next one finds its own key as it was.
    have hne : l ≠ l' := by
      rintro rfl
      exact hnew hl'
    exact (hyields l' hl').look_of_ne hfed hl (hrest l' hl') hne id

/-! ### The beginning of a job -/

/-- Whoever waits for a lookup has begun. -/
def WaitersBegun (s : Service) : Prop := ∀ id l, s.Waits id l → id < s.begun

/-- Nobody but the job that looks something up begins to wait. -/
theorem waits_of_look {w : Nat} {l l' : Lookup} (h : (Service.look net w s l).Waits id l') :
    id = w ∨ s.Waits id l' := by
  cases l with
  | rates code =>
    rw [look_rates] at h
    cases l' with
    | rates other => exact (CacheRun.waits_of_call h).imp_left And.left
    | price other => exact .inr h
  | price code =>
    rw [look_price] at h
    cases l' with
    | rates other => exact .inr h
    | price other => exact (CacheRun.waits_of_call h).imp_left And.left

/-- Who waits after some lookups made them, or has waited before. -/
theorem waits_of_foldl_look {w : Nat} {ls : List Lookup} {l : Lookup}
    (h : (ls.foldl (Service.look net w) s).Waits id l) : id = w ∨ s.Waits id l := by
  induction ls generalizing s with
  | nil => exact .inr h
  | cons first rest ih => exact (ih h).elim .inl waits_of_look

/-- A lookup begins no job. -/
@[simp] theorem begun_foldl_look (w : Nat) (ls : List Lookup) (s : Service) :
    (ls.foldl (Service.look net w) s).begun = s.begun := by
  induction ls generalizing s with
  | nil => rfl
  | cons l rest ih =>
    rw [List.foldl_cons, ih]
    cases l with
    | rates code => rw [look_rates]; rfl
    | price code => rw [look_price]; rfl

/-- Whoever waits when time has gone by has waited before. -/
theorem waits_of_passTo {moment : Rat} {l : Lookup} (h : (s.passTo moment).Waits id l) :
    s.Waits id l := by
  rw [passTo_eq] at h
  cases l with
  | rates code => exact (CacheRun.waits_of_passTo h).1
  | price code => exact (CacheRun.waits_of_passTo h).1

/-- **Whoever waits has begun**, whatever happens. -/
theorem kept_waitersBegun (net : Network) : Kept net WaitersBegun where
  begin s job h id l hl := by
    have hbegun : (s.begin net job).begun = s.begun + 1 :=
      begun_foldl_look s.begun job.plan.lookups (s.opened job.plan)
    -- Who waits in the end is the new job, or waited for another one before.
    rw [hbegun]
    rw [begin_eq] at hl
    rcases waits_of_foldl_look (l := l) (by cases l <;> exact hl) with rfl | hwaits
    · exact Nat.lt_succ_self _
    · exact (h id l (by cases l <;> exact hwaits)).trans (Nat.lt_succ_self _)
  passTo s moment _ h id l hl := by
    have hbegun : (s.passTo moment).begun = s.begun := by
      rw [passTo_eq]
      rfl
    rw [hbegun]
    exact h id l (waits_of_passTo hl)
  cancel _ _ h id l hl := h id l (waits_of_cancel hl)
  clear _ h id l hl := h id l (by cases l <;> exact hl)
  take _ _ _ h id l hl := h id l (by cases l <;> exact hl)
  note _ _ h id l hl := h id l (by cases l <;> exact hl)

/-- **A job that begins is tracked**, by what its lookups yield in this moment. -/
theorem tracks_begin {fx crypto : Feed} {timeout : Float} (hs : s.Records net o jobs)
    (hfed : s.IsFed fx crypto timeout) (hwaiters : s.WaitersBegun) (job : Job) :
    (s.begin net job).Tracks (s.tableNow? net) (s.priceNow? net) job.plan s.begun := by
  have htidy := job.isTidy_plan
  have hkeeps : (s.opened job.plan).Keeps net o := { hs.toKeeps with }
  have hfed' : (s.opened job.plan).IsFed fx crypto timeout := { hfed with }
  -- Nothing has the number of the job yet but the task that is opened for it.
  have hopened : (s.opened job.plan).Tracks (s.tableNow? net) (s.priceNow? net) job.plan s.begun :=
    { lt_begun := Nat.lt_succ_self _
      task := fun t ht => by
        rcases List.mem_append.mp ht with ht | ht
        · exact absurd (hs.id_lt ht) (Nat.lt_irrefl _)
        · cases List.mem_singleton.mp ht
          exact ⟨rfl, .nil _⟩
      waits := fun l hl => by
        have hlt := hwaiters s.begun l (by cases l <;> exact hl)
        exact absurd hlt (Nat.lt_irrefl _)
      finished := fun r hr => by
        obtain ⟨old, hold, -⟩ := hs.foretold s.begun r hr
        rw [hs.begun_eq, List.getElem?_eq_none (le_refl _)] at hold
        cases hold }
  rw [begin_eq]
  refine (hopened.foldl_own hkeeps hfed' htidy.isListed htidy.nodup fun l _ => ?_).collect
  cases l <;> rfl

/-! ### Waiting for a job -/

/-- What a tracked job waits for is due at some time, if it is said to end. -/
theorem Tracks.isSome_due? (h : s.Tracks table price p id) {l : Lookup} (hwaits : s.Waits id l)
    (hends : (Outlook.exact table price).Ends l) : (s.due? l).isSome = true := by
  have hawaits := h.waits l hwaits
  cases l with
  | rates code =>
    have hcoming : (s.fiat.coming? code).isSome = true := hawaits ▸ hends
    rw [CacheRun.coming?, Option.isSome_map] at hcoming
    rwa [due?, CacheRun.due?, Option.isSome_map]
  | price code =>
    have hcoming : (s.crypto.coming? code).isSome = true := hawaits ▸ hends
    rw [CacheRun.coming?, Option.isSome_map] at hcoming
    rwa [due?, CacheRun.due?, Option.isSome_map]

/-- **Waiting for a tracked job finishes it** if all its lookups are said to end. -/
theorem Tracks.await_finishes (h : s.Tracks table price p id) (hs : s.Sound net o jobs)
    (hends : ∀ l ∈ p.lookups, (Outlook.exact table price).Ends l) :
    id ∉ (s.await id).tasks.map (·.1) := by
  refine hs.await_finishes_of_due fun t ht l hl => ?_
  have hlookup := ((mem_pending_iff t l).mp hl).1
  rw [(h.task t ht).1] at hlookup
  exact h.isSome_due? (hs.waits_of_mem_pending ht hl) (hends l hlookup)

/-- Waiting for several jobs finishes a tracked one among them. -/
theorem Tracks.foldl_await_finishes (h : s.Tracks table price p id) (hs : s.Sound net o jobs)
    (hends : ∀ l ∈ p.lookups, (Outlook.exact table price).Ends l) {ids : List Nat}
    (hid : id ∈ ids) : id ∉ (ids.foldl Service.await s).tasks.map (·.1) := by
  induction ids generalizing s with
  | nil => cases hid
  | cons first rest ih =>
    rcases List.mem_cons.mp hid with rfl | hid
    · -- It is finished now, and does not come back.
      intro hmem
      exact h.await_finishes hs hends (((hs.await id).foldl_await rest).2.2 hmem)
    · have hafter := (kept_tracks net o table price p id).await ⟨hs.toKeeps, h⟩ first
      exact ih hafter.2 (hs.await first) hid

/-! ### A service in use -/

/-- **A service in use**: what holds of a service with feeds, whatever has happened to it. -/
structure InUse (net : Network) (o : Outlook) (fx crypto : Feed) (timeout : Float)
    (jobs : List Job) (s : Service) : Prop where
  sound : s.Sound net o jobs
  fed : s.IsFed fx crypto timeout
  waiters : s.WaitersBegun
  stocked : s.IsSoundlyStocked fx

variable {fx crypto : Feed} {timeout : Float}

/-- **After every run a service is in use.** -/
theorem inUse_run (fx crypto : Feed) (f c timeout : Float) (fiatSpan cryptoSpan : Span)
    (net : Network) (events : List Event) :
    let settings := Settings.ofFeeds fx crypto f c timeout
    ((withLifetimes settings fiatSpan cryptoSpan).run net events).1.InUse net
      (.anything net settings) fx crypto timeout (events.flatMap Event.jobs) := by
  intro settings
  have hfresh : (withLifetimes settings fiatSpan cryptoSpan).WaitersBegun := by
    rintro id (code | code) ⟨flight, hflight, -⟩ <;> cases hflight
  exact ⟨(sound_withLifetimes (Outlook.covers_anything net settings) _ _).run events,
    (inside_isFed net fx crypto timeout).kept.run
      (isFed_withLifetimes fx crypto f c timeout _ _) events,
    (kept_waitersBegun net).run hfresh events,
    isSoundlyStocked_run fx crypto f c timeout fiatSpan cryptoSpan net events⟩

/-- Jobs that begin one after the other leave a service in use by all of them. -/
theorem InUse.beginAll (h : s.InUse net o fx crypto timeout jobs) (asked : List Job) :
    (s.beginAll net asked).InUse net o fx crypto timeout (jobs ++ asked) :=
  ⟨h.sound.beginAll asked, (inside_isFed net fx crypto timeout).kept.beginAll h.fed asked,
    (kept_waitersBegun net).beginAll h.waiters asked,
    (inside_isSoundlyStocked net fx).kept.beginAll h.stocked asked⟩

/-- The number of a job that begins after others. -/
theorem InUse.begun_beginAll (h : s.InUse net o fx crypto timeout jobs) (before : List Job) :
    (s.beginAll net before).begun = s.begun + before.length := by
  rw [(h.beginAll before).sound.begun_eq, List.length_append, h.sound.begun_eq]

/-- A job that is asked is tracked until it is waited for. -/
theorem InUse.tracks_asked (h : s.InUse net o fx crypto timeout jobs) (before after : List Job)
    (job : Job) :
    let now := s.beginAll net before
    let asked := (s.beginAll net (before ++ job :: after)).pass 0
    asked.Keeps net o ∧
      asked.Tracks (now.tableNow? net) (now.priceNow? net) job.plan (s.begun + before.length) := by
  intro now asked
  have hnow : now.InUse net o fx crypto timeout (jobs ++ before) := h.beginAll before
  have hbegun : s.beginAll net (before ++ job :: after) =
      (now.begin net job).beginAll net after := List.foldl_append
  have hkept := kept_tracks net o (now.tableNow? net) (now.priceNow? net) job.plan now.begun
  have htracks := tracks_begin hnow.sound.toRecords hnow.fed hnow.waiters job
  -- The job is tracked from its beginning, and what is asked after it keeps it so.
  have hafter := hkept.beginAll ⟨(hnow.sound.begin job).toKeeps, htracks⟩ after
  rw [← h.begun_beginAll before]
  show Keeps net o ((s.beginAll net _).pass 0) ∧ Tracks _ _ _ _ ((s.beginAll net _).pass 0)
  rw [hbegun]
  exact hkept.pass hafter 0

/-- **A job that is asked has no result but the one that follows** from what its lookups yield when
    it begins, whatever jobs are asked together with it. -/
theorem InUse.foretold_asked (h : s.InUse net o fx crypto timeout jobs) {before after : List Job}
    {job : Job} {r : Result}
    (hr : (s.awaitAll net (before ++ job :: after)).finished.lookup (s.begun + before.length) =
      some r) : job.plan.Foretold (.now net (s.beginAll net before)) r := by
  have hdone := (kept_tracks net o _ _ _ _).foldl_await (h.tracks_asked before after job)
    (List.range' s.begun (before ++ job :: after).length)
  exact hdone.2.finished r (mem_of_lookup_eq_some hr)

/-- **A job that is asked has a result exactly if all its lookups end.** -/
theorem InUse.isSome_asked_iff (h : s.InUse net o fx crypto timeout jobs) (before after : List Job)
    (job : Job) :
    ((s.awaitAll net (before ++ job :: after)).finished.lookup
        (s.begun + before.length)).isSome = true ↔
      ∀ l ∈ job.plan.lookups, (Outlook.now net (s.beginAll net before)).Ends l := by
  constructor
  · intro hsome
    obtain ⟨r, hr⟩ := Option.isSome_iff_exists.mp hsome
    exact (h.foretold_asked hr).ends
  · intro hends
    have hid : s.begun + before.length ∈ List.range' s.begun (before ++ job :: after).length := by
      simp
    have hpassed := (h.sound.beginAll (before ++ job :: after)).pass 0
    have htracks := (h.tracks_asked before after job).2
    exact Option.isSome_iff_exists.mpr
      (h.sound.exists_result_awaitAll hid (htracks.foldl_await_finishes hpassed hends hid))

/-! ### Jobs that are left to themselves -/

/-- What an event answers for a tracked job follows from what its lookups yield. -/
theorem Tracks.foretold_step (h : s.Keeps net o ∧ s.Tracks table price p id) {e : Event}
    {answer : Option Result} (hmem : (id, answer) ∈ (s.step net e).2) :
    ∃ r, answer = some r ∧ p.Foretold (.exact table price) r := by
  rcases List.mem_append.mp hmem with hmem | hmem
  · -- The jobs that are asked now have other numbers.
    cases e with
    | ask asked =>
      have hid := (List.mem_range'_1.mp (List.of_mem_zip hmem).1).1
      exact absurd h.2.lt_begun (Nat.not_lt.mpr hid)
    | start | cancel | pass | clear | health => cases hmem
  · obtain ⟨⟨i, r⟩, hr, heq⟩ := List.mem_map.mp hmem
    cases heq
    exact ⟨r, rfl, ((kept_tracks net o table price p id).perform h e).2.finished r hr⟩

/-- **Whatever a run answers for a job that has begun follows** from what its lookups yield. -/
theorem Tracks.foretold_run (h : s.Keeps net o ∧ s.Tracks table price p id) {events : List Event}
    {answer : Option Result} (hmem : (id, answer) ∈ (s.run net events).2) :
    ∃ r, answer = some r ∧ p.Foretold (.exact table price) r := by
  induction events generalizing s with
  | nil => cases hmem
  | cons e rest ih =>
    rcases List.mem_append.mp hmem with hmem | hmem
    · exact foretold_step h hmem
    · exact ih ((kept_tracks net o table price p id).step h e) hmem

end Service

end Reckoner
