import Reckoner.Proofs.Service.Notices

/-!
# Sound services

A service that works over a network of which an outlook is known finishes its jobs with results that
the outlook says.  Every job that is not finished has what it looks for or waits for it, so that
nothing that it needs can pass it by.

* `Outlook.Covers` — every fetch over a network does what an outlook says.
* `Service.Keeps` — the caches and their agendas keep their promises.
* `Service.Records` — the tasks are those of the jobs that have begun, and what they have found and
  what is finished is what the outlook says.
* `Service.Sound` — the invariant: besides, every task minds its lookups.
* `Sound.begin`, `Sound.passTo`, `Sound.cancel`, `Sound.clear` — what a service does keeps it.
-/

namespace Reckoner

/-- Every fetch over a network does what an outlook says. -/
def Outlook.Covers (o : Outlook) (net : Network) (settings : Settings) : Prop :=
  ∀ s : Service, s.settings = settings → ∀ code,
    o.tables.Covers (Span.ofFloat settings.timeout) code (s.ratesFetch net code).2 ∧
      o.prices.Covers (Span.ofFloat settings.timeout) code (s.priceFetch net code).2

/-- A task is complete if it has found all that it looks for. -/
theorem Task.isComplete_iff (t : Task) :
    t.isComplete = true ↔ ∀ l ∈ t.plan.lookups, t.found.has l = true := List.all_eq_true

namespace Service

/-! ### The invariant -/

/-- **The caches of a service keep their promises**, and the fetches that it sends will keep them
    too. -/
structure Keeps (net : Network) (o : Outlook) (s : Service) : Prop where
  covers : o.Covers net s.settings
  fiat_allowance : s.fiat.allowance = Span.ofFloat s.settings.timeout
  crypto_allowance : s.crypto.allowance = Span.ofFloat s.settings.timeout
  fiat : s.fiat.cache.Expects o.tables s.fiat.agenda
  crypto : s.crypto.cache.Expects o.prices s.crypto.agenda

/-- **What a service has on record.** The tasks are those of the jobs that have begun, each under
    the number of its job; what they have found and what is finished is what the outlook says. -/
structure Records (net : Network) (o : Outlook) (jobs : List Job) (s : Service) : Prop extends
    s.Keeps net o where
  begun_eq : s.begun = jobs.length
  ids_nodup : (s.tasks.map (·.1)).Nodup
  planned : ∀ id t, (id, t) ∈ s.tasks → ∃ job, jobs[id]? = some job ∧ t.plan = job.plan
  fit : ∀ id t, (id, t) ∈ s.tasks → t.found.Fit o
  foretold : ∀ id r, (id, r) ∈ s.finished → ∃ job, jobs[id]? = some job ∧ job.plan.Foretold o r

/-- **Sound services.** Besides what is on record, every task minds its lookups. -/
structure Sound (net : Network) (o : Outlook) (jobs : List Job) (s : Service) : Prop extends
    s.Records net o jobs where
  minds : ∀ id t, (id, t) ∈ s.tasks → ∀ l ∈ t.plan.lookups, s.Minds id t l

variable {net : Network} {o : Outlook} {jobs : List Job} {s s' : Service}

/-- A service at time zero is sound. -/
theorem sound_withLifetimes {settings : Settings} (h : o.Covers net settings) (fiat crypto : Span) :
    (withLifetimes settings fiat crypto).Sound net o [] where
  covers := h
  fiat_allowance := rfl
  crypto_allowance := rfl
  fiat := .empty o.tables fiat
  crypto := .empty o.prices crypto
  begun_eq := rfl
  ids_nodup := List.nodup_nil
  planned := by simp [withLifetimes]
  fit := by simp [withLifetimes]
  foretold := by simp [withLifetimes]
  minds := by simp [withLifetimes]

/-- What happens in the caches leaves the record in order. -/
theorem Records.advance (h : s.Records net o jobs) (hs : s.Advances o s')
    (hkeeps : s'.Keeps net o) : s'.Records net o jobs where
  toKeeps := hkeeps
  begun_eq := hs.begun_eq.trans h.begun_eq
  ids_nodup := by
    rw [hs.ids_eq]
    exact h.ids_nodup
  planned id t' ht' := by
    obtain ⟨t, ht, hfollows⟩ := hs.task id t' ht'
    obtain ⟨job, hjob, hplan⟩ := h.planned id t ht
    exact ⟨job, hjob, hfollows.plan_eq.trans hplan⟩
  fit id t' ht' := by
    obtain ⟨t, ht, hfollows⟩ := hs.task id t' ht'
    exact hfollows.fit (h.fit id t ht)
  foretold id r hr := by
    rw [hs.finished_eq] at hr
    exact h.foretold id r hr

/-- What happens in the caches keeps a service sound. -/
theorem Sound.advance (h : s.Sound net o jobs) (hs : s.Advances o s') (hkeeps : s'.Keeps net o) :
    s'.Sound net o jobs where
  toRecords := h.toRecords.advance hs hkeeps
  minds id t' ht' l hl := by
    obtain ⟨t, ht, hfollows⟩ := hs.task id t' ht'
    rw [hfollows.plan_eq] at hl
    exact hfollows.minds (h.minds id t ht l hl)

/-! ### Finishing tasks -/

/-- **Finishing complete tasks keeps a service sound**: they have found all that they look for. -/
theorem Sound.collect (h : s.Sound net o jobs) : s.collect.Sound net o jobs where
  toKeeps := { h.toKeeps with }
  begun_eq := h.begun_eq
  ids_nodup := h.ids_nodup.sublist (List.filter_sublist.map _)
  planned id t ht := h.planned id t (List.mem_of_mem_filter ht)
  fit id t ht := h.fit id t (List.mem_of_mem_filter ht)
  minds id t ht := h.minds id t (List.mem_of_mem_filter ht)
  foretold id r hr := by
    rcases List.mem_append.mp hr with hr | hr
    · exact h.foretold id r hr
    · obtain ⟨⟨i, t⟩, ht, heq⟩ := List.mem_map.mp hr
      cases heq
      obtain ⟨ht, hcomplete⟩ := List.mem_filter.mp ht
      obtain ⟨job, hjob, hplan⟩ := h.planned id t ht
      rw [Task.isComplete_iff] at hcomplete
      -- Nothing that it looks for is missing, so its result is foretold.
      refine ⟨job, hjob, t.found, h.fit id t ht, ?_, ?_⟩
      · rw [← hplan]
        exact hcomplete
      · rw [hplan]

/-! ### Looking something up -/

/-- A lookup of rates calls the cache of tables and tells the tasks what comes at once. -/
theorem look_rates (net : Network) (id : Nat) (s : Service) (code : String) :
    look net id s (.rates code) =
      tell Task.findTable (s.ratesFetch net code).1
        { s with fiat := (s.fiat.call id code (s.ratesFetch net code).2).1 }
        (s.fiat.call id code (s.ratesFetch net code).2).2 :=
  foldl_noteTable _ _ _

/-- A lookup of a price does so with the cache of prices. -/
theorem look_price (net : Network) (id : Nat) (s : Service) (code : String) :
    look net id s (.price code) =
      tell Task.findPrice (s.priceFetch net code).1
        { s with crypto := (s.crypto.call id code (s.priceFetch net code).2).1 }
        (s.crypto.call id code (s.priceFetch net code).2).2 :=
  foldl_notePrice _ _ _

/-- Looking something up keeps the promises. -/
theorem Keeps.look (h : s.Keeps net o) (id : Nat) (l : Lookup) : (look net id s l).Keeps net o := by
  cases l with
  | rates code =>
    have hcovers := (h.covers s rfl code).1
    rw [← h.fiat_allowance] at hcovers
    rw [look_rates]
    exact ⟨h.covers, (CacheRun.allowance_call _ _ _ _).trans h.fiat_allowance, h.crypto_allowance,
      CacheRun.expects_call h.fiat hcovers, h.crypto⟩
  | price code =>
    have hcovers := (h.covers s rfl code).2
    rw [← h.crypto_allowance] at hcovers
    rw [look_price]
    exact ⟨h.covers, h.fiat_allowance, (CacheRun.allowance_call _ _ _ _).trans h.crypto_allowance,
      h.fiat, CacheRun.expects_call h.crypto hcovers⟩

/-- Looking something up is an advance. -/
theorem Keeps.advances_look (h : s.Keeps net o) (id : Nat) (l : Lookup) :
    s.Advances o (Service.look net id s l) := by
  cases l with
  | rates code =>
    rw [look_rates]
    refine Ledger.tables.advances_tell (by rfl) (by rfl) (by rfl) (by rfl) _ ?_ ?_
    · intro w key v htold t
      exact fit_findTable (CacheRun.brings_of_told_call h.fiat htold)
    · -- A call for a table ends no flight, and does not touch those of prices.
      rintro i (other | other) hwaits
      · exact .inr (CacheRun.waits_call hwaits _)
      · exact .inr hwaits
  | price code =>
    rw [look_price]
    refine Ledger.prices.advances_tell (by rfl) (by rfl) (by rfl) (by rfl) _ ?_ ?_
    · intro w key v htold t
      exact fit_findPrice (CacheRun.brings_of_told_call h.crypto htold)
    · rintro i (other | other) hwaits
      · exact .inr hwaits
      · exact .inr (CacheRun.waits_call hwaits _)

/-- **Who looks something up has it or waits for it.** -/
theorem minds_look (net : Network) (id : Nat) (s : Service) (l : Lookup) {t : Task}
    (ht : (id, t) ∈ (look net id s l).tasks) : (look net id s l).Minds id t l := by
  cases l with
  | rates code =>
    rw [look_rates] at ht ⊢
    obtain ⟨⟨i, t⟩, -, heq⟩ := List.mem_map.mp ht
    cases heq
    -- Either the cache tells the task at once, or the task waits in the cache.
    rcases s.fiat.told_or_waits_call id code (s.ratesFetch net code).2 with ⟨v, htold⟩ | hwaits
    · exact .inl (Ledger.tables.has_hear t htold)
    · exact .inr hwaits
  | price code =>
    rw [look_price] at ht ⊢
    obtain ⟨⟨i, t⟩, -, heq⟩ := List.mem_map.mp ht
    cases heq
    rcases s.crypto.told_or_waits_call id code (s.priceFetch net code).2 with ⟨v, htold⟩ | hwaits
    · exact .inl (Ledger.prices.has_hear t htold)
    · exact .inr hwaits

/-- Looking several things up keeps the promises and is an advance, and who looks them up has each
    of them or waits for it. -/
theorem Keeps.look_all (h : s.Keeps net o) (id : Nat) (ls : List Lookup) :
    (ls.foldl (Service.look net id) s).Keeps net o ∧
      s.Advances o (ls.foldl (Service.look net id) s) ∧
      ∀ t, (id, t) ∈ (ls.foldl (Service.look net id) s).tasks →
        ∀ l ∈ ls, (ls.foldl (Service.look net id) s).Minds id t l := by
  induction ls generalizing s with
  | nil => exact ⟨h, .refl o s, by simp⟩
  | cons l rest ih =>
    obtain ⟨hkeeps, hadvances, hminds⟩ := ih (h.look id l)
    refine ⟨hkeeps, (h.advances_look id l).trans hadvances, ?_⟩
    intro t' ht' l' hl'
    rcases List.mem_cons.mp hl' with rfl | hl'
    · -- What it has or waits for after the first lookup, it has or waits for in the end.
      obtain ⟨t, ht, hfollows⟩ := hadvances.task id t' ht'
      exact hfollows.minds (minds_look net id s l' ht)
    · exact hminds t' ht' l' hl'

/-! ### Beginning a job -/

/-- The service after the task of a job was added. -/
def opened (s : Service) (plan : Plan) : Service :=
  { s with
    tasks := s.tasks ++ [(s.begun, ⟨plan, ⟨[], []⟩⟩)]
    begun := s.begun + 1 }

/-- A job that begins makes its lookups, and it may be complete then. -/
theorem begin_eq (s : Service) (net : Network) (job : Job) :
    s.begin net job =
      (job.plan.lookups.foldl (Service.look net s.begun) (s.opened job.plan)).collect := rfl

/-- The number of a task is below the number of jobs that have begun. -/
theorem Records.id_lt (h : s.Records net o jobs) {id : Nat} {t : Task} (ht : (id, t) ∈ s.tasks) :
    id < s.begun := by
  obtain ⟨job, hjob, -⟩ := h.planned id t ht
  rw [h.begun_eq]
  exact (List.getElem?_eq_some_iff.mp hjob).1

/-- A job keeps its number when others begin. -/
theorem getElem?_append_of_eq_some {job : Job} {id : Nat} (h : jobs[id]? = some job)
    (more : List Job) : (jobs ++ more)[id]? = some job := by
  rw [List.getElem?_append_left (List.getElem?_eq_some_iff.mp h).1]
  exact h

/-- The record of a service to which the task of a job was added. -/
theorem Records.opened (h : s.Records net o jobs) (job : Job) :
    (s.opened job.plan).Records net o (jobs ++ [job]) where
  toKeeps := { h.toKeeps with }
  begun_eq := by
    rw [List.length_append, ← h.begun_eq]
    rfl
  ids_nodup := by
    -- The number of the new job is larger than those of all tasks.
    have hnew : s.begun ∉ s.tasks.map (·.1) := by
      intro hmem
      obtain ⟨⟨id, t⟩, ht, hid⟩ := List.mem_map.mp hmem
      exact absurd hid (h.id_lt ht).ne
    unfold Service.opened
    rw [List.map_append]
    exact h.ids_nodup.append (List.nodup_singleton _) (by simpa using hnew)
  planned id t ht := by
    rcases List.mem_append.mp ht with ht | ht
    · obtain ⟨old, hold, hplan⟩ := h.planned id t ht
      exact ⟨old, getElem?_append_of_eq_some hold [job], hplan⟩
    · cases List.mem_singleton.mp ht
      refine ⟨job, ?_, rfl⟩
      rw [h.begun_eq]
      exact List.getElem?_concat_length
  fit id t ht := by
    rcases List.mem_append.mp ht with ht | ht
    · exact h.fit id t ht
    · cases List.mem_singleton.mp ht
      exact .nil o
  foretold id r hr := by
    obtain ⟨old, hold, hforetold⟩ := h.foretold id r hr
    exact ⟨old, getElem?_append_of_eq_some hold [job], hforetold⟩

/-- **Beginning a job keeps a service sound**: its task has or waits for all that it looks for. -/
theorem Sound.begin (h : s.Sound net o jobs) (job : Job) :
    (s.begin net job).Sound net o (jobs ++ [job]) := by
  have hopened := h.toRecords.opened job
  obtain ⟨hkeeps, hadvances, hminds⟩ := hopened.toKeeps.look_all s.begun job.plan.lookups
  rw [begin_eq]
  apply Sound.collect
  refine { toRecords := hopened.advance hadvances hkeeps, minds := ?_ }
  intro id t' ht' l hl
  obtain ⟨t, ht, hfollows⟩ := hadvances.task id t' ht'
  rw [hfollows.plan_eq] at hl
  rcases List.mem_append.mp ht with ht | ht
  · exact hfollows.minds (h.minds id t ht l hl)
  · -- The task of the job itself, which has looked everything up just now.
    cases List.mem_singleton.mp ht
    exact hminds t' ht' l hl

/-! ### Time that goes by -/

/-- The service when time has gone by for the cache of rate tables. -/
def landTables (s : Service) (moment : Rat) : Service :=
  tell Task.findTable noRequest { s with fiat := (s.fiat.passTo moment).1 }
    (s.fiat.passTo moment).2

/-- The service when time has gone by for the cache of prices. -/
def landPrices (s : Service) (moment : Rat) : Service :=
  tell Task.findPrice noRequest { s with crypto := (s.crypto.passTo moment).1 }
    (s.crypto.passTo moment).2

/-- Time goes by for the one cache and then for the other one. -/
theorem passTo_eq (s : Service) (moment : Rat) :
    s.passTo moment = ((s.landTables moment).landPrices moment).collect := by
  show collect (List.foldl _ (List.foldl _ _ _) _) = _
  rw [foldl_noteTable, foldl_notePrice]
  rfl

/-- Tables that arrive keep the promises. -/
theorem Keeps.landTables (h : s.Keeps net o) (moment : Rat) :
    (s.landTables moment).Keeps net o :=
  ⟨h.covers, (CacheRun.allowance_passTo _ _).trans h.fiat_allowance, h.crypto_allowance,
    CacheRun.expects_passTo h.fiat moment, h.crypto⟩

/-- So do prices. -/
theorem Keeps.landPrices (h : s.Keeps net o) (moment : Rat) :
    (s.landPrices moment).Keeps net o :=
  ⟨h.covers, h.fiat_allowance, (CacheRun.allowance_passTo _ _).trans h.crypto_allowance, h.fiat,
    CacheRun.expects_passTo h.crypto moment⟩

/-- **Tables that arrive advance the tasks** that wait for them. -/
theorem Keeps.advances_landTables (h : s.Keeps net o) (moment : Rat) :
    s.Advances o (s.landTables moment) := by
  refine Ledger.tables.advances_tell (by rfl) (by rfl) (by rfl) (by rfl) _ ?_ ?_
  · intro w key v htold t
    exact fit_findTable (CacheRun.brings_of_told_passTo h.fiat htold)
  · rintro i (code | code) hwaits
    · rcases CacheRun.told_or_waits_passTo hwaits moment with ⟨v, htold⟩ | hwaits
      · exact .inl ⟨code, v, rfl, htold⟩
      · exact .inr hwaits
    · exact .inr hwaits

/-- **So do prices.** -/
theorem Keeps.advances_landPrices (h : s.Keeps net o) (moment : Rat) :
    s.Advances o (s.landPrices moment) := by
  refine Ledger.prices.advances_tell (by rfl) (by rfl) (by rfl) (by rfl) _ ?_ ?_
  · intro w key v htold t
    exact fit_findPrice (CacheRun.brings_of_told_passTo h.crypto htold)
  · rintro i (code | code) hwaits
    · exact .inr hwaits
    · rcases CacheRun.told_or_waits_passTo hwaits moment with ⟨v, htold⟩ | hwaits
      · exact .inl ⟨code, v, rfl, htold⟩
      · exact .inr hwaits

/-- **The passing of time keeps a service sound.** -/
theorem Sound.passTo (h : s.Sound net o jobs) (moment : Rat) :
    (s.passTo moment).Sound net o jobs := by
  rw [passTo_eq]
  apply Sound.collect
  have htables := h.advance (h.advances_landTables moment) (h.toKeeps.landTables moment)
  exact htables.advance (htables.advances_landPrices moment) (htables.toKeeps.landPrices moment)

/-! ### Giving up and clearing -/

/-- **Giving a job up keeps a service sound**: the other tasks go on waiting. -/
theorem Sound.cancel (h : s.Sound net o jobs) (id : Nat) : (s.cancel id).Sound net o jobs where
  toKeeps := { h.toKeeps with fiat := h.fiat.cancel id, crypto := h.crypto.cancel id }
  begun_eq := h.begun_eq
  ids_nodup := h.ids_nodup.sublist (List.filter_sublist.map _)
  planned i t ht := h.planned i t (List.mem_of_mem_filter ht)
  fit i t ht := h.fit i t (List.mem_of_mem_filter ht)
  foretold := h.foretold
  minds i t ht l hl := by
    obtain ⟨ht, hne⟩ := List.mem_filter.mp ht
    have hne : i ≠ id := by simpa using hne
    rcases h.minds i t ht l hl with hhas | hwaits
    · exact .inl hhas
    · cases l with
      | rates code => exact .inr (RateCache.Waits.cancel hwaits hne)
      | price code => exact .inr (RateCache.Waits.cancel hwaits hne)

/-- **Emptying the caches keeps a service sound**: flights go on. -/
theorem Sound.clear (h : s.Sound net o jobs) : s.clear.Sound net o jobs where
  toRecords := { h.toRecords with fiat := h.fiat.clear, crypto := h.crypto.clear }
  minds i t ht l hl := by
    rcases h.minds i t ht l hl with hhas | hwaits
    · exact .inl hhas
    · cases l with
      | rates code => exact .inr hwaits
      | price code => exact .inr hwaits

/-- Results may be taken from a sound service. -/
theorem Sound.take_results (h : s.Sound net o jobs) {rest : List (Nat × Result)}
    (hrest : rest ⊆ s.finished) : { s with finished := rest }.Sound net o jobs :=
  { h with foretold := fun id r hr => h.foretold id r (hrest hr) }

/-- What was sent does not matter to a sound service. -/
theorem Sound.note_sent (h : s.Sound net o jobs) (sent : List Request) :
    { s with sent := sent }.Sound net o jobs :=
  { h with }

end Service

end Reckoner
