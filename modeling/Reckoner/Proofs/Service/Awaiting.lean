import Reckoner.Proofs.Service.Soundness

/-!
# Waiting for a job

A job whose lookups are certain to end is finished by the time the last of them is due, and no job
is lost on the way.

* `isSome_lastDue?`, `exists_due_of_lastDue?` — lookups that end are due by the last of their times.
* `await_cases` — time goes by while a job is waited for, and not backwards; or nothing happens.
* `Keeps.has_land` — a task has what is due by the moment up to which time goes by.
* `Service.Accounts` — a job is not lost: it has a task or a result.
* `Sound.isComplete_land` — a task is complete when the last of its lookups is due.
* `Sound.await`, `Sound.await_finishes` — waiting for a job keeps a service sound and finishes it.
-/

namespace Reckoner.Service

variable {net : Network} {o : Outlook} {jobs : List Job} {s s' : Service}

/-! ### When lookups are due -/

/-- Each of some lookups is due by the time the last one is. -/
theorem exists_due_of_lastDue? {ls : List Lookup} {moment : Rat}
    (h : s.lastDue? ls = some moment) {l : Lookup} (hl : l ∈ ls) :
    ∃ due, s.due? l = some due ∧ due ≤ moment := by
  induction ls generalizing moment with
  | nil => cases hl
  | cons first rest ih =>
    obtain ⟨due, hdue, h⟩ := Option.bind_eq_some_iff.mp h
    obtain ⟨last, hlast, h⟩ := Option.bind_eq_some_iff.mp h
    cases h
    rcases List.mem_cons.mp hl with rfl | hl
    · exact ⟨due, hdue, le_later_left due last⟩
    · obtain ⟨d, hd, hle⟩ := ih hlast hl
      exact ⟨d, hd, hle.trans (le_later_right due last)⟩

/-- The last of the times at which lookups are due does not lie in the past. -/
theorem now_le_of_lastDue? {ls : List Lookup} {moment : Rat} (h : s.lastDue? ls = some moment) :
    s.now ≤ moment := by
  induction ls generalizing moment with
  | nil => exact (Option.some.inj h).le
  | cons first rest ih =>
    obtain ⟨due, -, h⟩ := Option.bind_eq_some_iff.mp h
    obtain ⟨last, hlast, h⟩ := Option.bind_eq_some_iff.mp h
    exact ((ih hlast).trans (le_later_right due last)).trans_eq (Option.some.inj h)

/-- If each of some lookups is due at some time, there is a last time. -/
theorem isSome_lastDue? {ls : List Lookup} (h : ∀ l ∈ ls, (s.due? l).isSome = true) :
    (s.lastDue? ls).isSome = true := by
  induction ls with
  | nil => rfl
  | cons first rest ih =>
    obtain ⟨due, hdue⟩ := Option.isSome_iff_exists.mp (h first List.mem_cons_self)
    obtain ⟨last, hlast⟩ := Option.isSome_iff_exists.mp (ih fun l hl => h l (.tail first hl))
    simp [lastDue?, hdue, hlast]

/-- A lookup that a job waits for and that is certain to end is due at some time. -/
theorem Keeps.isSome_due? (h : s.Keeps net o) {id : Nat} {l : Lookup} (hwaits : s.Waits id l)
    (hends : o.Ends l) : (s.due? l).isSome = true := by
  cases l with
  | rates code => exact CacheRun.isSome_due? h.fiat hwaits hends
  | price code => exact CacheRun.isSome_due? h.crypto hwaits hends

/-- **A task has what is due** by the moment up to which time goes by. -/
theorem Keeps.has_land (h : s.Keeps net o) {id : Nat} {t : Task} {moment : Rat}
    (ht : (id, t) ∈ ((s.landTables moment).landPrices moment).tasks) {l : Lookup}
    (hwaits : s.Waits id l) {due : Rat} (hdue : s.due? l = some due) (hle : due ≤ moment) :
    t.found.has l = true := by
  have hkeeps := h.landTables moment
  cases l with
  | rates code =>
    -- It is told the table first, and keeps it when prices arrive.
    obtain ⟨t', ht', hfollows⟩ := (hkeeps.advances_landPrices moment).task id t ht
    obtain ⟨⟨i, t₀⟩, -, heq⟩ := List.mem_map.mp ht'
    cases heq
    obtain ⟨v, htold⟩ := CacheRun.told_passTo_of_due h.fiat hwaits hdue hle
    exact hfollows.has (.rates code) (Ledger.tables.has_hear t₀ htold)
  | price code =>
    obtain ⟨⟨i, t₀⟩, -, heq⟩ := List.mem_map.mp ht
    cases heq
    obtain ⟨v, htold⟩ := CacheRun.told_passTo_of_due h.crypto hwaits hdue hle
    exact Ledger.prices.has_hear t₀ htold

/-! ### No job is lost -/

/-- The job with a number has a task or a result. -/
def Accounts (s : Service) (id : Nat) : Prop :=
  id ∈ s.tasks.map (·.1) ∨ id ∈ s.finished.map (·.1)

theorem Accounts.advance {id : Nat} (h : s.Accounts id) (hs : s.Advances o s') :
    s'.Accounts id := by
  unfold Accounts
  rw [hs.ids_eq, hs.finished_eq]
  exact h

/-- A task that is finished has a result. -/
theorem Accounts.collect {id : Nat} (h : s.Accounts id) : s.collect.Accounts id := by
  rcases h with htask | hfinished
  · obtain ⟨⟨i, t⟩, ht, rfl⟩ := List.mem_map.mp htask
    by_cases hcomplete : t.isComplete = true
    · have hmem : (i, t.plan.result t.found) ∈ s.collect.finished :=
        List.mem_append_right _ (List.mem_map.mpr
          ⟨(i, t), List.mem_filter.mpr ⟨ht, hcomplete⟩, rfl⟩)
      exact .inr (List.mem_map_of_mem hmem)
    · have hmem : (i, t) ∈ s.collect.tasks :=
        List.mem_filter.mpr ⟨ht, by simpa using hcomplete⟩
      exact .inl (List.mem_map_of_mem hmem)
  · unfold Service.collect Accounts
    rw [List.map_append]
    exact .inr (List.mem_append_left _ hfinished)

theorem Accounts.passTo {id : Nat} (h : s.Accounts id) (hs : s.Keeps net o) (moment : Rat) :
    (s.passTo moment).Accounts id := by
  rw [passTo_eq]
  have htables := h.advance (hs.advances_landTables moment)
  exact (htables.advance ((hs.landTables moment).advances_landPrices moment)).collect

theorem Accounts.begin {id : Nat} (h : s.Accounts id) (hs : s.Sound net o jobs) (job : Job) :
    (s.begin net job).Accounts id := by
  obtain ⟨-, hadvances, -⟩ :=
    (hs.toRecords.opened job).toKeeps.look_all s.begun job.plan.lookups
  have hopened : (s.opened job.plan).Accounts id := by
    unfold opened Accounts
    rw [List.map_append]
    exact h.imp_left (List.mem_append_left _)
  exact (hopened.advance hadvances).collect

/-- The job that begins has a task or a result. -/
theorem Sound.accounts_begin (h : s.Sound net o jobs) (job : Job) :
    (s.begin net job).Accounts s.begun := by
  obtain ⟨-, hadvances, -⟩ :=
    (h.toRecords.opened job).toKeeps.look_all s.begun job.plan.lookups
  have hopened : (s.opened job.plan).Accounts s.begun := by
    unfold opened Accounts
    rw [List.map_append]
    exact .inl (List.mem_append_right _ (List.mem_singleton_self _))
  exact (hopened.advance hadvances).collect

/-! ### Waiting for a job -/

theorem Sound.pass (h : s.Sound net o jobs) (seconds : Rat) :
    (s.pass seconds).Sound net o jobs := h.passTo _

/-- What waiting for a job comes to: time goes by, or nothing happens. -/
theorem await_cases (s : Service) (id : Nat) :
    s.await id = s ∨ ∃ moment, s.now ≤ moment ∧ s.await id = s.passTo moment := by
  unfold Service.await
  split
  · exact .inl rfl
  · split
    · next moment hmoment => exact .inr ⟨moment, now_le_of_lastDue? hmoment, rfl⟩
    · exact .inl rfl

/-- **Waiting for a job keeps a service sound.** -/
theorem Sound.await (h : s.Sound net o jobs) (id : Nat) : (s.await id).Sound net o jobs := by
  rcases s.await_cases id with heq | ⟨moment, -, heq⟩ <;> rw [heq]
  · exact h
  · exact h.passTo moment

theorem Accounts.await {id : Nat} (h : s.Accounts id) (hs : s.Keeps net o) (other : Nat) :
    (s.await other).Accounts id := by
  rcases s.await_cases other with heq | ⟨moment, -, heq⟩ <;> rw [heq]
  · exact h
  · exact h.passTo hs moment

/-- No task appears when time goes by. -/
theorem Keeps.ids_passTo (h : s.Keeps net o) (moment : Rat) :
    (s.passTo moment).tasks.map (·.1) ⊆ s.tasks.map (·.1) := by
  rw [passTo_eq, ← (h.advances_landTables moment).ids_eq,
    ← ((h.landTables moment).advances_landPrices moment).ids_eq]
  exact (List.filter_sublist.map _).subset

/-- No task appears while a job is waited for. -/
theorem Keeps.ids_await (h : s.Keeps net o) (id : Nat) :
    (s.await id).tasks.map (·.1) ⊆ s.tasks.map (·.1) := by
  rcases s.await_cases id with heq | ⟨moment, -, heq⟩ <;> rw [heq]
  · exact List.Subset.refl _
  · exact h.ids_passTo moment

/-- Two tasks with one number are one task. -/
theorem Records.task_unique (h : s.Records net o jobs) {id : Nat} {t t' : Task}
    (ht : (id, t) ∈ s.tasks) (ht' : (id, t') ∈ s.tasks) : t = t' := by
  have heq : (id, t) = (id, t') := List.inj_on_of_nodup_map h.ids_nodup ht ht' rfl
  cases heq
  rfl

/-- What a task has still to find. -/
def pending (t : Task) : List Lookup := t.plan.lookups.filter fun l => !t.found.has l

theorem mem_pending_iff (t : Task) (l : Lookup) :
    l ∈ pending t ↔ l ∈ t.plan.lookups ∧ t.found.has l = false := by
  simp [pending]

/-- A job waits for what its task has still to find. -/
theorem Sound.waits_of_mem_pending (h : s.Sound net o jobs) {id : Nat} {t : Task}
    (ht : (id, t) ∈ s.tasks) {l : Lookup} (hl : l ∈ pending t) : s.Waits id l := by
  obtain ⟨hlookup, hhas⟩ := (mem_pending_iff t l).mp hl
  exact (h.minds id t ht l hlookup).resolve_left (by simp [hhas])

/-- **A task is complete** when time has gone by until the last of its lookups is due. -/
theorem Sound.isComplete_land (h : s.Sound net o jobs) {id : Nat} {t t' : Task} {moment : Rat}
    (ht : (id, t) ∈ s.tasks) (hmoment : s.lastDue? (pending t) = some moment)
    (ht' : (id, t') ∈ ((s.landTables moment).landPrices moment).tasks) :
    t'.isComplete = true := by
  have hadvances := (h.toKeeps.advances_landTables moment).trans
    ((h.toKeeps.landTables moment).advances_landPrices moment)
  obtain ⟨before, hbefore, hfollows⟩ := hadvances.task id t' ht'
  -- There is only one task that it can have been.
  obtain rfl := h.toRecords.task_unique ht hbefore
  rw [Task.isComplete_iff, hfollows.plan_eq]
  intro l hl
  cases hhas : t.found.has l with
  | true => exact hfollows.has l hhas
  | false =>
    have hpending : l ∈ pending t := (mem_pending_iff t l).mpr ⟨hl, hhas⟩
    obtain ⟨due, hdue, hle⟩ := exists_due_of_lastDue? hmoment hpending
    exact h.toKeeps.has_land ht' (h.waits_of_mem_pending ht hpending) hdue hle

/-- **Waiting for a job finishes it** if all that it has still to find is due at some time. -/
theorem Sound.await_finishes_of_due (h : s.Sound net o jobs) {id : Nat}
    (hdue : ∀ t, (id, t) ∈ s.tasks → ∀ l ∈ pending t, (s.due? l).isSome = true) :
    id ∉ (s.await id).tasks.map (·.1) := by
  cases hlookup : s.tasks.lookup id with
  | none =>
    have hawait : s.await id = s := by simp only [Service.await, hlookup]
    rw [hawait]
    intro hmem
    obtain ⟨⟨i, t⟩, ht, rfl⟩ := List.mem_map.mp hmem
    have hne := List.lookup_eq_none_iff.mp hlookup (i, t) ht
    simp at hne
  | some t =>
    have ht := mem_of_lookup_eq_some hlookup
    obtain ⟨moment, hmoment⟩ := Option.isSome_iff_exists.mp (isSome_lastDue? (hdue t ht))
    have hawait : s.await id = s.passTo moment := by
      unfold pending at hmoment
      simp only [Service.await, hlookup, hmoment]
    rw [hawait, passTo_eq]
    intro hmem
    obtain ⟨⟨i, t'⟩, ht', rfl⟩ := List.mem_map.mp hmem
    -- A complete task is not left over.
    obtain ⟨ht', hincomplete⟩ := List.mem_filter.mp ht'
    simp [h.isComplete_land ht hmoment ht'] at hincomplete

/-- **Waiting for a job finishes it** if all its lookups are certain to end. -/
theorem Sound.await_finishes (h : s.Sound net o jobs) {id : Nat} {job : Job}
    (hjob : jobs[id]? = some job) (hends : ∀ l ∈ job.plan.lookups, o.Ends l) :
    id ∉ (s.await id).tasks.map (·.1) := by
  refine h.await_finishes_of_due fun t ht l hl => ?_
  obtain ⟨job', hjob', hplan⟩ := h.planned id t ht
  cases hjob.symm.trans hjob'
  have hlookup := ((mem_pending_iff t l).mp hl).1
  exact h.toKeeps.isSome_due? (h.waits_of_mem_pending ht hl) (hends l (hplan ▸ hlookup))

end Reckoner.Service
