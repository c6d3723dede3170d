import Reckoner.Proofs.Service.Awaiting

/-!
# Asking jobs

Jobs that are asked begin side by side and are waited for one after the other.  Whatever the service
has done before, each of them gets a result that the outlook says, and gets one if its lookups are
certain to end.

* `Service.beginAll`, `Service.awaitAll` — several jobs begin; several jobs are waited for.
* `Sound.askAll` — asking several jobs keeps a service sound.
* `Sound.foretold_awaitAll`, `Sound.answered_awaitAll` — the results are what the outlook says, and
  there is one for each job whose lookups all end.
* `Sound.ask_eq_some_iff`, `Sound.isSome_ask_iff` — over an exact outlook, asking one job gives
  exactly what it says, and gives something exactly if all lookups end.
-/

namespace Reckoner.Service

variable {net : Network} {o : Outlook} {jobs : List Job} {s : Service}

/-! ### Asking several jobs side by side -/

/-- Several jobs begin. -/
def beginAll (s : Service) (net : Network) (asked : List Job) : Service :=
  asked.foldl (fun s job => s.begin net job) s

/-- Several jobs have begun and were waited for. -/
def awaitAll (s : Service) (net : Network) (asked : List Job) : Service :=
  (List.range' s.begun asked.length).foldl Service.await ((s.beginAll net asked).pass 0)

theorem askAll_eq (s : Service) (net : Network) (asked : List Job) :
    s.askAll net asked =
      ({ s.awaitAll net asked with
          finished := (s.awaitAll net asked).finished.filter fun (id, _) =>
            !(List.range' s.begun asked.length).contains id },
        (List.range' s.begun asked.length).map fun id =>
          (s.awaitAll net asked).finished.lookup id) := rfl

theorem Sound.beginAll (h : s.Sound net o jobs) (asked : List Job) :
    (s.beginAll net asked).Sound net o (jobs ++ asked) := by
  induction asked generalizing s jobs with
  | nil =>
    rw [List.append_nil]
    exact h
  | cons job rest ih =>
    rw [← List.singleton_append, ← List.append_assoc]
    exact ih (h.begin job)

theorem Accounts.beginAll {id : Nat} (h : s.Accounts id) (hs : s.Sound net o jobs)
    (asked : List Job) : (s.beginAll net asked).Accounts id := by
  induction asked generalizing s jobs with
  | nil => exact h
  | cons job rest ih => exact ih (h.begin hs job) (hs.begin job)

/-- Every one of several jobs that begin has a task or a result. -/
theorem Sound.accounts_beginAll (h : s.Sound net o jobs) {asked : List Job} {id : Nat}
    (hid : id ∈ List.range' s.begun asked.length) : (s.beginAll net asked).Accounts id := by
  induction asked generalizing s jobs with
  | nil => simp at hid
  | cons job rest ih =>
    have hbegun : (s.begin net job).begun = s.begun + 1 := by
      rw [(h.begin job).begun_eq, List.length_append, h.begun_eq]
      rfl
    rw [List.length_cons, List.range'_succ, List.mem_cons] at hid
    rcases hid with rfl | hid
    · exact (h.accounts_begin job).beginAll (h.begin job) rest
    · rw [← hbegun] at hid
      exact ih (h.begin job) hid

/-- Waiting for several jobs keeps a service sound, loses no job and makes no task appear. -/
theorem Sound.foldl_await (h : s.Sound net o jobs) (ids : List Nat) :
    (ids.foldl Service.await s).Sound net o jobs ∧
      (∀ id, s.Accounts id → (ids.foldl Service.await s).Accounts id) ∧
      (ids.foldl Service.await s).tasks.map (·.1) ⊆ s.tasks.map (·.1) := by
  induction ids generalizing s with
  | nil => exact ⟨h, fun _ hid => hid, List.Subset.refl _⟩
  | cons first rest ih =>
    obtain ⟨hsound, haccounts, hids⟩ := ih (h.await first)
    exact ⟨hsound, fun id hid => haccounts id (hid.await h.toKeeps first),
      List.Subset.trans hids (h.toKeeps.ids_await first)⟩

/-- Waiting for several jobs finishes each of them whose lookups all end. -/
theorem Sound.foldl_await_finishes (h : s.Sound net o jobs) {ids : List Nat} {id : Nat}
    (hid : id ∈ ids) {job : Job} (hjob : jobs[id]? = some job)
    (hends : ∀ l ∈ job.plan.lookups, o.Ends l) :
    id ∉ (ids.foldl Service.await s).tasks.map (·.1) := by
  induction ids generalizing s with
  | nil => cases hid
  | cons first rest ih =>
    rcases List.mem_cons.mp hid with rfl | hid
    · -- It is finished now, and does not come back.
      intro hmem
      exact h.await_finishes hjob hends (((h.await id).foldl_await rest).2.2 hmem)
    · exact ih (h.await first) hid

theorem Sound.awaitAll (h : s.Sound net o jobs) (asked : List Job) :
    (s.awaitAll net asked).Sound net o (jobs ++ asked) :=
  (((h.beginAll asked).pass 0).foldl_await _).1

/-- **Asking several jobs keeps a service sound.** -/
theorem Sound.askAll (h : s.Sound net o jobs) (asked : List Job) :
    (s.askAll net asked).1.Sound net o (jobs ++ asked) :=
  (h.awaitAll asked).take_results fun _ => List.mem_of_mem_filter

/-- A result of a job that was asked is one that the outlook says. -/
theorem Sound.foretold_awaitAll (h : s.Sound net o jobs) {asked : List Job} {id : Nat} {r : Result}
    (hr : (s.awaitAll net asked).finished.lookup id = some r) :
    ∃ job, (jobs ++ asked)[id]? = some job ∧ job.plan.Foretold o r := by
  apply (h.awaitAll asked).foretold id r
  exact mem_of_lookup_eq_some hr

/-- A job that was asked and of which no task is left has a result. -/
theorem Sound.exists_result_awaitAll (h : s.Sound net o jobs) {asked : List Job} {id : Nat}
    (hid : id ∈ List.range' s.begun asked.length)
    (hgone : id ∉ (s.awaitAll net asked).tasks.map (·.1)) :
    ∃ r, (s.awaitAll net asked).finished.lookup id = some r := by
  have hbegun := h.beginAll asked
  -- The job is not lost, so that it has a result.
  have haccounts : (s.awaitAll net asked).Accounts id :=
    ((hbegun.pass 0).foldl_await _).2.1 id ((h.accounts_beginAll hid).passTo hbegun.toKeeps _)
  obtain ⟨⟨i, r⟩, hr, rfl⟩ := List.mem_map.mp (haccounts.resolve_left hgone)
  cases hlookup : (s.awaitAll net asked).finished.lookup i with
  | some r => exact ⟨r, rfl⟩
  | none =>
    have hne := List.lookup_eq_none_iff.mp hlookup (i, r) hr
    simp at hne

/-- **A job that was asked has a result** if all its lookups are certain to end. -/
theorem Sound.answered_awaitAll (h : s.Sound net o jobs) {asked : List Job} {id : Nat}
    (hid : id ∈ List.range' s.begun asked.length) {job : Job}
    (hjob : (jobs ++ asked)[id]? = some job) (hends : ∀ l ∈ job.plan.lookups, o.Ends l) :
    ∃ r, (s.awaitAll net asked).finished.lookup id = some r := by
  have hpassed := (h.beginAll asked).pass 0
  exact h.exists_result_awaitAll hid (hpassed.foldl_await_finishes hid hjob hends)

/-! ### Asking over an exact outlook -/

variable {table : String → Option (Option RateTable)} {price : String → Option (Option Float)}

/-- **Over an exact outlook a job has exactly the result that the outlook says**, whatever has gone
    before. -/
theorem Sound.lookup_awaitAll_eq_some_iff (h : s.Sound net (.exact table price) jobs)
    {asked : List Job} {id : Nat} (hid : id ∈ List.range' s.begun asked.length) {job : Job}
    (hjob : (jobs ++ asked)[id]? = some job) (r : Result) :
    (s.awaitAll net asked).finished.lookup id = some r ↔
      job.plan.Foretold (.exact table price) r := by
  constructor
  · intro hr
    obtain ⟨job', hjob', hforetold⟩ := h.foretold_awaitAll hr
    cases hjob.symm.trans hjob'
    exact hforetold
  · intro hforetold
    obtain ⟨r', hr'⟩ := h.answered_awaitAll hid hjob hforetold.ends
    obtain ⟨job', hjob', hforetold'⟩ := h.foretold_awaitAll hr'
    cases hjob.symm.trans hjob'
    rw [hr', hforetold'.unique hforetold]

theorem ask_snd (s : Service) (net : Network) (job : Job) :
    (s.ask net job).2 = (s.awaitAll net [job]).finished.lookup s.begun := rfl

theorem Records.getElem?_begun (h : s.Records net o jobs) (job : Job) :
    (jobs ++ [job])[s.begun]? = some job := by
  rw [h.begun_eq]
  exact List.getElem?_concat_length

/-- **Asking one job gives exactly what an exact outlook says.** -/
theorem Sound.ask_eq_some_iff (h : s.Sound net (.exact table price) jobs) (job : Job)
    (r : Result) : (s.ask net job).2 = some r ↔ job.plan.Foretold (.exact table price) r := by
  have hid : s.begun ∈ List.range' s.begun [job].length := by simp
  rw [ask_snd]
  exact h.lookup_awaitAll_eq_some_iff hid (h.toRecords.getElem?_begun job) r

/-- **A job is answered exactly if all its lookups end.** -/
theorem Sound.isSome_ask_iff (h : s.Sound net (.exact table price) jobs) (job : Job) :
    (s.ask net job).2.isSome = true ↔
      ∀ l ∈ job.plan.lookups, (Outlook.exact table price).Ends l := by
  constructor
  · intro hsome
    obtain ⟨r, hr⟩ := Option.isSome_iff_exists.mp hsome
    exact ((h.ask_eq_some_iff job r).mp hr).ends
  · intro hends
    have hid : s.begun ∈ List.range' s.begun [job].length := by simp
    obtain ⟨r, hr⟩ := h.answered_awaitAll hid (h.toRecords.getElem?_begun job) hends
    rw [ask_snd, hr]
    rfl

end Reckoner.Service
