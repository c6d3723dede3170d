import Mathlib.Data.List.Forall2
import Reckoner.Proofs.Service.Events

/-!
# Jobs that come to the same

A job that waits keeps the query that it was asked with, but no lookup and no result depends on the
texts of the query.  So two services that differ in such texts only cannot be told apart: whatever
happens to both, they send the same requests and bring the same answers.

* `Plan.bare`, `Task.bare`, `Service.bare` — without the texts of queries.
* `Job.Alike`, `Event.Alike` — jobs and events that differ in such texts only.
* `bare_begin`, `bare_passTo` — what happens to a service does not depend on them.
* `step_alike`, `run_alike` — nor does what an event, and a run of events, brings.
-/

namespace Reckoner

/-! ### Plans, jobs and tasks -/

/-- A plan without the texts of its query. -/
def Plan.bare : Plan → Plan
  | .exchange q source target => .exchange ⟨"", q.amount, "", ""⟩ source target
  | p => p

/-- What is looked up does not depend on the texts of a query. -/
@[simp] theorem Plan.lookups_bare (p : Plan) : p.bare.lookups = p.lookups := by
  cases p <;> rfl

/-- Nor does the result of what was found. -/
@[simp] theorem Plan.result_bare (p : Plan) (f : Findings) : p.bare.result f = p.result f := by
  cases p <;> rfl

/-- Jobs whose plans are the same but for the texts of their queries. -/
def Job.Alike (job job' : Job) : Prop := job.plan.bare = job'.plan.bare

/-- A task without the texts of its query. -/
def Task.bare (t : Task) : Task := { t with plan := t.plan.bare }

/-- Nor does what a task still waits for. -/
@[simp] theorem Task.isComplete_bare (t : Task) : t.bare.isComplete = t.isComplete := by
  simp [Task.isComplete, Task.bare]

namespace Service

variable {ν : Type}

/-- A service without the texts of the queries that wait. -/
def bare (s : Service) : Service := { s with tasks := s.tasks.map (Prod.map id Task.bare) }

/-! ### What happens to a service -/

/-- A task hears of a lookup by its key and its value alone. -/
theorem bare_hear {find : Task → String → Option ν → Task}
    (hfind : ∀ t key v, find t.bare key v = (find t key v).bare) (id : Nat) (t : Task)
    (n : Notice Nat ν) : Task.hear find id t.bare n = (Task.hear find id t n).bare := by
  cases n with
  | fetching key => rfl
  | told w key v =>
    simp only [Task.hear]
    split
    · exact hfind t key v
    · rfl

/-- The tasks take notice whatever the texts of their queries are. -/
theorem bare_tell {find : Task → String → Option ν → Task}
    (hfind : ∀ t key v, find t.bare key v = (find t key v).bare) (request : Request) (s : Service)
    (notices : List (Notice Nat ν)) :
    (s.tell find request notices).bare = s.bare.tell find request notices := by
  have hheard : ∀ id t, notices.foldl (Task.hear find id) (Task.bare t) =
      (notices.foldl (Task.hear find id) t).bare := fun id t =>
    List.foldl_hom Task.bare (bare_hear hfind id)
  simp [tell, bare, hheard, Function.comp_def]

/-- Tasks that are complete are collected with their results, which are the same. -/
theorem bare_collect (s : Service) : s.collect.bare = s.bare.collect := by
  have hresult : ∀ t : Task, t.bare.plan.result t.bare.found = t.plan.result t.found := fun t =>
    t.plan.result_bare t.found
  simp [collect, bare, List.filter_map, Function.comp_def, hresult]

/-- **A lookup is the same** without the texts of queries. -/
theorem bare_look (net : Network) (id : Nat) (s : Service) (l : Lookup) :
    (look net id s l).bare = look net id s.bare l := by
  cases l with
  | rates code =>
    rw [look_rates, look_rates, bare_tell fun _ _ _ => rfl]
    rfl
  | price code =>
    rw [look_price, look_price, bare_tell fun _ _ _ => rfl]
    rfl

/-- **A job begins** in the same way whatever the texts of its query are. -/
theorem bare_begin {s s' : Service} (h : s.bare = s'.bare) (net : Network) {job job' : Job}
    (hjob : job.Alike job') : (s.begin net job).bare = (s'.begin net job').bare := by
  have hbegin : ∀ (s : Service) (job : Job), (s.begin net job).bare =
      (job.plan.bare.lookups.foldl (look net s.bare.begun)
        (s.bare.opened job.plan.bare)).collect := by
    intro s job
    have hopened : (s.opened job.plan).bare = s.bare.opened job.plan.bare := by
      simp [opened, bare, Task.bare]
    rw [begin_eq, bare_collect, ← hopened, Plan.lookups_bare]
    exact congrArg collect (List.foldl_hom bare fun s l => (bare_look net _ s l).symm).symm
  rw [hbegin, hbegin, h, hjob]

/-- Tables that have come change the cache of rates and the tasks that wait for them. -/
theorem bare_landTables (s : Service) (moment : Rat) :
    (s.landTables moment).bare = s.bare.landTables moment :=
  bare_tell (fun _ _ _ => rfl) _ _ _

/-- Prices that have come do so for the cache of prices. -/
theorem bare_landPrices (s : Service) (moment : Rat) :
    (s.landPrices moment).bare = s.bare.landPrices moment :=
  bare_tell (fun _ _ _ => rfl) _ _ _

/-- **Time goes by** in the same way. -/
theorem bare_passTo (s : Service) (moment : Rat) :
    (s.passTo moment).bare = s.bare.passTo moment := by
  rw [passTo_eq, passTo_eq, bare_collect, bare_landPrices, bare_landTables]

/-- **What comes while time goes by** is the same. -/
theorem bare_pass (s : Service) (seconds : Rat) : (s.pass seconds).bare = s.bare.pass seconds :=
  bare_passTo s _

/-- Giving up a job takes its task away, whatever its query is. -/
theorem bare_cancel (s : Service) (id : Nat) : (s.cancel id).bare = s.bare.cancel id := by
  simp [cancel, bare, List.filter_map, Function.comp_def]

/-! ### Waiting -/

/-- Every task is found under its own number. -/
theorem lookup_tasks_bare (s : Service) (id : Nat) :
    s.bare.tasks.lookup id = (s.tasks.lookup id).map Task.bare := by
  show (s.tasks.map _).lookup id = _
  induction s.tasks with
  | nil => rfl
  | cons t rest ih =>
    rw [List.map_cons, List.lookup_cons, List.lookup_cons, ih]
    show (bif id == t.1 then _ else _) = _
    cases id == t.1 <;> rfl

/-- When the last of some lookups is due does not depend on the tasks that wait. -/
theorem lastDue?_bare (s : Service) (ls : List Lookup) : s.bare.lastDue? ls = s.lastDue? ls := by
  induction ls with
  | nil => rfl
  | cons l rest ih =>
    have hdue : s.bare.due? l = s.due? l := by cases l <;> rfl
    rw [lastDue?, lastDue?, hdue, ih]

/-- **A job is waited for** in the same way. -/
theorem bare_await (s : Service) (id : Nat) : (s.await id).bare = s.bare.await id := by
  rw [await, await, lookup_tasks_bare]
  cases s.tasks.lookup id with
  | none => rfl
  | some t =>
    simp only [Option.map_some, lastDue?_bare, Task.bare, Plan.lookups_bare]
    cases s.lastDue? (t.plan.lookups.filter fun l => !t.found.has l) with
    | none => rfl
    | some moment => exact bare_passTo s moment

/-- Jobs that are begun one after the other leave services that cannot be told apart. -/
theorem bare_beginAll {s s' : Service} (h : s.bare = s'.bare) (net : Network)
    {asked asked' : List Job} (hasked : List.Forall₂ Job.Alike asked asked') :
    (s.beginAll net asked).bare = (s'.beginAll net asked').bare := by
  induction hasked generalizing s s' with
  | nil => exact h
  | cons hjob _ ih => exact ih (bare_begin h net hjob)

/-- So do jobs that are awaited one after the other. -/
theorem bare_awaitAll {s s' : Service} (h : s.bare = s'.bare) (net : Network)
    {asked asked' : List Job} (hasked : List.Forall₂ Job.Alike asked asked') :
    (s.awaitAll net asked).bare = (s'.awaitAll net asked').bare := by
  have hawait : ∀ (s : Service) (ids : List Nat),
      (ids.foldl await s).bare = ids.foldl await s.bare := fun s ids =>
    (List.foldl_hom bare fun s id => (bare_await s id).symm).symm
  have hbegun : s.bare.begun = s'.bare.begun := by rw [h]
  replace hbegun : s.begun = s'.begun := hbegun
  rw [awaitAll, awaitAll, hawait, hawait, bare_pass, bare_pass, bare_beginAll h net hasked, hbegun,
    hasked.length_eq]

/-! ### Events -/

/-- Events that are the same but for the texts of queries. -/
inductive Event.Alike : Event → Event → Prop where
  | ask {jobs jobs' : List Job} : List.Forall₂ Job.Alike jobs jobs' →
      Alike (.ask jobs) (.ask jobs')
  | start {job job' : Job} : job.Alike job' → Alike (.start job) (.start job')
  | cancel (id : Nat) : Alike (.cancel id) (.cancel id)
  | pass (seconds : Rat) : Alike (.pass seconds) (.pass seconds)
  | clear : Alike .clear .clear
  | health : Alike .health .health

/-- **A check of a feed** looks at the feed, and at no query. -/
theorem bare_checkFeed (s : Service) (net : Network) (f : Feed) :
    (s.checkFeed net f).1.bare = (s.bare.checkFeed net f).1 := by
  have hsent : s.bare.sent = s.sent := rfl
  unfold checkFeed
  rw [hsent]
  dsimp only
  cases (net.answer s.sent f.healthRequest).delay with
  | none => rfl
  | some seconds => exact bare_pass _ seconds

/-- So does a check of the feeds for rates, which may ask a second one. -/
theorem bare_checkFiat (s : Service) (net : Network) :
    (s.checkFiat net).1.bare = (s.bare.checkFiat net).1 := by
  have hsettings : s.bare.settings = s.settings := rfl
  unfold checkFiat
  rw [hsettings]
  cases s.settings.fiat with
  | feed f => exact bare_checkFeed s net f
  | fixed name url scheme codes tables health => cases health <;> rfl

/-- A check of all feeds leaves services that cannot be told apart. -/
theorem bare_health (s : Service) (net : Network) :
    (s.health net).1.bare = (s.bare.health net).1 := by
  have hhealth : ∀ s : Service, (s.health net).1 =
      ((s.checkFiat net).1.checkFeed net (s.checkFiat net).1.settings.crypto).1 := fun _ => rfl
  have hsettings : (s.bare.checkFiat net).1.settings = (s.checkFiat net).1.settings := by
    rw [← bare_checkFiat]
    rfl
  rw [hhealth, hhealth, bare_checkFeed, bare_checkFiat, hsettings]

variable {s s' : Service}

/-- What has been brought is not part of the difference. -/
theorem bare_finished (h : s.bare = s'.bare) (rest : List (Nat × Result)) :
    ({ s with finished := rest } : Service).bare = ({ s' with finished := rest } : Service).bare :=
  congrArg (fun s : Service => { s with finished := rest }) h

/-- **Jobs that are asked and awaited** bring the same results. -/
theorem askAll_alike (h : s.bare = s'.bare) (net : Network) {asked asked' : List Job}
    (hasked : List.Forall₂ Job.Alike asked asked') :
    (s.askAll net asked).1.bare = (s'.askAll net asked').1.bare ∧
      (s.askAll net asked).2 = (s'.askAll net asked').2 := by
  have hawaited := bare_awaitAll h net hasked
  have hfinished : (s.awaitAll net asked).finished = (s'.awaitAll net asked').finished :=
    congrArg (·.finished) hawaited
  have hbegun : s.begun = s'.begun := congrArg (·.begun) h
  rw [askAll_eq, askAll_eq, hfinished, hbegun, hasked.length_eq]
  exact ⟨bare_finished hawaited _, rfl⟩

/-- An event does the same to services that differ only in the texts of queries. -/
theorem perform_alike (h : s.bare = s'.bare) (net : Network) {e e' : Event} (he : e.Alike e') :
    (s.perform net e).1.bare = (s'.perform net e').1.bare ∧
      (s.perform net e).2 = (s'.perform net e').2 := by
  cases he with
  | @ask asked asked' hasked =>
    obtain ⟨hservice, hresults⟩ := askAll_alike h net hasked
    have hbegun : s.begun = s'.begun := congrArg (·.begun) h
    -- Jobs are numbered from the same number on, and there are as many of them.
    refine ⟨hservice, ?_⟩
    show (List.range' s.begun asked.length).zip (s.askAll net asked).2 =
      (List.range' s'.begun asked'.length).zip (s'.askAll net asked').2
    rw [hresults, hbegun, hasked.length_eq]
  | start hjob => exact ⟨bare_begin h net hjob, rfl⟩
  | cancel id =>
    refine ⟨?_, rfl⟩
    show (s.cancel id).bare = (s'.cancel id).bare
    rw [bare_cancel, bare_cancel, h]
  | pass seconds =>
    refine ⟨?_, rfl⟩
    show (s.pass seconds).bare = (s'.pass seconds).bare
    rw [bare_pass, bare_pass, h]
  | clear => exact ⟨congrArg clear h, rfl⟩
  | health =>
    refine ⟨?_, rfl⟩
    show (s.health net).1.bare = (s'.health net).1.bare
    rw [bare_health, bare_health, h]

/-- **What an event brings does not depend on the texts of queries.** -/
theorem step_alike (h : s.bare = s'.bare) (net : Network) {e e' : Event} (he : e.Alike e') :
    (s.step net e).1.bare = (s'.step net e').1.bare ∧ (s.step net e).2 = (s'.step net e').2 := by
  obtain ⟨hservice, hanswers⟩ := perform_alike h net he
  have hfinished : (s.perform net e).1.finished = (s'.perform net e').1.finished :=
    congrArg (·.finished) hservice
  refine ⟨bare_finished hservice [], ?_⟩
  show (s.perform net e).2 ++ (s.perform net e).1.finished.map _ =
    (s'.perform net e').2 ++ (s'.perform net e').1.finished.map _
  rw [hanswers, hfinished]

/-- **What a run brings does not depend on the texts of queries**: services that cannot be told
    apart go on so. -/
theorem run_alike (h : s.bare = s'.bare) (net : Network) {events events' : List Event}
    (hevents : List.Forall₂ Event.Alike events events') :
    (s.run net events).1.bare = (s'.run net events').1.bare ∧
      (s.run net events).2 = (s'.run net events').2 := by
  induction hevents generalizing s s' with
  | nil => exact ⟨h, rfl⟩
  | @cons e e' rest rest' he _ ih =>
    obtain ⟨hservice, hanswers⟩ := step_alike h net he
    obtain ⟨hlast, hlater⟩ := ih hservice
    refine ⟨hlast, ?_⟩
    show (s.step net e).2 ++ ((s.step net e).1.run net rest).2 =
      (s'.step net e').2 ++ ((s'.step net e').1.run net rest').2
    rw [hanswers, hlater]

end Service

end Reckoner
