import Reckoner.Proofs.Service.Asking

/-!
# Runs of a service

What can happen to a service, in any order: jobs are asked and waited for, one at a time or side by
side, or begin and are left to themselves; a job is given up; time goes by; the caches are emptied;
the feeds are checked.

* `Event`, `Service.step`, `Service.run` — what can happen, what it does, and the answers that it
  brings; an answer stands beside the number of its job.
* `Event.jobs` — the jobs that begin with an event; their numbers count all jobs of the run.
* `Sound.step`, `Sound.run` — every event, and so every run, keeps a service sound.
* `Reliable`, `Faithful` — answers are what an outlook says; they are exactly that.
* `Sound.reliable_run` — the answers of every run are reliable.
* `Sound.faithful_run` — over an exact outlook they are faithful.
-/

namespace Reckoner.Service

/-- What can happen to a service. -/
inductive Event where
  /-- Jobs are asked side by side, and all of them are waited for. -/
  | ask (jobs : List Job)
  /-- A job begins, and nobody waits for it yet. -/
  | start (job : Job)
  /-- The job with a number is given up. -/
  | cancel (id : Nat)
  /-- Time goes by. -/
  | pass (seconds : Rat)
  /-- The caches are emptied. -/
  | clear
  /-- Both feeds are checked. -/
  | health

/-- The jobs that begin with an event. -/
def Event.jobs : Event → List Job
  | .ask jobs => jobs
  | .start job => [job]
  | _ => []

/-- The service after an event, and the answers of the jobs that were asked.  A job that is never
    finished is answered by nothing. -/
def perform (s : Service) (net : Network) : Event → Service × List (Nat × Option Result)
  | .ask jobs =>
    let (asked, results) := s.askAll net jobs
    (asked, (List.range' s.begun jobs.length).zip results)
  | .start job => (s.begin net job, [])
  | .cancel id => (s.cancel id, [])
  | .pass seconds => (s.pass seconds, [])
  | .clear => (s.clear, [])
  | .health => ((s.health net).1, [])

/-- What an event does.  Besides the answers of the jobs that were asked, it brings those of the
    other jobs that are finished by then. -/
def step (s : Service) (net : Network) (e : Event) : Service × List (Nat × Option Result) :=
  let (s, answers) := s.perform net e
  let (s, finished) := s.take
  (s, answers ++ finished.map fun (id, r) => (id, some r))

/-- What a run of events does, with all answers that it brings. -/
def run (s : Service) (net : Network) : List Event → Service × List (Nat × Option Result)
  | [] => (s, [])
  | e :: rest =>
    let (s, answers) := s.step net e
    let (s, later) := s.run net rest
    (s, answers ++ later)

/-- What is asked alone is among the answers of the run. -/
theorem mem_run_ask (s : Service) (net : Network) (job : Job) :
    (s.begun, (s.ask net job).2) ∈ (s.run net [.ask [job]]).2 := by
  have hfirst : (s.begun, (s.ask net job).2) ∈
      (List.range' s.begun [job].length).zip (s.askAll net [job]).2 := by
    rw [askAll_eq, ask_snd]
    simp
  exact List.mem_append_left _ (List.mem_append_left _ hfirst)

variable {net : Network} {o : Outlook} {jobs : List Job} {s : Service}

/-! ### Every run keeps a service sound -/

theorem Sound.checkFeed (h : s.Sound net o jobs) (f : Feed) :
    (s.checkFeed net f).1.Sound net o jobs := by
  have hsent := h.note_sent (s.sent ++ [f.healthRequest])
  unfold Service.checkFeed
  dsimp only
  split
  · exact hsent.pass _
  · exact hsent

theorem Sound.checkFiat (h : s.Sound net o jobs) : (s.checkFiat net).1.Sound net o jobs := by
  unfold Service.checkFiat
  split
  · exact h.checkFeed _
  · split <;> exact h

/-- Checking the feeds takes time, and changes nothing else. -/
theorem Sound.health (h : s.Sound net o jobs) : (s.health net).1.Sound net o jobs :=
  h.checkFiat.checkFeed _

theorem Sound.perform (h : s.Sound net o jobs) (e : Event) :
    (s.perform net e).1.Sound net o (jobs ++ e.jobs) := by
  cases e with
  | ask asked => exact h.askAll asked
  | start job => exact h.begin job
  | cancel id => exact (List.append_nil jobs).symm ▸ h.cancel id
  | pass seconds => exact (List.append_nil jobs).symm ▸ h.pass seconds
  | clear => exact (List.append_nil jobs).symm ▸ h.clear
  | health => exact (List.append_nil jobs).symm ▸ h.health

/-- **Every event keeps a service sound.** -/
theorem Sound.step (h : s.Sound net o jobs) (e : Event) :
    (s.step net e).1.Sound net o (jobs ++ e.jobs) :=
  (h.perform e).take_results (List.nil_subset _)

/-- **Every run keeps a service sound.** -/
theorem Sound.run (h : s.Sound net o jobs) (events : List Event) :
    (s.run net events).1.Sound net o (jobs ++ events.flatMap Event.jobs) := by
  induction events generalizing s jobs with
  | nil => exact (List.append_nil jobs).symm ▸ h
  | cons e rest ih =>
    rw [List.flatMap_cons, ← List.append_assoc]
    exact ih (h.step e)

/-! ### The answers of a run -/

/-- **Answers are what an outlook says**: a result is one that is foretold for its job, and it is
    lacking only where a lookup of the job is not certain to end. -/
def Reliable (o : Outlook) (jobs : List Job) (answers : List (Nat × Option Result)) : Prop :=
  ∀ id answer, (id, answer) ∈ answers →
    ∃ job, jobs[id]? = some job ∧ (∀ r, answer = some r → job.plan.Foretold o r) ∧
      (answer = none → ∃ l ∈ job.plan.lookups, ¬ o.Ends l)

theorem Reliable.append {before after : List (Nat × Option Result)} (h : Reliable o jobs before)
    (h' : Reliable o jobs after) : Reliable o jobs (before ++ after) := by
  intro id answer hmem
  rcases List.mem_append.mp hmem with hmem | hmem
  · exact h id answer hmem
  · exact h' id answer hmem

/-- Answers stay reliable when more jobs begin. -/
theorem Reliable.mono {answers : List (Nat × Option Result)} (h : Reliable o jobs answers)
    (more : List Job) : Reliable o (jobs ++ more) answers := by
  intro id answer hmem
  obtain ⟨job, hjob, hanswer⟩ := h id answer hmem
  exact ⟨job, getElem?_append_of_eq_some hjob more, hanswer⟩

/-- The answers of jobs that are asked are reliable. -/
theorem Sound.reliable_askAll (h : s.Sound net o jobs) (asked : List Job) :
    Reliable o (jobs ++ asked)
      ((List.range' s.begun asked.length).zip (s.askAll net asked).2) := by
  intro id answer hmem
  -- The answer that stands beside a number is the result that was found under it.
  rw [askAll_eq, ← List.map_prod_left_eq_zip] at hmem
  obtain ⟨i, hid, heq⟩ := List.mem_map.mp hmem
  cases heq
  obtain ⟨hlo, hhi⟩ := List.mem_range'_1.mp hid
  have hlength : id < (jobs ++ asked).length := by
    rw [List.length_append, ← h.begun_eq]
    exact hhi
  have hjob := List.getElem?_eq_getElem hlength
  refine ⟨(jobs ++ asked)[id], hjob, ?_, ?_⟩
  · intro r hr
    obtain ⟨job, hjob', hforetold⟩ := h.foretold_awaitAll hr
    cases hjob.symm.trans hjob'
    exact hforetold
  · intro hnone
    by_contra hends
    push Not at hends
    obtain ⟨r, hr⟩ := h.answered_awaitAll hid hjob hends
    rw [hr] at hnone
    cases hnone

/-- Results that are finished are reliable answers. -/
theorem Sound.reliable_finished (h : s.Sound net o jobs) :
    Reliable o jobs (s.finished.map fun (id, r) => (id, some r)) := by
  intro id answer hmem
  obtain ⟨⟨i, r⟩, hr, heq⟩ := List.mem_map.mp hmem
  cases heq
  obtain ⟨job, hjob, hforetold⟩ := h.foretold id r hr
  refine ⟨job, hjob, ?_, ?_⟩
  · rintro r' ⟨⟩
    exact hforetold
  · rintro ⟨⟩

theorem Sound.reliable_perform (h : s.Sound net o jobs) (e : Event) :
    Reliable o (jobs ++ e.jobs) (s.perform net e).2 := by
  cases e with
  | ask asked => exact h.reliable_askAll asked
  | start | cancel | pass | clear | health =>
    intro id answer hmem
    cases hmem

/-- **The answers that an event brings are reliable.** -/
theorem Sound.reliable_step (h : s.Sound net o jobs) (e : Event) :
    Reliable o (jobs ++ e.jobs) (s.step net e).2 :=
  (h.reliable_perform e).append (h.perform e).reliable_finished

/-- **The answers of every run are reliable.** -/
theorem Sound.reliable_run (h : s.Sound net o jobs) (events : List Event) :
    Reliable o (jobs ++ events.flatMap Event.jobs) (s.run net events).2 := by
  induction events generalizing s jobs with
  | nil =>
    intro id answer hmem
    cases hmem
  | cons e rest ih =>
    rw [List.flatMap_cons, ← List.append_assoc]
    exact ((h.reliable_step e).mono (rest.flatMap Event.jobs)).append (ih (h.step e))

/-! ### Answers over an exact outlook -/

/-- **Answers are exactly what an outlook says**: an answer is a result of its job that is foretold,
    and it lacks a result only where none is foretold. -/
def Faithful (o : Outlook) (jobs : List Job) (answers : List (Nat × Option Result)) : Prop :=
  ∀ id answer, (id, answer) ∈ answers →
    ∃ job, jobs[id]? = some job ∧ ∀ r, answer = some r ↔ job.plan.Foretold o r

variable {table : String → Option (Option RateTable)} {price : String → Option (Option Float)}

/-- Over an exact outlook, reliable answers are faithful. -/
theorem Reliable.faithful {answers : List (Nat × Option Result)}
    (h : Reliable (.exact table price) jobs answers) :
    Faithful (.exact table price) jobs answers := by
  intro id answer hmem
  obtain ⟨job, hjob, hforetold, hlacking⟩ := h id answer hmem
  refine ⟨job, hjob, fun r => ⟨hforetold r, fun hr => ?_⟩⟩
  -- Where a result is foretold, all lookups end; and an exact outlook says no other result.
  cases answer with
  | some r' => rw [(hforetold r' rfl).unique hr]
  | none =>
    obtain ⟨l, hl, hnot⟩ := hlacking rfl
    exact absurd (hr.ends l hl) hnot

/-- **Over an exact outlook the answers of every run are faithful.** -/
theorem Sound.faithful_run (h : s.Sound net (.exact table price) jobs) (events : List Event) :
    Faithful (.exact table price) (jobs ++ events.flatMap Event.jobs) (s.run net events).2 :=
  (h.reliable_run events).faithful

end Reckoner.Service
