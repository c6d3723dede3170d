import Reckoner.Proofs.Service.Assets
import Reckoner.Proofs.Service.Events

/-!
# What a service keeps

Whatever happens to a service comes down to a few things: a job begins, time goes by, a job is given
up, the caches are emptied, results are taken, and a request is noted.  What each of them keeps is
kept by every run.  Time never goes backwards.

* `Service.Kept` — a property that each of these keeps.
* `Kept.askAll`, `Kept.step`, `Kept.run` — it is kept by asking, by every event and by every run.
* `begin_induction` — what lookups keep is kept when a job begins.
* `Service.Inside` — a property of the settings and the two caches that lookups and arrivals keep.
* `Inside.kept` — such a property is kept, whatever jobs there are.
-/

namespace Reckoner.Service

variable {net : Network} {P : Service → Prop} {s : Service}

/-- **A property that everything keeps that can happen to a service.** -/
structure Kept (net : Network) (P : Service → Prop) : Prop where
  begin : ∀ s job, P s → P (s.begin net job)
  passTo : ∀ s moment, s.now ≤ moment → P s → P (s.passTo moment)
  cancel : ∀ s id, P s → P (s.cancel id)
  clear : ∀ s, P s → P s.clear
  take : ∀ s rest, rest ⊆ s.finished → P s → P { s with finished := rest }
  note : ∀ s request, P s → P { s with sent := s.sent ++ [request] }

namespace Kept

/-! ### Asking -/

/-- Jobs begin one after the other. -/
theorem beginAll (h : Kept net P) (hs : P s) (asked : List Job) : P (s.beginAll net asked) := by
  induction asked generalizing s with
  | nil => exact hs
  | cons job rest ih => exact ih (h.begin s job hs)

/-- Waiting for a job is waiting for what is due last. -/
theorem await (h : Kept net P) (hs : P s) (id : Nat) : P (s.await id) := by
  rcases s.await_cases id with heq | ⟨moment, hle, heq⟩ <;> rw [heq]
  · exact hs
  · exact h.passTo s moment hle hs

/-- Time passes by to a moment that is not before now. -/
theorem pass (h : Kept net P) (hs : P s) (seconds : Rat) : P (s.pass seconds) :=
  h.passTo s _ (le_later_left _ _) hs

/-- Jobs are awaited one after the other. -/
theorem foldl_await (h : Kept net P) (hs : P s) (ids : List Nat) :
    P (ids.foldl Service.await s) := by
  induction ids generalizing s with
  | nil => exact hs
  | cons id rest ih => exact ih (h.await hs id)

/-- **Awaiting jobs** is beginning them and letting time pass. -/
theorem awaitAll (h : Kept net P) (hs : P s) (asked : List Job) : P (s.awaitAll net asked) :=
  h.foldl_await (h.pass (h.beginAll hs asked) 0) _

/-- Results that are taken are results. -/
theorem askAll (h : Kept net P) (hs : P s) (asked : List Job) : P (s.askAll net asked).1 :=
  h.take _ _ (fun _ => List.mem_of_mem_filter) (h.awaitAll hs asked)

/-! ### Events -/

/-- A check of a feed lets time pass and notes a request. -/
theorem checkFeed (h : Kept net P) (hs : P s) (f : Feed) : P (s.checkFeed net f).1 := by
  have hnoted := h.note s f.healthRequest hs
  unfold Service.checkFeed
  dsimp only
  split
  · exact h.pass hnoted _
  · exact hnoted

/-- A check of the feeds for rates checks one feed or both. -/
theorem checkFiat (h : Kept net P) (hs : P s) : P (s.checkFiat net).1 := by
  unfold Service.checkFiat
  split
  · exact h.checkFeed hs _
  · split <;> exact hs

/-- **Every event comes down to these.** -/
theorem perform (h : Kept net P) (hs : P s) (e : Event) : P (s.perform net e).1 := by
  cases e with
  | ask asked => exact h.askAll hs asked
  | start job => exact h.begin s job hs
  | cancel id => exact h.cancel s id hs
  | pass seconds => exact h.pass hs seconds
  | clear => exact h.clear s hs
  | health => exact h.checkFeed (h.checkFiat hs) _

/-- And then the results of complete jobs are taken. -/
theorem step (h : Kept net P) (hs : P s) (e : Event) : P (s.step net e).1 :=
  h.take _ _ (List.nil_subset _) (h.perform hs e)

/-- **What everything keeps is kept by every run.** -/
theorem run (h : Kept net P) (hs : P s) (events : List Event) : P (s.run net events).1 := by
  induction events generalizing s with
  | nil => exact hs
  | cons e rest ih => exact ih (h.step hs e)

end Kept

/-! ### The beginning of a job -/

/-- What each lookup of a listed asset keeps is kept by several. -/
theorem foldl_look_induction
    (hlook : ∀ {s} id {l : Lookup}, l.IsListed → P s → P (Service.look net id s l)) (hs : P s)
    (id : Nat) {ls : List Lookup} (hls : ∀ l ∈ ls, l.IsListed) :
    P (ls.foldl (Service.look net id) s) := by
  induction ls generalizing s with
  | nil => exact hs
  | cons l rest ih =>
    exact ih (hlook id (hls l List.mem_cons_self) hs) fun l' hl' => hls l' (.tail l hl')

/-- **What the lookups of a job keep holds when it has begun**, if it holds when its task is opened
    and finishing tasks keeps it. -/
theorem begin_induction {job : Job} (hopened : P (s.opened job.plan))
    (hlook : ∀ {s} id {l : Lookup}, l.IsListed → P s → P (Service.look net id s l))
    (hcollect : ∀ {s : Service}, P s → P s.collect) : P (s.begin net job) := by
  rw [begin_eq]
  exact hcollect (foldl_look_induction hlook hopened s.begun job.isTidy_plan.isListed)

/-! ### The settings and the caches -/

/-- **A property of the settings and the caches** that lookups of listed assets and arrivals keep.
    Whatever else a service has does not matter to it. -/
structure Inside (net : Network) (P : Service → Prop) : Prop where
  congr : ∀ {s s' : Service}, P s → s'.settings = s.settings → s'.fiat = s.fiat →
    s'.crypto = s.crypto → P s'
  look : ∀ {s} id {l : Lookup}, l.IsListed → P s → P (Service.look net id s l)
  landTables : ∀ {s} moment, P s → P (s.landTables moment)
  landPrices : ∀ {s} moment, P s → P (s.landPrices moment)
  cancel : ∀ {s} id, P s → P (s.cancel id)
  clear : ∀ {s : Service}, P s → P s.clear

namespace Inside

/-- **A property of the settings and the caches is kept**, whatever jobs there are. -/
theorem kept (h : Inside net P) : Kept net P where
  begin s job hs :=
    begin_induction (h.congr hs rfl rfl rfl) h.look fun hs => h.congr hs rfl rfl rfl
  passTo s moment _ hs := by
    rw [passTo_eq]
    exact h.congr (h.landPrices moment (h.landTables moment hs)) rfl rfl rfl
  cancel s id hs := h.cancel id hs
  clear s hs := h.clear hs
  take s rest _ hs := h.congr hs rfl rfl rfl
  note s request hs := h.congr hs rfl rfl rfl

end Inside

end Reckoner.Service
