import Reckoner.Proofs.Cache.Waiting
import Reckoner.Proofs.Service.Foretold
import Reckoner.Service.Basic

/-!
# Notices and tasks

What happens in a cache reaches the tasks of a service as notices.  A task never forgets what it was
told, and what it waits for it goes on waiting for until it is told.

* `Task.hear`, `Service.tell` — a task, and all tasks of a service, take notice.
* `foldl_noteTable`, `foldl_notePrice` — taking notice one after the other is telling all tasks.
* `Ledger` — what rate tables and prices have in common: how a task writes down what it is told.
* `Service.Waits`, `Service.Minds` — a job waits for a lookup; a task has it or waits for it.
* `Service.Follows`, `Service.Advances` — what becomes of a task, and of all of them, when something
  happens in a cache.
* `Ledger.advances_tell` — telling the tasks is an advance.
-/

namespace Reckoner

variable {ν : Type}

/-! ### Taking notice -/

/-- The task with a number takes notice, where `find` writes down what was found. -/
def Task.hear (find : Task → String → Option ν → Task) (id : Nat) (t : Task) : Notice Nat ν → Task
  | .fetching _ => t
  | .told w key v => if id = w then find t key v else t

/-- The requests that a notice makes known. -/
def Notice.requests (request : Request) : Notice Nat ν → List Request
  | .fetching _ => [request]
  | .told .. => []

namespace Service

/-- All tasks take notice, and the requests are noted. -/
def tell (find : Task → String → Option ν → Task) (request : Request) (s : Service)
    (notices : List (Notice Nat ν)) : Service :=
  { s with
    tasks := s.tasks.map fun (id, t) => (id, notices.foldl (Task.hear find id) t)
    sent := s.sent ++ notices.flatMap (Notice.requests request) }

/-- Without notices nobody is told anything. -/
@[simp] theorem tell_nil (find : Task → String → Option ν → Task) (request : Request)
    (s : Service) : s.tell find request [] = s := by
  simp [tell]

/-- Notices are passed on one after the other. -/
theorem tell_cons (find : Task → String → Option ν → Task) (request : Request) (s : Service)
    (n : Notice Nat ν) (rest : List (Notice Nat ν)) :
    s.tell find request (n :: rest) = (s.tell find request [n]).tell find request rest := by
  simp [tell, Function.comp_def]

/-- Taking notice one after the other is telling all tasks. -/
theorem foldl_note {find : Task → String → Option ν → Task} {request : Request}
    {note : Service → Notice Nat ν → Service} (hnote : ∀ s n, note s n = s.tell find request [n])
    (notices : List (Notice Nat ν)) (s : Service) :
    notices.foldl note s = s.tell find request notices := by
  induction notices generalizing s with
  | nil => rw [List.foldl_nil, tell_nil]
  | cons n rest ih => rw [List.foldl_cons, ih, hnote, ← tell_cons]

/-- Notices of tables tell the tasks that wait for tables. -/
theorem foldl_noteTable (request : Request) (notices : List (Notice Nat RateTable)) (s : Service) :
    notices.foldl (noteTable request) s = s.tell Task.findTable request notices :=
  foldl_note (fun s n => by
    cases n <;> simp [tell, noteTable, updateTask, Task.hear, Notice.requests]) notices s

/-- Notices of prices tell the tasks that wait for prices. -/
theorem foldl_notePrice (request : Request) (notices : List (Notice Nat Float)) (s : Service) :
    notices.foldl (notePrice request) s = s.tell Task.findPrice request notices :=
  foldl_note (fun s n => by
    cases n <;> simp [tell, notePrice, updateTask, Task.hear, Notice.requests]) notices s

end Service

/-! ### What a task writes down -/

/-- How a task writes down what it is told of lookups of one kind: its plan stays, and it has what
    it had and what it is told. -/
structure Ledger (find : Task → String → Option ν → Task) (kind : String → Lookup) : Prop where
  plan_find : ∀ t key v, (find t key v).plan = t.plan
  has_find : ∀ t key v, (find t key v).found.has (kind key) = true
  keeps_find : ∀ t key v l, t.found.has l = true → (find t key v).found.has l = true

namespace Ledger

/-- Rate tables are written down among the tables. -/
theorem tables : Ledger Service.Task.findTable .rates where
  plan_find _ _ _ := rfl
  has_find t key v := (Entries.isSome_lookup_put t.found.tables key key v).mpr (.inl rfl)
  keeps_find t key v l hl := by
    cases l with
    | rates code => exact (Entries.isSome_lookup_put t.found.tables key code v).mpr (.inr hl)
    | price code => exact hl

/-- Prices are written down among the prices. -/
theorem prices : Ledger Service.Task.findPrice .price where
  plan_find _ _ _ := rfl
  has_find t key v := (Entries.isSome_lookup_put t.found.prices key key v).mpr (.inl rfl)
  keeps_find t key v l hl := by
    cases l with
    | rates code => exact hl
    | price code => exact (Entries.isSome_lookup_put t.found.prices key code v).mpr (.inr hl)

variable {find : Task → String → Option ν → Task} {kind : String → Lookup}

/-- What holds of a task before it takes notice holds afterwards, if writing down keeps it. -/
theorem hear_induction {P : Task → Prop} {id : Nat} {notices : List (Notice Nat ν)} {t : Task}
    (hfind : ∀ t key v, Notice.told id key v ∈ notices → P t → P (find t key v)) (h : P t) :
    P (notices.foldl (Task.hear find id) t) := by
  induction notices generalizing t with
  | nil => exact h
  | cons n rest ih =>
    rw [List.foldl_cons]
    apply ih fun t key v hn => hfind t key v (.tail n hn)
    -- A fetch that begins tells no task anything, and others are told nothing here.
    cases n with
    | fetching key => exact h
    | told w key v =>
      simp only [Task.hear]
      split
      · next hw =>
        subst hw
        exact hfind t key v List.mem_cons_self h
      · exact h

/-- A task keeps its plan. -/
theorem plan_hear (L : Ledger find kind) (id : Nat) (notices : List (Notice Nat ν)) (t : Task) :
    (notices.foldl (Task.hear find id) t).plan = t.plan :=
  hear_induction (P := fun t' => t'.plan = t.plan)
    (fun t' key v _ ht' => (L.plan_find t' key v).trans ht') rfl

/-- A task keeps what it has. -/
theorem keeps_hear (L : Ledger find kind) (id : Nat) (notices : List (Notice Nat ν)) {t : Task}
    {l : Lookup} (h : t.found.has l = true) :
    (notices.foldl (Task.hear find id) t).found.has l = true :=
  hear_induction (P := fun t => t.found.has l = true)
    (fun t key v _ ht => L.keeps_find t key v l ht) h

/-- A task has what it was told. -/
theorem has_hear (L : Ledger find kind) {id : Nat} {notices : List (Notice Nat ν)} (t : Task)
    {key : String} {v : Option ν} (h : Notice.told id key v ∈ notices) :
    (notices.foldl (Task.hear find id) t).found.has (kind key) = true := by
  induction notices generalizing t with
  | nil => cases h
  | cons n rest ih =>
    rw [List.foldl_cons]
    rcases List.mem_cons.mp h with rfl | h
    · -- From here on the task has it.
      apply L.keeps_hear
      simp only [Task.hear, if_pos]
      exact L.has_find t key v
    · exact ih _ h

end Ledger

namespace Service

/-- A rate table that the outlook says is written down. -/
theorem fit_findTable {o : Outlook} {key : String} {v : Option RateTable}
    (hv : o.tables.Brings key v) {t : Task} (ht : t.found.Fit o) :
    (Task.findTable t key v).found.Fit o :=
  ⟨Entries.forall_lookup_put ht.tables hv, ht.prices⟩

/-- A price that the outlook says is written down. -/
theorem fit_findPrice {o : Outlook} {key : String} {v : Option Float}
    (hv : o.prices.Brings key v) {t : Task} (ht : t.found.Fit o) :
    (Task.findPrice t key v).found.Fit o :=
  ⟨ht.tables, Entries.forall_lookup_put ht.prices hv⟩

/-! ### What becomes of the tasks -/

/-- The job with a number waits for a lookup. -/
def Waits (s : Service) (id : Nat) : Lookup → Prop
  | .rates code => s.fiat.cache.Waits id code
  | .price code => s.crypto.cache.Waits id code

/-- A task has what it looks for, or waits for it. -/
def Minds (s : Service) (id : Nat) (t : Task) (l : Lookup) : Prop :=
  t.found.has l = true ∨ s.Waits id l

/-- What becomes of a task: it keeps its plan and what it has, and what it waits for it has or still
    waits for afterwards. -/
structure Follows (o : Outlook) (s s' : Service) (id : Nat) (t t' : Task) : Prop where
  plan_eq : t'.plan = t.plan
  fit : t.found.Fit o → t'.found.Fit o
  has : ∀ l, t.found.has l = true → t'.found.has l = true
  waits : ∀ l, s.Waits id l → s'.Minds id t' l

/-- **What becomes of the tasks when something happens in a cache.** No job begins or is finished,
    and every task was there before. -/
structure Advances (o : Outlook) (s s' : Service) : Prop where
  settings_eq : s'.settings = s.settings
  begun_eq : s'.begun = s.begun
  finished_eq : s'.finished = s.finished
  ids_eq : s'.tasks.map (·.1) = s.tasks.map (·.1)
  task : ∀ id t', (id, t') ∈ s'.tasks → ∃ t, (id, t) ∈ s.tasks ∧ Follows o s s' id t t'

variable {o : Outlook} {s s' s'' : Service}

/-- A task goes on minding what it minds. -/
theorem Follows.minds {id : Nat} {t t' : Task} (h : Follows o s s' id t t') {l : Lookup}
    (hl : s.Minds id t l) : s'.Minds id t' l := by
  rcases hl with hhas | hwaits
  · exact .inl (h.has l hhas)
  · exact h.waits l hwaits

/-- What becomes of a task twice becomes of it. -/
theorem Follows.trans {id : Nat} {t t' t'' : Task} (h : Follows o s s' id t t')
    (h' : Follows o s' s'' id t' t'') : Follows o s s'' id t t'' where
  plan_eq := h'.plan_eq.trans h.plan_eq
  fit := h'.fit ∘ h.fit
  has l := h'.has l ∘ h.has l
  waits l hl := h'.minds (h.waits l hl)

/-- When nothing happens, every task follows itself. -/
theorem Advances.refl (o : Outlook) (s : Service) : s.Advances o s :=
  ⟨rfl, rfl, rfl, rfl, fun _ t ht => ⟨t, ht, rfl, id, fun _ => id, fun _ => .inr⟩⟩

/-- What happens twice advances the tasks twice. -/
theorem Advances.trans (h : s.Advances o s') (h' : s'.Advances o s'') : s.Advances o s'' where
  settings_eq := h'.settings_eq.trans h.settings_eq
  begun_eq := h'.begun_eq.trans h.begun_eq
  finished_eq := h'.finished_eq.trans h.finished_eq
  ids_eq := h'.ids_eq.trans h.ids_eq
  task id t'' ht'' := by
    obtain ⟨t', ht', hfollows'⟩ := h'.task id t'' ht''
    obtain ⟨t, ht, hfollows⟩ := h.task id t' ht'
    exact ⟨t, ht, hfollows.trans hfollows'⟩

end Service

/-- **Telling the tasks is an advance**, if what they write down is what the outlook says, and if
    who waited is told or still waits. -/
theorem Ledger.advances_tell {o : Outlook} {find : Task → String → Option ν → Task}
    {kind : String → Lookup} (L : Ledger find kind) {s s' : Service}
    (hsettings : s'.settings = s.settings) (hbegun : s'.begun = s.begun)
    (hfinished : s'.finished = s.finished) (htasks : s'.tasks = s.tasks) (request : Request)
    {notices : List (Notice Nat ν)}
    (hfit : ∀ w key v, Notice.told w key v ∈ notices →
      ∀ t : Task, t.found.Fit o → (find t key v).found.Fit o)
    (hwaits : ∀ id l, s.Waits id l →
      (∃ key v, kind key = l ∧ Notice.told id key v ∈ notices) ∨ s'.Waits id l) :
    s.Advances o (s'.tell find request notices) where
  settings_eq := hsettings
  begun_eq := hbegun
  finished_eq := hfinished
  ids_eq := by simp [Service.tell, htasks, Function.comp_def]
  task id t' ht' := by
    obtain ⟨⟨i, t⟩, ht, heq⟩ := List.mem_map.mp ht'
    cases heq
    rw [htasks] at ht
    -- Only what it was told is written down, and all of that fits.
    have hfound : t.found.Fit o → (notices.foldl (Task.hear find id) t).found.Fit o :=
      Ledger.hear_induction (P := fun t => t.found.Fit o)
        (fun t key v htold => hfit id key v htold t)
    refine ⟨t, ht, L.plan_hear id notices t, hfound, fun l => L.keeps_hear id notices, ?_⟩
    intro l hl
    rcases hwaits id l hl with ⟨key, v, rfl, htold⟩ | hl
    · exact .inl (L.has_hear t htold)
    · exact .inr hl

end Reckoner
