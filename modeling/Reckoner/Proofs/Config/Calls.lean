import Mathlib.Data.List.Induction
import Reckoner.Proofs.Config.References

/-!
# Calls for the configuration

The configuration is loaded, asked for and dropped in any order, while variables and documents
change between the calls.  A history holds the calls with what was there and what they replied, the
latest first.

* `Surroundings.Gives` — what a document gives: the defaults alone where it is missing or blank, and
  else its members laid over them, with references expanded.
* `Config.Store.load_cases` — everything that a load can do.
* `Config.Store.run` — the store and the history after any calls.
* `Config.Store.ComputedLast` — a configuration was computed, and since then nothing was dropped and
  no other one was computed.
* `Config.Store.current_run_iff` — this is the configuration in force.
* `Config.Store.run_answered` — **what every call replies.**
-/

namespace Reckoner

open Config

/-! ### What a document gives -/

namespace Surroundings

variable (w : Surroundings) (named : Option String)

/-- **What the document at a path gives.** -/
inductive Gives : Except LoadError Members → Prop where
  | missing : w.documents.lookup (w.path named) = none → Gives (.ok defaults)
  | blank {value : Json} : w.documents.lookup (w.path named) = some (.ok value) →
    value.isBlank = true → Gives (.ok defaults)
  | members {members : Members} :
    w.documents.lookup (w.path named) = some (.ok (.obj members)) →
      Gives (.ok (Json.expandMembers w.env (Json.overlayMembers defaults members)))
  | notAnObject {value : Json} : w.documents.lookup (w.path named) = some (.ok value) →
    value.isBlank = false → (∀ members, value ≠ .obj members) →
      Gives (.error (.notAnObject (w.path named)))
  | unreadable {reason : String} : w.documents.lookup (w.path named) = some (.error reason) →
    Gives (.error (.unreadable reason))

/-- There are no references in the defaults. -/
theorem expandMembers_defaults (env : Entries String) :
    Json.expandMembers env defaults = defaults := by
  have htext : ∀ s : String, '$' ∉ s.toList → String.ofList (expand env s.toList) = s := by
    intro s hs
    rw [expand_eq_self env (not_hasReference_of_not_mem hs), String.ofList_toList]
  simp only [defaults, withKey, Json.expandMembers, Json.expand, htext "" (by decide),
    htext Feed.fiatUrl (by decide), htext Feed.cryptoUrl (by decide), htext "WARNING" (by decide)]

/-- What overrides the defaults is laid over them, and references are replaced in the whole. -/
theorem config_of_overrides {above : Members} (h : w.overrides (w.path named) = .ok above) :
    w.config named = .ok (Json.expandMembers w.env (Json.overlayMembers defaults above)) := by
  rw [config, h]
  rfl

/-- With nothing laid over them, the defaults are the configuration. -/
theorem config_of_overrides_nil (h : w.overrides (w.path named) = .ok []) :
    w.config named = .ok defaults := by
  rw [w.config_of_overrides named h, Json.overlayMembers, expandMembers_defaults]

/-- **A configuration is what the document gives.** -/
theorem gives_config : w.Gives named (w.config named) := by
  cases hdocument : w.documents.lookup (w.path named) with
  | none =>
    rw [w.config_of_overrides_nil named (by rw [overrides, hdocument])]
    exact .missing hdocument
  | some document =>
    cases document with
    | error reason =>
      rw [config, overrides, hdocument]
      exact .unreadable hdocument
    | ok value =>
      cases hblank : value.isBlank with
      | true =>
        rw [w.config_of_overrides_nil named (by simp [overrides, hdocument, hblank])]
        exact .blank hdocument hblank
      | false =>
        -- Of what the document can hold, only an object lays something over the defaults.
        by_cases hobj : ∃ members, value = .obj members
        · obtain ⟨members, rfl⟩ := hobj
          have habove : w.overrides (w.path named) = .ok members := by
            simp [overrides, hdocument, hblank]
          rw [w.config_of_overrides named habove]
          exact .members hdocument
        · have hother : ∀ members, value ≠ .obj members := fun members heq => hobj ⟨members, heq⟩
          have herror : w.overrides (w.path named) = .error (.notAnObject (w.path named)) := by
            rw [overrides, hdocument]
            cases value with
            | obj members => exact absurd rfl (hother members)
            | null | bool | int | float | str | arr => simp [hblank]
          rw [config, herror]
          exact .notAnObject hdocument hblank hother

end Surroundings

namespace Config.Store

/-! ### Calls -/

/-- What can be asked of the store. -/
inductive Call where
  | load (named : Option String)
  | get
  | reset

/-- The path that a call names. -/
def Call.named : Call → Option String
  | .load named => named
  | .get | .reset => none

/-- The store after a call, and the reply.  Only a reset replies nothing. -/
def step (s : Store) (w : Surroundings) : Call → Store × Option (Except LoadError Members)
  | .load named => ((s.load w named).1, some (s.load w named).2)
  | .get => ((s.get w).1, some (s.get w).2)
  | .reset => (s.reset, none)

/-- A call, what was there when it was made, and what it replied. -/
structure Record where
  call : Call
  around : Surroundings
  reply : Option (Except LoadError Members)

/-- Makes a call and puts it on record. -/
def record (past : Store × List Record) (w : Surroundings) (call : Call) : Store × List Record :=
  ((past.1.step w call).1, ⟨call, w, (past.1.step w call).2⟩ :: past.2)

/-- The store and the history after calls, each of which is made in surroundings of its own. -/
def run (calls : List (Surroundings × Call)) : Store × List Record :=
  calls.foldl (fun past (w, call) => record past w call) (empty, [])

/-- The last call is made with what the others have left. -/
theorem run_concat (calls : List (Surroundings × Call)) (w : Surroundings) (call : Call) :
    run (calls ++ [(w, call)]) = record (run calls) w call := by
  rw [run, List.foldl_append]
  rfl

variable {s : Store} {w : Surroundings} {named : Option String} {call : Call}
  {config : Members} {h : List Record} {r : Record}

/-- Every call but a reset loads a configuration. -/
theorem step_of_ne_reset (s : Store) (w : Surroundings) (hcall : call ≠ .reset) :
    s.step w call = ((s.load w call.named).1, some (s.load w call.named).2) := by
  cases call with
  | reset => exact absurd rfl hcall
  | load | get => rfl

/-- Everything that a load can do. -/
inductive Loads (s : Store) (w : Surroundings) (named : Option String) :
    Store × Except LoadError Members → Prop where
  /-- The configuration in force is given. -/
  | kept {config : Members} : named = none → s.current = some config →
    Loads s w named (s, .ok config)
  /-- A configuration is computed and put in force. -/
  | computed {config : Members} : named ≠ none ∨ s.current = none → w.config named = .ok config →
    Loads s w named (⟨some config⟩, .ok config)
  /-- No configuration can be computed. -/
  | failed {e : LoadError} : named ≠ none ∨ s.current = none → w.config named = .error e →
    Loads s w named (s, .error e)

/-- A load that reads anew records what it has found. -/
theorem loads_reload (hanew : named ≠ none ∨ s.current = none) :
    Loads s w named (s.reload w named) := by
  unfold reload
  split
  · next hconfig => exact .computed hanew hconfig
  · next hconfig => exact .failed hanew hconfig

/-- **Every load reads anew or returns what is stored.** -/
theorem load_cases (s : Store) (w : Surroundings) (named : Option String) :
    Loads s w named (s.load w named) := by
  obtain ⟨current⟩ := s
  cases named with
  | some path =>
    cases current with
    | none | some => exact loads_reload (.inl nofun)
  | none =>
    cases current with
    | none => exact loads_reload (.inr rfl)
    | some config => exact .kept rfl rfl

variable {answer : Store × Except LoadError Members}

/-- No document is read where no path is named and a configuration is in force. -/
theorem not_anew (hnamed : named = none) (hcurrent : s.current = some config) :
    ¬ (named ≠ none ∨ s.current = none) := by
  simp [hnamed, hcurrent]

/-- Without a path the configuration in force is given, whatever is there. -/
theorem Loads.eq_of_current (hloads : Loads s w named answer) (hnamed : named = none)
    (hcurrent : s.current = some config) : answer.2 = .ok config := by
  cases hloads with
  | kept _ hkept =>
    rw [hkept] at hcurrent
    cases hcurrent
    rfl
  | computed hanew _ | failed hanew _ => exact absurd hanew (not_anew hnamed hcurrent)

/-- With a path, or with nothing in force, the document is read anew. -/
theorem Loads.eq_of_anew (hloads : Loads s w named answer)
    (hanew : named ≠ none ∨ s.current = none) : answer.2 = w.config named := by
  cases hloads with
  | kept hnamed hcurrent => exact absurd hanew (not_anew hnamed hcurrent)
  | computed _ hconfig | failed _ hconfig => exact hconfig.symm

/-- What cannot be loaded leaves the store as it is. -/
theorem Loads.store_eq_of_error (hloads : Loads s w named answer) {e : LoadError}
    (herror : answer.2 = .error e) : answer.1 = s := by
  cases hloads with
  | kept | computed => cases herror
  | failed => rfl

/-! ### What history says -/

/-- A call computed a configuration. -/
structure Record.Computes (r : Record) (config : Members) : Prop where
  call_ne : r.call ≠ .reset
  reply_eq : r.reply = some (.ok config)
  config_eq : r.around.config r.call.named = .ok config

/-- A call dropped nothing, and loaded no document if it named one. -/
def Record.Passes (r : Record) : Prop :=
  r.call ≠ .reset ∧ (r.call.named = none ∨ ∃ e, r.reply = some (.error e))

/-- **A configuration was computed, and since then nothing was dropped, and no document that was
    named could be loaded.** -/
def ComputedLast (config : Members) (h : List Record) : Prop :=
  ∃ since r before, h = since ++ r :: before ∧ r.Computes config ∧ ∀ q ∈ since, q.Passes

/-- Before the first call nothing has been computed. -/
theorem not_computedLast_nil : ¬ ComputedLast config [] := by
  rintro ⟨since, r, before, heq, -⟩
  simp at heq

/-- The latest call decides, unless it leaves what is stored as it is. -/
theorem computedLast_cons_iff :
    ComputedLast config (r :: h) ↔ r.Computes config ∨ r.Passes ∧ ComputedLast config h := by
  constructor
  · rintro ⟨since, q, before, heq, hq, hsince⟩
    cases since with
    | nil =>
      obtain ⟨rfl, -⟩ := List.cons_eq_cons.mp heq
      exact .inl hq
    | cons p since =>
      obtain ⟨rfl, rfl⟩ := List.cons_eq_cons.mp heq
      obtain ⟨hp, hsince⟩ := List.forall_mem_cons.mp hsince
      exact .inr ⟨hp, since, q, before, rfl, hq, hsince⟩
  · rintro (hr | ⟨hr, since, q, before, rfl, hq, hsince⟩)
    · exact ⟨[], r, h, rfl, hr, nofun⟩
    · exact ⟨r :: since, q, before, rfl, hq, List.forall_mem_cons.mpr ⟨hr, hsince⟩⟩

/-- The store and the history agree on the configuration in force. -/
def Agree (s : Store) (h : List Record) : Prop :=
  ∀ config, s.current = some config ↔ ComputedLast config h

/-- **Every call keeps the store and the history in agreement.** -/
theorem Agree.record (hagree : Agree s h) (w : Surroundings) (call : Call) :
    Agree (record (s, h) w call).1 (record (s, h) w call).2 := by
  intro config
  unfold Store.record
  dsimp only
  rw [computedLast_cons_iff, ← hagree config]
  by_cases hcall : call = .reset
  · -- Nothing is in force, and nothing was computed since.
    subst hcall
    constructor
    · exact fun hnone => by cases hnone
    · rintro (hr | ⟨hr, -⟩)
      · exact absurd rfl hr.call_ne
      · exact absurd rfl hr.1
  · rw [step_of_ne_reset s w hcall]
    have hloads := load_cases s w call.named
    generalize s.load w call.named = answer at hloads ⊢
    cases hloads with
    | @kept inForce hnamed hcurrent =>
      rw [hcurrent]
      constructor
      · intro heq
        cases heq
        exact .inr ⟨⟨hcall, .inl hnamed⟩, rfl⟩
      · rintro (⟨-, hreply, -⟩ | ⟨-, hbefore⟩)
        · cases hreply
          rfl
        · exact hbefore
    | @computed inForce hanew hconfig =>
      constructor
      · intro heq
        cases heq
        exact .inl ⟨hcall, rfl, hconfig⟩
      · rintro (⟨-, hreply, -⟩ | ⟨⟨-, hpass⟩, hbefore⟩)
        · cases hreply
          rfl
        · rcases hpass with hnamed | ⟨e, hreply⟩
          · -- Nothing was named, so nothing was in force before.
            exact absurd hanew (not_anew hnamed hbefore)
          · cases hreply
    | failed hanew hconfig =>
      constructor
      · exact fun hcurrent => .inr ⟨⟨hcall, .inr ⟨_, rfl⟩⟩, hcurrent⟩
      · rintro (⟨-, hreply, -⟩ | ⟨-, hbefore⟩)
        · cases hreply
        · exact hbefore

/-- **After any calls, the configuration in force is the one that was computed last.** -/
theorem current_run_iff (calls : List (Surroundings × Call)) :
    (run calls).1.current = some config ↔ ComputedLast config (run calls).2 := by
  have hagree : Agree (run calls).1 (run calls).2 := by
    induction calls using List.reverseRecOn with
    | nil =>
      refine fun config => ⟨nofun, fun hlast => ?_⟩
      exact absurd hlast not_computedLast_nil
    | append_singleton calls last ih =>
      rw [run_concat]
      exact ih.record last.1 last.2
  exact hagree config

/-- **What every call replies.**  Without a path it is the configuration that was computed last, if
    there is one, whatever is there now.  Else it is what the document gives that is there now, and
    if that is an error, the store stays as it was. -/
theorem run_answered (calls : List (Surroundings × Call)) (w : Surroundings) (call : Call)
    (hcall : call ≠ .reset) :
    (∀ config, call.named = none → ComputedLast config (run calls).2 →
      ((run calls).1.step w call).2 = some (.ok config)) ∧
    ((call.named ≠ none ∨ ∀ config, ¬ ComputedLast config (run calls).2) →
      ∃ reply, ((run calls).1.step w call).2 = some reply ∧ w.Gives call.named reply) ∧
    (∀ e, ((run calls).1.step w call).2 = some (.error e) →
      ((run calls).1.step w call).1 = (run calls).1) := by
  have hloads := load_cases (run calls).1 w call.named
  rw [step_of_ne_reset _ w hcall]
  -- The reply is the configuration computed last or one that is computed anew.
  refine ⟨fun config hnamed hlast => ?_, fun hanew => ?_, fun e hreply => ?_⟩
  · rw [hloads.eq_of_current hnamed ((current_run_iff calls).mpr hlast)]
  · have hnone : call.named ≠ none ∨ (run calls).1.current = none :=
      hanew.imp_right fun hnever => Option.eq_none_iff_forall_ne_some.mpr fun config hcurrent =>
        hnever config ((current_run_iff calls).mp hcurrent)
    exact ⟨_, by rw [hloads.eq_of_anew hnone], w.gives_config call.named⟩
  · exact hloads.store_eq_of_error (Option.some.inj hreply)

/-- Surroundings in which there is one document, which is a list. -/
def onlyList : Surroundings := ⟨[], [("usual", .ok (.arr [.int 1]))], "usual"⟩

/-- The configuration is asked for where there is no document, and then a list is loaded. -/
def listAfterDefaults : List (Surroundings × Call) :=
  [(⟨[], [], "usual"⟩, .get), (onlyList, .load (some ""))]

/-- The defaults stay in force although the list is there. -/
theorem run_answered_list :
    Call.get ≠ .reset ∧ ComputedLast defaults (run listAfterDefaults).2 ∧
      ((run listAfterDefaults).1.step onlyList .get).2 = some (.ok defaults) := by
  have hmissing : Surroundings.config ⟨[], [], "usual"⟩ none = .ok defaults :=
    Surroundings.config_of_overrides_nil _ _ rfl
  have hlist : onlyList.config (some "") = .error (.notAnObject "usual") := rfl
  have hhistory : (run listAfterDefaults).2 =
      [⟨.load (some ""), onlyList, some (.error (.notAnObject "usual"))⟩,
       ⟨.get, ⟨[], [], "usual"⟩, some (.ok defaults)⟩] := by
    simp [listAfterDefaults, run, record, step, get, load, reload, empty, hmissing, hlist]
  have hlast : ComputedLast defaults (run listAfterDefaults).2 := by
    rw [hhistory, computedLast_cons_iff, computedLast_cons_iff]
    exact .inr ⟨⟨nofun, .inr ⟨_, rfl⟩⟩, .inl ⟨nofun, rfl, hmissing⟩⟩
  exact ⟨nofun, hlast, (run_answered listAfterDefaults _ .get nofun).1 defaults rfl hlast⟩

end Config.Store

end Reckoner
