import Reckoner.Proofs.Cache.Interleaving
import Reckoner.Proofs.Cache.Moments

/-!
# What the past of a rate cache says

A history holds what has happened, the latest first.  The definitions here read it without looking
at the cache.

* `DeliveredSince` — a value was delivered, and no clearing has come since.
* `lastDelivery` — the latest delivery for a key since the last clearing.
* `UnderWay`, `Unheard` — a fetch was started and has not ended; nothing has happened to it yet.
* `WaitsFor` — a waiter has called for a fetch and has not given up since.
* `waitingOn` — all waiters of a fetch, in the order of their calls.
-/

namespace Reckoner

namespace RateCache

variable {ω ν : Type}

/-- What has happened, the latest first. -/
abbrev History (ω ν : Type) := List (Happening ω ν)

/-! ### Deliveries -/

/-- What a happening delivers for a key, as the entry that it makes. -/
def Happening.delivery? (key : String) : Happening ω ν → Option (Entry ν)
  | .settled f t ending _ => if f.key = key then ending.value?.map (⟨·, t⟩) else none
  | _ => none

/-- The value `v` was delivered for a key at the time `t`, and there was no clearing `since`. -/
def DeliveredSince (key : String) (v : ν) (t : Rat) (since h : History ω ν) : Prop :=
  ∃ f told before, h = since ++ .settled f t (.delivered v) told :: before ∧ f.key = key ∧
    .cleared ∉ since

/-- The latest delivery for a key since the last clearing. -/
def lastDelivery (key : String) : History ω ν → Option (Entry ν)
  | [] => none
  | .cleared :: _ => none
  | x :: h => (x.delivery? key).or (lastDelivery key h)

/-- A call delivers nothing. -/
@[simp] theorem lastDelivery_called (key : String) (w : ω) (k : String) (t : Rat)
    (r : Reception ν) (h : History ω ν) :
    lastDelivery key (.called w k t r :: h) = lastDelivery key h := rfl

/-- Nor does a caller who gives up. -/
@[simp] theorem lastDelivery_cancelled (key : String) (w : ω) (h : History ω ν) :
    lastDelivery key (.cancelled w :: h) = lastDelivery key h := rfl

/-- Clearing makes all deliveries count for nothing. -/
@[simp] theorem lastDelivery_cleared (key : String) (h : History ω ν) :
    lastDelivery key (.cleared :: h) = none := rfl

/-- Only a clearing makes one forget what was delivered before. -/
theorem lastDelivery_cons {key : String} {x : Happening ω ν} (hx : x ≠ .cleared)
    (h : History ω ν) :
    lastDelivery key (x :: h) = (x.delivery? key).or (lastDelivery key h) := by
  cases x with
  | cleared => exact absurd rfl hx
  | called | settled | cancelled => rfl

/-- The end of a fetch delivers its value, if there is one, for its own key. -/
theorem lastDelivery_settled (key : String) (f : Fetch) (t : Rat) (ending : Ending ν)
    (told : List (ω × Option ν)) (h : History ω ν) :
    lastDelivery key (.settled f t ending told :: h) =
      (if f.key = key then ending.value?.map (⟨·, t⟩) else none).or (lastDelivery key h) := rfl

/-- A happening that delivers something is the end of a fetch with a value. -/
theorem Happening.eq_settled_of_delivery? {key : String} {x : Happening ω ν} {e : Entry ν}
    (h : x.delivery? key = some e) :
    ∃ f told, x = .settled f e.storedAt (.delivered e.value) told ∧ f.key = key := by
  cases x with
  | settled f t ending told =>
    by_cases hkey : f.key = key
    · cases ending with
      | delivered v =>
        simp only [delivery?, hkey, Ending.value?, if_true, Option.map_some,
          Option.some.injEq] at h
        subst h
        exact ⟨f, told, rfl, hkey⟩
      | empty | raised | timedOut => simp [delivery?, Ending.value?] at h
    · simp [delivery?, hkey] at h
  | called | cancelled | cleared => simp [delivery?] at h

/-- The latest delivery was made, and none for its key has come since. -/
theorem deliveredSince_of_lastDelivery {key : String} {h : History ω ν} {e : Entry ν}
    (hlast : lastDelivery key h = some e) :
    ∃ since, DeliveredSince key e.value e.storedAt since h ∧
      ∀ x ∈ since, x.delivery? key = none := by
  induction h with
  | nil => simp [lastDelivery] at hlast
  | cons x h ih =>
    -- Behind a clearing there is no delivery.
    have hx : x ≠ .cleared := by
      rintro rfl
      simp at hlast
    rw [lastDelivery_cons hx] at hlast
    cases hdelivery : x.delivery? key with
    | some e' =>
      obtain rfl : e' = e := by simpa [hdelivery] using hlast
      obtain ⟨f, told, rfl, hkey⟩ := Happening.eq_settled_of_delivery? hdelivery
      exact ⟨[], ⟨f, told, h, rfl, hkey, List.not_mem_nil⟩, by simp⟩
    | none =>
      obtain ⟨since, ⟨f, told, before, rfl, hkey, hclear⟩, hnone⟩ :=
        ih (by simpa [hdelivery] using hlast)
      refine ⟨x :: since, ⟨f, told, before, rfl, hkey, ?_⟩, ?_⟩
      · simp [hclear, Ne.symm hx]
      · simpa [hdelivery] using hnone

/-! ### Times -/

/-- When something happened, if the clock was looked at. -/
def Happening.time? : Happening ω ν → Option Rat
  | .called _ _ t _ | .settled _ t _ _ => some t
  | .cancelled _ | .cleared => none

/-- The times of a history do not go back. -/
def Chronological (h : History ω ν) : Prop :=
  h.Pairwise fun x y => ∀ t u, x.time? = some t → y.time? = some u → u ≤ t

/-- Since a delivery that no clearing has followed there is a latest one, which is not older. -/
theorem DeliveredSince.exists_lastDelivery {key : String} {v : ν} {t : Rat}
    {since h : History ω ν} (hd : DeliveredSince key v t since h) (hchron : Chronological h) :
    ∃ e, lastDelivery key h = some e ∧ t ≤ e.storedAt := by
  obtain ⟨f, told, before, rfl, hkey, hclear⟩ := hd
  induction since with
  | nil => exact ⟨⟨v, t⟩, by simp [lastDelivery_settled, hkey, Ending.value?], le_refl t⟩
  | cons x since ih =>
    obtain ⟨hx, hrest⟩ := List.pairwise_cons.mp hchron
    have hne : x ≠ .cleared := fun hx => hclear (hx ▸ List.mem_cons_self)
    obtain ⟨e, hlast, hle⟩ := ih hrest fun hmem => hclear (List.mem_cons_of_mem x hmem)
    rw [List.cons_append, lastDelivery_cons hne]
    cases hdelivery : x.delivery? key with
    | none => exact ⟨e, hlast, hle⟩
    | some e' =>
      obtain ⟨g, told', rfl, -⟩ := Happening.eq_settled_of_delivery? hdelivery
      -- A later delivery replaces the one in question, and it is not older.
      refine ⟨e', rfl, ?_⟩
      exact hx (.settled f t (.delivered v) told) (by simp) e'.storedAt t rfl rfl

/-! ### Fetches under way -/

/-- A fetch was started and has not ended. -/
def UnderWay (f : Fetch) (h : History ω ν) : Prop :=
  (∃ w t, .called w f.key t (.started f) ∈ h) ∧ ∀ t ending told, .settled f t ending told ∉ h

/-- The fetch that something happened to. -/
def Happening.fetch? : Happening ω ν → Option Fetch
  | .called _ _ _ r => r.fetch?
  | .settled f _ _ _ => some f
  | .cancelled _ | .cleared => none

/-- Nothing has happened to a fetch yet. -/
def Unheard (f : Fetch) (h : History ω ν) : Prop := ∀ x ∈ h, x.fetch? ≠ some f

/-- A fetch was not heard of if the latest happening is about another one, and no earlier one is
    about it. -/
theorem unheard_cons_iff (f : Fetch) (x : Happening ω ν) (h : History ω ν) :
    Unheard f (x :: h) ↔ x.fetch? ≠ some f ∧ Unheard f h := by
  simp [Unheard]

/-- A fetch that is under way was heard of. -/
theorem UnderWay.not_unheard {f : Fetch} {h : History ω ν} (hf : UnderWay f h) :
    ¬ Unheard f h := by
  intro hun
  obtain ⟨⟨w, t, hmem⟩, -⟩ := hf
  exact hun _ hmem rfl

/-- A call that starts no fetch leaves the fetches under way as they are. -/
theorem underWay_cons_called (f : Fetch) (w : ω) (key : String) (t : Rat) {r : Reception ν}
    (hr : r ≠ .started f) (h : History ω ν) :
    UnderWay f (.called w key t r :: h) ↔ UnderWay f h := by
  simp [UnderWay, Ne.symm hr]

/-- A call that starts a fetch adds it to those under way. -/
theorem underWay_cons_started (f g : Fetch) (w : ω) (t : Rat) {h : History ω ν}
    (hg : Unheard g h) :
    UnderWay f (.called w g.key t (.started g) :: h) ↔ f = g ∨ UnderWay f h := by
  by_cases hfg : f = g
  · subst hfg
    -- A fetch that was never heard of cannot have ended.
    have hend : ∀ u ending told, .settled f u ending told ∉ h :=
      fun u ending told hmem => hg _ hmem rfl
    exact ⟨fun _ => .inl rfl, fun _ => ⟨⟨w, t, List.mem_cons_self⟩, by simp [hend]⟩⟩
  · simp [UnderWay, hfg]

/-- A fetch that has ended is not under way, and the others are as before. -/
theorem underWay_cons_settled (f g : Fetch) (t : Rat) (ending : Ending ν)
    (told : List (ω × Option ν)) (h : History ω ν) :
    UnderWay f (.settled g t ending told :: h) ↔ UnderWay f h ∧ f ≠ g := by
  by_cases hfg : f = g
  · subst hfg
    constructor
    · rintro ⟨-, hend⟩
      exact absurd List.mem_cons_self (hend t ending told)
    · rintro ⟨-, hne⟩
      exact absurd rfl hne
  · simp [UnderWay, hfg]

/-- A caller who gives up ends no fetch. -/
theorem underWay_cons_cancelled (f : Fetch) (w : ω) (h : History ω ν) :
    UnderWay f (.cancelled w :: h) ↔ UnderWay f h := by
  simp [UnderWay]

/-- Nor does clearing. -/
theorem underWay_cons_cleared (f : Fetch) (h : History ω ν) :
    UnderWay f (.cleared :: h) ↔ UnderWay f h := by
  simp [UnderWay]

/-! ### Waiters -/

/-- A waiter has called for a fetch and has not given up since. -/
def WaitsFor (f : Fetch) (w : ω) (h : History ω ν) : Prop :=
  ∃ key t r since before, h = since ++ .called w key t r :: before ∧ r.fetch? = some f ∧
    .cancelled w ∉ since

/-- Nobody waits before anything has happened. -/
theorem not_waitsFor_nil (f : Fetch) (w : ω) : ¬ WaitsFor f w ([] : History ω ν) := by
  rintro ⟨key, t, r, since, before, heq, -⟩
  simp at heq

/-- The latest happening is the call, or it is not the giving up and the call was before it. -/
theorem waitsFor_cons_iff (f : Fetch) (w : ω) (x : Happening ω ν) (h : History ω ν) :
    WaitsFor f w (x :: h) ↔
      (∃ key t r, x = .called w key t r ∧ r.fetch? = some f) ∨
        x ≠ .cancelled w ∧ WaitsFor f w h := by
  constructor
  · rintro ⟨key, t, r, since, before, heq, hr, hcancel⟩
    -- The call is the latest happening, or it lies behind that.
    cases since with
    | nil =>
      obtain ⟨rfl, rfl⟩ := List.cons.inj heq
      exact .inl ⟨key, t, r, rfl, hr⟩
    | cons y since =>
      obtain ⟨rfl, rfl⟩ := List.cons.inj heq
      obtain ⟨hne, hrest⟩ := List.ne_and_not_mem_of_not_mem_cons hcancel
      exact .inr ⟨Ne.symm hne, key, t, r, since, before, rfl, hr, hrest⟩
  · rintro (⟨key, t, r, rfl, hr⟩ | ⟨hne, key, t, r, since, before, rfl, hr, hcancel⟩)
    · exact ⟨key, t, r, [], h, rfl, hr, List.not_mem_nil⟩
    · refine ⟨key, t, r, x :: since, before, rfl, hr, ?_⟩
      simp [hcancel, Ne.symm hne]

variable [DecidableEq ω]

/-- The waiters of a fetch, in the order of their calls. -/
def waitingOn (f : Fetch) : History ω ν → List ω
  | [] => []
  | .called w _ _ r :: h => if r.fetch? = some f then waitingOn f h ++ [w] else waitingOn f h
  | .cancelled w :: h => (waitingOn f h).filter (· ≠ w)
  | .settled .. :: h | .cleared :: h => waitingOn f h

/-- The waiters of a fetch are those who have called for it and have not given up since. -/
theorem mem_waitingOn_iff (f : Fetch) (w : ω) (h : History ω ν) :
    w ∈ waitingOn f h ↔ WaitsFor f w h := by
  induction h with
  | nil => simp [waitingOn, not_waitsFor_nil]
  | cons x h ih =>
    rw [waitsFor_cons_iff]
    cases x with
    | called w' key t r =>
      by_cases hr : r.fetch? = some f
      · simp [waitingOn, hr, ih, or_comm, eq_comm]
      · simp [waitingOn, hr, ih]
    | cancelled w' =>
      have hne : (.cancelled w' : Happening ω ν) ≠ .cancelled w ↔ w ≠ w' := by simp [eq_comm]
      simp [waitingOn, ih, hne, and_comm]
    | settled | cleared => simp [waitingOn, ih]

/-- Nobody waits for a fetch that was never heard of. -/
theorem Unheard.waitingOn_eq_nil {f : Fetch} {h : History ω ν} (hf : Unheard f h) :
    waitingOn f h = [] := by
  refine List.eq_nil_iff_forall_not_mem.mpr fun w hw => ?_
  obtain ⟨key, t, r, since, before, rfl, hr, -⟩ := (mem_waitingOn_iff f w h).mp hw
  exact hf (.called w key t r) (by simp) hr

end RateCache

end Reckoner
