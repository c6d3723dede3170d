import Reckoner.Proofs.Cache.Waiting

/-!
# What a call yields

What a waiter will be told is settled when it calls: the value that is still good, or what the
flight under way ends with, or what the fetch that is begun for it ends with.  Nothing that happens
later changes it.

* `CacheRun.lacks` — whether a call begins a fetch.
* `CacheRun.coming?`, `CacheRun.yield?` — what a flight ends with; what a call yields.
* `mem_agenda_call` — what a call adds to what is to come.
* `lacks_call_of_ne`, `yield?_call_of_ne` — a call for one key does not matter to another one.
* `yield?_of_told_call`, `coming?_call` — who calls is told what its call yields, or it is to come.
* `coming?_of_told_passTo`, `waits_of_passTo` — who is told something when time goes by waited for
  it, and who goes on waiting, waits for the same.
-/

namespace Reckoner.CacheRun

variable {ω ν : Type} {p : Forecast ν} {r : CacheRun ω ν} {w w' : ω} {key other : String}

/-! ### What is to come -/

/-- Whether the value of a key has to be fetched: there is none that is still good, and none is
    being fetched. -/
def lacks (r : CacheRun ω ν) (key : String) : Bool :=
  (r.peek key).isNone && !r.cache.isInFlight key

theorem lacks_iff : r.lacks key = true ↔ r.peek key = none ∧ r.cache.isInFlight key = false := by
  simp [lacks]

/-- What the flight of a key ends with, unless it never ends. -/
def coming? (r : CacheRun ω ν) (key : String) : Option (Option ν) :=
  (r.agenda.find? (·.key == key)).map (·.value)

/-- **What a call yields**, where `d` is what a fetch would bring: the value that is still good, or
    what the flight under way ends with, or what a fetch that begins now ends with.  A call that
    waits for a flight without end yields nothing. -/
def yield? (r : CacheRun ω ν) (key : String) (d : Delivery ν) : Option (Option ν) :=
  match r.peek key with
  | some v => some (some v)
  | none => if r.cache.isInFlight key then r.coming? key else d.ending r.allowance r.now

/-- Of an agenda with different keys, the arrival with a key is the one that is found. -/
theorem find?_of_mem {agenda : List (Arrival ν)} (hkeys : (agenda.map (·.key)).Nodup)
    {a : Arrival ν} (ha : a ∈ agenda) : agenda.find? (·.key == a.key) = some a := by
  cases hfind : agenda.find? (·.key == a.key) with
  | none =>
    have hne := List.find?_eq_none.mp hfind a ha
    simp at hne
  | some b =>
    have hkey : b.key = a.key := by simpa using List.find?_some hfind
    rw [List.inj_on_of_nodup_map hkeys (List.mem_of_find?_eq_some hfind) ha hkey]

/-- An arrival of the agenda brings what is to come for its key. -/
theorem coming?_of_mem (h : r.cache.Expects p r.agenda) {a : Arrival ν} (ha : a ∈ r.agenda) :
    r.coming? a.key = some a.value := by
  rw [coming?, find?_of_mem h.keys_nodup ha]
  rfl

/-- An arrival that is put on the agenda does not matter to the other keys. -/
theorem find?_insert_of_ne (a : Arrival ν) (agenda : List (Arrival ν)) (h : other ≠ a.key) :
    (a.insert agenda).find? (·.key == other) = agenda.find? (·.key == other) := by
  have hbeq : (a.key == other) = false := beq_false_of_ne h.symm
  induction agenda with
  | nil => simp [Arrival.insert, hbeq]
  | cons b rest ih =>
    unfold Arrival.insert
    split
    · rw [List.find?_cons, List.find?_cons, ih]
    · rw [List.find?_cons, hbeq]

/-- An arrival that is put on the agenda is found, if no other one has its key. -/
theorem find?_insert_self {a : Arrival ν} {agenda : List (Arrival ν)}
    (h : ∀ b ∈ agenda, b.key ≠ a.key) : (a.insert agenda).find? (·.key == a.key) = some a := by
  induction agenda with
  | nil => simp [Arrival.insert]
  | cons b rest ih =>
    obtain ⟨hb, hrest⟩ := List.forall_mem_cons.mp h
    unfold Arrival.insert
    split
    · rw [List.find?_cons, beq_false_of_ne hb, ih hrest]
    · simp

/-! ### Calls -/

@[simp] theorem now_call (r : CacheRun ω ν) (w : ω) (key : String) (d : Delivery ν) :
    (r.call w key d).1.now = r.now := by
  rcases r.call_cases w key d with ⟨v, -, hcall⟩ | ⟨f, -, -, hcall⟩ | ⟨-, -, hcall⟩ <;> rw [hcall]

/-- A call stores nothing. -/
@[simp] theorem entries_call (r : CacheRun ω ν) (w : ω) (key : String) (d : Delivery ν) :
    (r.call w key d).1.cache.entries = r.cache.entries := by
  rcases r.call_cases w key d with ⟨v, -, hcall⟩ | ⟨f, -, -, hcall⟩ | ⟨-, -, hcall⟩ <;>
    rw [hcall] <;> rfl

/-- **Inversion of what is to come after a call**: it was to come before, or it is what the call
    fetches because the key is lacking. -/
theorem mem_agenda_call {d : Delivery ν} {a : Arrival ν} (h : a ∈ (r.call w key d).1.agenda) :
    a ∈ r.agenda ∨
      r.lacks key = true ∧ a.key = key ∧ d.ending r.allowance r.now = some a.value := by
  -- Only a call that starts a fetch adds an arrival, and it is the one of this fetch.
  rcases r.call_cases w key d with ⟨v, -, hcall⟩ | ⟨f, -, -, hcall⟩ | ⟨hpeek, hflight, hcall⟩ <;>
    rw [hcall] at h
  · exact .inl h
  · exact .inl h
  · have hlacks : r.lacks key = true :=
      lacks_iff.mpr ⟨hpeek, by simp [RateCache.isInFlight, hflight]⟩
    cases harrival : r.arrival? key d with
    | none =>
      rw [harrival] at h
      exact .inl h
    | some b =>
      rw [harrival] at h
      rcases List.mem_cons.mp ((b.insert_perm r.agenda).mem_iff.mp h) with rfl | h
      · exact .inr ⟨hlacks, r.arrival?_eq_some harrival⟩
      · exact .inl h

@[simp] theorem peek_call (r : CacheRun ω ν) (w : ω) (key : String) (d : Delivery ν)
    (other : String) : (r.call w key d).1.peek other = r.peek other := by
  rcases r.call_cases w key d with ⟨v, -, hcall⟩ | ⟨f, -, -, hcall⟩ | ⟨-, -, hcall⟩ <;>
    rw [hcall] <;> rfl

/-- The other keys are in flight as before. -/
theorem isInFlight_call_of_ne (r : CacheRun ω ν) (w : ω) (d : Delivery ν) (h : other ≠ key) :
    (r.call w key d).1.cache.isInFlight other = r.cache.isInFlight other := by
  rcases r.call_cases w key d with ⟨v, -, hcall⟩ | ⟨f, -, -, hcall⟩ | ⟨-, -, hcall⟩ <;> rw [hcall]
  · rfl
  · exact congrArg Option.isSome (Entries.lookup_put_of_ne _ _ h)
  · exact congrArg Option.isSome (Entries.lookup_put_of_ne _ _ h)

/-- What is to come for another key is as before. -/
theorem coming?_call_of_ne (r : CacheRun ω ν) (w : ω) (d : Delivery ν) (h : other ≠ key) :
    (r.call w key d).1.coming? other = r.coming? other := by
  rcases r.call_cases w key d with ⟨v, -, hcall⟩ | ⟨f, -, -, hcall⟩ | ⟨-, -, hcall⟩ <;> rw [hcall]
  · rfl
  · rfl
  · cases ha : r.arrival? key d with
    | none => rfl
    | some a =>
      obtain ⟨hkey, -⟩ := r.arrival?_eq_some ha
      exact congrArg _ (find?_insert_of_ne a r.agenda (hkey ▸ h))

theorem lacks_call_of_ne (r : CacheRun ω ν) (w : ω) (d : Delivery ν) (h : other ≠ key) :
    (r.call w key d).1.lacks other = r.lacks other := by
  simp only [lacks, peek_call, isInFlight_call_of_ne r w d h]

/-- **A call for one key changes nothing that a call for another one yields.** -/
theorem yield?_call_of_ne (r : CacheRun ω ν) (w : ω) (d : Delivery ν) (h : other ≠ key)
    (d' : Delivery ν) : (r.call w key d).1.yield? other d' = r.yield? other d' := by
  simp only [yield?, peek_call, isInFlight_call_of_ne r w d h, coming?_call_of_ne r w d h,
    allowance_call, now_call]

/-- What is told at once is told to the waiter that calls, and it is what the call yields. -/
theorem yield?_of_told_call {d : Delivery ν} {v : Option ν}
    (h : Notice.told w' other v ∈ (r.call w key d).2) :
    w' = w ∧ other = key ∧ r.yield? key d = some v := by
  rcases r.call_cases w key d with ⟨x, hpeek, hcall⟩ | ⟨f, -, -, hcall⟩ | ⟨-, -, hcall⟩ <;>
    rw [hcall] at h
  · cases List.mem_singleton.mp h
    have hpeek : r.peek key = some x := hpeek
    exact ⟨rfl, rfl, by simp only [yield?, hpeek]⟩
  · cases h
  · split at h
    · cases List.mem_singleton.mp h
    · cases h

/-- Nobody but the waiter that calls begins to wait. -/
theorem waits_of_call {d : Delivery ν} (h : (r.call w key d).1.cache.Waits w' other) :
    w' = w ∧ other = key ∧ r.peek key = none ∨ r.cache.Waits w' other := by
  rw [cache_call] at h
  exact RateCache.waits_of_call h

/-- A call does not change what a flight under way ends with. -/
theorem coming?_call_of_isInFlight {d : Delivery ν} (h : r.cache.isInFlight other = true) :
    (r.call w key d).1.coming? other = r.coming? other := by
  by_cases hkey : other = key
  · subst hkey
    rcases r.call_cases w other d with ⟨v, -, hcall⟩ | ⟨f, -, -, hcall⟩ | ⟨-, hnone, hcall⟩
    · rw [hcall]
      rfl
    · rw [hcall]
      rfl
    · simp [RateCache.isInFlight, hnone] at h
  · exact coming?_call_of_ne r w d hkey

/-- **What a call yields is to come**, if nothing is there already. -/
theorem coming?_call (h : r.cache.Expects p r.agenda) (hpeek : r.peek key = none)
    (w : ω) (d : Delivery ν) : (r.call w key d).1.coming? key = r.yield? key d := by
  rcases r.call_cases w key d with ⟨v, hv, -⟩ | ⟨f, -, hflight, hcall⟩ | ⟨-, hflight, hcall⟩
  · cases hpeek.symm.trans hv
  · have hfly : r.cache.isInFlight key = true := by simp [RateCache.isInFlight, hflight]
    simp only [yield?, hpeek, hfly, if_true, hcall]
    rfl
  · have hfly : r.cache.isInFlight key = false := by simp [RateCache.isInFlight, hflight]
    -- No arrival on the agenda is for the key, because no fetch of it is under way.
    have hnew : ∀ b ∈ r.agenda, b.key ≠ key := by
      rintro b hb rfl
      exact absurd (h.flies b hb) (by simp [hfly])
    simp only [yield?, hpeek, hfly, Bool.false_eq_true, if_false, hcall, coming?]
    cases ha : r.arrival? key d with
    | none =>
      -- A fetch without an arrival never ends, and nothing is to come of it.
      have hending := r.isSome_arrival? key d
      rw [ha, Option.isSome_none, eq_comm, Option.isSome_eq_false_iff, Option.isNone_iff_eq_none]
        at hending
      rw [hending, Option.elim_none, Option.map_eq_none_iff, List.find?_eq_none]
      simpa using hnew
    | some a =>
      obtain ⟨rfl, hending⟩ := r.arrival?_eq_some ha
      rw [hending, Option.elim_some, find?_insert_self hnew]
      rfl

/-- A call that is certain to end yields something. -/
theorem isSome_yield? (h : r.cache.Expects p r.agenda) {d : Delivery ν}
    (hd : p.Covers r.allowance key d) (hends : p.Ends key) : (r.yield? key d).isSome = true := by
  unfold yield?
  split
  · rfl
  · split
    · next hflight =>
      obtain ⟨a, ha, rfl⟩ := h.arrives key hflight hends
      rw [coming?_of_mem h ha]
      rfl
    · exact (hd r.now).2 hends

/-! ### Time that goes by -/

/-- Who waits after a flight has ended has waited before, for another one. -/
theorem waits_of_arrive {a : Arrival ν} (h : (r.arrive a).1.cache.Waits w key) :
    r.cache.Waits w key ∧ a.key ≠ key := by
  obtain ⟨f, hf, hw⟩ := h
  obtain ⟨hne, hf⟩ := lookup_flights_arrive hf
  exact ⟨⟨f, hf, hw⟩, hne⟩

/-- Who is told something when a flight ends has waited for it. -/
theorem waits_of_told_arrive {a : Arrival ν} {v : Option ν}
    (h : Notice.told w key v ∈ (r.arrive a).2) : r.cache.Waits w key := by
  cases hf : r.cache.flights.lookup a.key with
  | none =>
    simp only [arrive, RateCache.settle_of_no_flight r.cache a.due a.value hf] at h
    cases h
  | some f =>
    rw [arrive_of_flight hf] at h
    obtain ⟨w', hw, heq⟩ := List.mem_map.mp h
    cases heq
    exact ⟨f, hf, hw⟩

theorem waits_of_told_arriveAll {due : List (Arrival ν)} {v : Option ν}
    (h : Notice.told w key v ∈ (r.arriveAll due).2) : r.cache.Waits w key := by
  induction due generalizing r with
  | nil => cases h
  | cons a rest ih =>
    rcases List.mem_append.mp h with h | h
    · exact waits_of_told_arrive h
    · exact (waits_of_arrive (ih h)).1

/-- **Who is told something when time goes by has waited for it**, and it is what was to come. -/
theorem coming?_of_told_passTo (h : r.cache.Expects p r.agenda) {moment : Rat} {v : Option ν}
    (htold : Notice.told w key v ∈ (r.passTo moment).2) :
    r.cache.Waits w key ∧ r.coming? key = some v := by
  rw [passTo_eq] at htold
  obtain ⟨a, ha, rfl, rfl⟩ := exists_of_told_arriveAll htold
  exact ⟨(waits_of_told_arriveAll htold).congr rfl, coming?_of_mem h (List.takeWhile_subset _ ha)⟩

/-- **What is to come of a flight that goes on** is as before. -/
theorem coming?_passTo {moment : Rat} (h : (r.passTo moment).1.cache.isInFlight key = true) :
    (r.passTo moment).1.coming? key = r.coming? key := by
  obtain ⟨f, hf⟩ := Option.isSome_iff_exists.mp h
  obtain ⟨hdue, -⟩ := lookup_flights_passTo hf
  have hnone : (r.agenda.takeWhile (·.due ≤ moment)).find? (·.key == key) = none :=
    List.find?_eq_none.mpr fun a ha => by simpa using hdue a ha
  rw [coming?, coming?, agenda_passTo]
  conv_rhs =>
    rw [← List.takeWhile_append_dropWhile (p := (·.due ≤ moment)) (l := r.agenda),
      List.find?_append, hnone, Option.none_or]

/-- **Who goes on waiting waits for the same** as before. -/
theorem waits_of_passTo {moment : Rat} (h : (r.passTo moment).1.cache.Waits w key) :
    r.cache.Waits w key ∧ (r.passTo moment).1.coming? key = r.coming? key := by
  have hcoming := coming?_passTo h.isInFlight
  obtain ⟨f, hf, hw⟩ := h
  exact ⟨⟨f, (lookup_flights_passTo hf).2, hw⟩, hcoming⟩

end Reckoner.CacheRun
