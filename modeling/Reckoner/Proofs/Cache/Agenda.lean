import Mathlib.Data.List.Nodup
import Mathlib.Data.List.TakeWhile
import Reckoner.Proofs.Cache.Moments
import Reckoner.Proofs.Cache.Operations

/-!
# The agenda of a run

A run of a rate cache keeps an agenda: the ends of the flights that are to come.  What a cache and
its agenda promise each other is stated against a *forecast*, which says what the fetches of a key
may bring and which fetches are certain to end.

* `Arrival.takeWhile_dropWhile_eq_filter` — what is due by a moment stands before what is due later.
* `Forecast` — what fetches may bring, and which of them end.
* `Forecast.Covers` — a fetch does what a forecast says.
* `RateCache.Expects` — the invariant: what is stored or to come is what the forecast says, every
  arrival belongs to a flight, every flight that ends has its arrival, and arrivals are in order.
* `Expects.afterStart`, `Expects.afterEnd` — the beginning and the end of a flight keep it.
-/

namespace Reckoner

variable {ω ν : Type}

/-! ### Arrivals in order -/

namespace Arrival

/-- An arrival is put among the others, which stay as they are. -/
theorem insert_perm (a : Arrival ν) (agenda : List (Arrival ν)) :
    (a.insert agenda).Perm (a :: agenda) := by
  induction agenda with
  | nil => exact .refl _
  | cons b rest ih =>
    unfold insert
    split
    · exact (ih.cons b).trans (.swap a b rest)
    · exact .refl _

/-- An agenda in order stays in order. -/
theorem insert_sorted (a : Arrival ν) {agenda : List (Arrival ν)}
    (h : agenda.Pairwise fun b c => b.due ≤ c.due) :
    (a.insert agenda).Pairwise fun b c => b.due ≤ c.due := by
  induction agenda with
  | nil => simp [insert]
  | cons b rest ih =>
    rw [List.pairwise_cons] at h
    obtain ⟨hb, hrest⟩ := h
    unfold insert
    split
    · next hle =>
      rw [List.pairwise_cons]
      -- The new arrival goes behind this one, which comes before everything that follows.
      refine ⟨?_, ih hrest⟩
      intro c hc
      rcases List.mem_cons.mp ((insert_perm a rest).mem_iff.mp hc) with rfl | hc
      · exact hle
      · exact hb c hc
    · next hlt =>
      have hlt : a.due ≤ b.due := le_of_not_ge hlt
      rw [List.pairwise_cons, List.pairwise_cons]
      -- The new arrival goes first, since nothing behind this one is due before it.
      refine ⟨?_, hb, hrest⟩
      intro c hc
      rcases List.mem_cons.mp hc with rfl | hc
      · exact hlt
      · exact hlt.trans (hb c hc)

/-- Of an agenda in order, the first part holds all arrivals that are due by a moment. -/
theorem mem_takeWhile_of_due {agenda : List (Arrival ν)}
    (h : agenda.Pairwise fun b c => b.due ≤ c.due) {a : Arrival ν} (ha : a ∈ agenda)
    {moment : Rat} (hdue : a.due ≤ moment) : a ∈ agenda.takeWhile (·.due ≤ moment) := by
  induction agenda with
  | nil => cases ha
  | cons b rest ih =>
    rw [List.pairwise_cons] at h
    obtain ⟨hb, hrest⟩ := h
    -- Whatever stands before an arrival that is due is due itself.
    have hbdue : b.due ≤ moment := by
      rcases List.mem_cons.mp ha with rfl | ha
      · exact hdue
      · exact (hb a ha).trans hdue
    rw [List.takeWhile_cons_of_pos (by simpa using hbdue)]
    rcases List.mem_cons.mp ha with rfl | ha
    · exact List.mem_cons_self
    · exact List.mem_cons_of_mem b (ih hrest ha)

/-- Of an agenda in order, the second part holds only arrivals that are due later. -/
theorem lt_due_of_mem_dropWhile {agenda : List (Arrival ν)}
    (h : agenda.Pairwise fun b c => b.due ≤ c.due) {a : Arrival ν} {moment : Rat}
    (ha : a ∈ agenda.dropWhile (·.due ≤ moment)) : moment < a.due := by
  induction agenda with
  | nil => cases ha
  | cons b rest ih =>
    rw [List.pairwise_cons] at h
    obtain ⟨hb, hrest⟩ := h
    by_cases hbdue : b.due ≤ moment
    · rw [List.dropWhile_cons_of_pos (by simpa using hbdue)] at ha
      exact ih hrest ha
    · rw [List.dropWhile_cons_of_neg (by simpa using hbdue)] at ha
      have hlt : moment < b.due := lt_of_not_ge hbdue
      rcases List.mem_cons.mp ha with rfl | ha
      · exact hlt
      · exact hlt.trans_le (hb a ha)

/-- Of an agenda in order, the first part holds exactly the arrivals that are due by a moment, and
    the second part those that are due later. -/
theorem takeWhile_dropWhile_eq_filter {agenda : List (Arrival ν)}
    (h : agenda.Pairwise fun b c => b.due ≤ c.due) (moment : Rat) :
    agenda.takeWhile (·.due ≤ moment) = agenda.filter (·.due ≤ moment) ∧
      agenda.dropWhile (·.due ≤ moment) = agenda.filter fun a => !decide (a.due ≤ moment) := by
  have hdue : ∀ a ∈ agenda.takeWhile (·.due ≤ moment), decide (a.due ≤ moment) = true :=
    fun a ha => List.mem_takeWhile_imp (p := fun a : Arrival ν => decide (a.due ≤ moment)) ha
  have hlater : ∀ a ∈ agenda.dropWhile (·.due ≤ moment), decide (a.due ≤ moment) = false :=
    fun a ha => by simpa using lt_due_of_mem_dropWhile h ha
  constructor <;>
    conv_rhs => rw [← List.takeWhile_append_dropWhile (p := (·.due ≤ moment)) (l := agenda),
      List.filter_append]
  · rw [List.filter_eq_self.mpr hdue,
      List.filter_eq_nil_iff.mpr fun a ha => by simp [hlater a ha], List.append_nil]
  · rw [List.filter_eq_nil_iff.mpr fun a ha => by simp [hdue a ha],
      List.filter_eq_self.mpr fun a ha => by simp [hlater a ha], List.nil_append]

end Arrival

/-! ### Forecasts -/

/-- What the fetches of each key may bring, and the keys whose fetches are certain to end. -/
structure Forecast (ν : Type) where
  Brings : String → Option ν → Prop
  Ends : String → Prop

/-- What a fetch that begins at a moment ends with, unless it never ends. -/
def Delivery.ending (allowance : Span) (now : Rat) (d : Delivery ν) : Option (Option ν) :=
  (d.end? allowance now).map (·.2)

/-- A fetch does what a forecast says, whenever it begins: it ends with something that it may bring,
    and it does end where that is certain. -/
def Forecast.Covers (p : Forecast ν) (allowance : Span) (key : String) (d : Delivery ν) : Prop :=
  ∀ now, (∀ v, d.ending allowance now = some v → p.Brings key v) ∧
    (p.Ends key → (d.ending allowance now).isSome = true)

/-- The forecast that knows nothing. -/
def Forecast.unknown : Forecast ν where
  Brings _ _ := True
  Ends _ := False

/-- Every fetch does what a forecast says that knows nothing. -/
theorem Forecast.covers_unknown (allowance : Span) (key : String) (d : Delivery ν) :
    Forecast.unknown.Covers allowance key d := fun _ => ⟨fun _ _ => trivial, False.elim⟩

/-- The forecast that knows how each fetch ends. -/
def Forecast.exact (ending : String → Option (Option ν)) : Forecast ν where
  Brings key v := ending key = some v
  Ends key := (ending key).isSome = true

namespace CacheRun

/-- An arrival is that of the fetch: its key is that of the fetch, and its value is what the fetch
    ends with. -/
theorem arrival?_eq_some (r : CacheRun ω ν) {key : String} {d : Delivery ν} {a : Arrival ν}
    (h : r.arrival? key d = some a) :
    a.key = key ∧ d.ending r.allowance r.now = some a.value := by
  obtain ⟨⟨due, value⟩, hend, rfl⟩ := Option.map_eq_some_iff.mp h
  exact ⟨rfl, by rw [Delivery.ending, hend]; rfl⟩

/-- A fetch has an arrival exactly if it ends. -/
theorem isSome_arrival? (r : CacheRun ω ν) (key : String) (d : Delivery ν) :
    (r.arrival? key d).isSome = (d.ending r.allowance r.now).isSome := by
  rw [arrival?, Delivery.ending, Option.isSome_map, Option.isSome_map]

end CacheRun

namespace RateCache

/-! ### The invariant -/

/-- **What a cache and its agenda promise each other.** What is stored and what is to come is what
    the forecast says; every arrival belongs to a flight, and every flight that is certain to end
    has its arrival; arrivals have different keys and are in order. -/
structure Expects (p : Forecast ν) (c : RateCache ω ν) (agenda : List (Arrival ν)) : Prop where
  stored : ∀ key e, c.entries.lookup key = some e → p.Brings key (some e.value)
  coming : ∀ a ∈ agenda, p.Brings a.key a.value
  flies : ∀ a ∈ agenda, c.isInFlight a.key = true
  arrives : ∀ key, c.isInFlight key = true → p.Ends key → ∃ a ∈ agenda, a.key = key
  keys_nodup : (agenda.map (·.key)).Nodup
  sorted : agenda.Pairwise fun a b => a.due ≤ b.due

namespace Expects

variable {p : Forecast ν} {c : RateCache ω ν} {agenda : List (Arrival ν)}

/-- An empty cache promises nothing. -/
theorem empty (p : Forecast ν) (lifetime : Span) :
    (RateCache.empty lifetime : RateCache ω ν).Expects p [] where
  stored := by simp [RateCache.empty]
  coming := by simp
  flies := by simp
  arrives := by simp [RateCache.empty, isInFlight]
  keys_nodup := by simp
  sorted := by simp

/-- A value that is still good is one that the forecast says. -/
theorem brings_of_peek (h : c.Expects p agenda) {now : Rat} {key : String} {v : ν}
    (hpeek : c.peek now key = some v) : p.Brings key (some v) := by
  obtain ⟨e, he, -, rfl⟩ := (peek_eq_some_iff c now key v).mp hpeek
  exact h.stored key e he

/-- The promise is about the entries and about which keys are in flight. -/
theorem congr (h : c.Expects p agenda) {c' : RateCache ω ν}
    (hentries : ∀ key e, c'.entries.lookup key = some e → c.entries.lookup key = some e)
    (hflights : ∀ key, c'.isInFlight key = c.isInFlight key) : c'.Expects p agenda where
  stored key e he := h.stored key e (hentries key e he)
  coming := h.coming
  flies a ha := by rw [hflights]; exact h.flies a ha
  arrives key hkey := by rw [hflights] at hkey; exact h.arrives key hkey
  keys_nodup := h.keys_nodup
  sorted := h.sorted

/-- Giving up changes no promise, since flights go on. -/
theorem cancel [BEq ω] (h : c.Expects p agenda) (w : ω) : (c.cancel w).Expects p agenda :=
  h.congr (fun _ _ he => he) (fun key => isInFlight_cancel c w key)

/-- Clearing takes entries away and leaves the flights. -/
theorem clear (h : c.Expects p agenda) : c.clear.Expects p agenda :=
  h.congr (fun _ _ he => by simp at he) (fun _ => rfl)

/-- A call adds no flight but that of its key, whose arrival is then on the agenda. -/
theorem afterStart (h : c.Expects p agenda) {now : Rat} {w : ω} {key : String}
    (hnone : c.flights.lookup key = none) {a? : Option (Arrival ν)}
    (hcoming : ∀ a, a? = some a → a.key = key ∧ p.Brings key a.value)
    (harrives : p.Ends key → a?.isSome = true) :
    (c.afterStart now w key).Expects p (a?.elim agenda fun a => a.insert agenda) := by
  have hold : ∀ a ∈ agenda, a.key ≠ key := by
    rintro a ha rfl
    have hflies := h.flies a ha
    simp [isInFlight, hnone] at hflies
  have hflight := isInFlight_afterStart_iff c now w key
  cases a? with
  | none =>
    -- The flight never ends, so that nothing is to come of it.
    refine ⟨h.stored, h.coming, ?_, ?_, h.keys_nodup, h.sorted⟩
    · intro a ha
      exact (hflight a.key).mpr (.inr (h.flies a ha))
    · intro other hother hends
      rcases (hflight other).mp hother with rfl | hother
      · cases harrives hends
      · exact h.arrives other hother hends
  | some a =>
    obtain ⟨rfl, hbrings⟩ := hcoming a rfl
    -- The place of an arrival on the agenda matters to the order alone.
    have hmem : ∀ b, b ∈ a.insert agenda ↔ b = a ∨ b ∈ agenda := fun b =>
      (a.insert_perm agenda).mem_iff.trans List.mem_cons
    refine ⟨h.stored, ?_, ?_, ?_, ?_, a.insert_sorted h.sorted⟩
    · intro b hb
      rcases (hmem b).mp hb with rfl | hb
      · exact hbrings
      · exact h.coming b hb
    · intro b hb
      rw [hflight]
      exact ((hmem b).mp hb).imp (fun hba => by rw [hba]) (h.flies b)
    · intro other hother hends
      rcases (hflight other).mp hother with rfl | hother
      · exact ⟨a, (hmem a).mpr (.inl rfl), rfl⟩
      · obtain ⟨b, hb, hkey⟩ := h.arrives other hother hends
        exact ⟨b, (hmem b).mpr (.inr hb), hkey⟩
    · show ((a.insert agenda).map (·.key)).Nodup
      rw [((a.insert_perm agenda).map _).nodup_iff, List.map_cons, List.nodup_cons]
      refine ⟨?_, h.keys_nodup⟩
      intro hkey
      obtain ⟨b, hb, hba⟩ := List.mem_map.mp hkey
      exact hold b hb hba

/-- The first flight of the agenda ends, and the others are still to come. -/
theorem afterEnd {a : Arrival ν} (h : c.Expects p (a :: agenda)) (now : Rat) :
    (c.afterEnd now a.key a.value).Expects p agenda := by
  have hkeys := h.keys_nodup
  rw [List.map_cons, List.nodup_cons] at hkeys
  have hflight := isInFlight_afterEnd_iff c now a.key a.value
  refine ⟨?_, fun b hb => h.coming b (.tail a hb), ?_, ?_, hkeys.2, h.sorted.of_cons⟩
  · cases hv : a.value with
    | none => exact h.stored
    | some v =>
      have hbrings : p.Brings a.key (some v) := hv ▸ h.coming a List.mem_cons_self
      exact Entries.forall_lookup_put (P := fun key (e : Entry ν) => p.Brings key (some e.value))
        h.stored hbrings
  · intro b hb
    have hne : b.key ≠ a.key := fun heq => hkeys.1 (heq ▸ List.mem_map_of_mem hb)
    exact (hflight b.key).mpr ⟨h.flies b (.tail a hb), hne⟩
  · -- A flight that goes on has another key, so its arrival is not the one that is gone.
    intro key hkey hends
    obtain ⟨hkey, hne⟩ := (hflight key).mp hkey
    obtain ⟨b, hb, hbkey⟩ := h.arrives key hkey hends
    rcases List.mem_cons.mp hb with rfl | hb
    · exact absurd hbkey.symm hne
    · exact ⟨b, hb, hbkey⟩

end Expects

end RateCache

end Reckoner
