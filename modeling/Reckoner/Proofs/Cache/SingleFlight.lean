import Mathlib.Data.List.Nodup
import Mathlib.Data.List.Count
import Reckoner.Proofs.Cache.Interleaving

/-!
# One flight for each key

Whatever happens to a cache and in whatever order, a key that is being fetched is not fetched a
second time, and it has no value that is still good.

* `SingleFlight` — the invariant: the fetches under way have different keys, the keys in flight are
  the keys of these fetches, and none of these keys has a value that is still good.
* `step_singleFlight` — every move keeps it.
* `run_singleFlight` — the number of fetches of a key, after any moves.
-/

namespace Reckoner.RateCache.Life

variable {ω ν : Type}

/-- **Single flight.** Different fetches have different keys, the flights are those of the fetches
    under way, and what is being fetched is not there. -/
structure SingleFlight (s : Life ω ν) : Prop where
  keys_nodup : (s.running.map Fetch.key).Nodup
  isInFlight_iff : ∀ key, s.cache.isInFlight key = true ↔ ∃ f ∈ s.running, f.key = key
  peek_eq_none : ∀ key, s.cache.isInFlight key = true → s.cache.peek s.now key = none

namespace SingleFlight

/-- Two fetches under way with one key are one fetch. -/
theorem eq_of_key_eq {s : Life ω ν} (h : s.SingleFlight) {f g : Fetch} (hf : f ∈ s.running)
    (hg : g ∈ s.running) (hkey : f.key = g.key) : f = g :=
  List.inj_on_of_nodup_map h.keys_nodup hf hg hkey

/-- A fetch under way has a flight. -/
theorem exists_flight {s : Life ω ν} (h : s.SingleFlight) {f : Fetch} (hf : f ∈ s.running) :
    ∃ fl, s.cache.flights.lookup f.key = some fl := by
  have hflight := (h.isInFlight_iff f.key).mpr ⟨f, hf, rfl⟩
  exact Option.isSome_iff_exists.mp hflight

/-- A key that has no flight is not the key of a fetch under way. -/
theorem key_ne_of_lookup_eq_none {s : Life ω ν} (h : s.SingleFlight) {key : String}
    (hnone : s.cache.flights.lookup key = none) {f : Fetch} (hf : f ∈ s.running) :
    f.key ≠ key := by
  rintro rfl
  obtain ⟨fl, hfl⟩ := h.exists_flight hf
  rw [hnone] at hfl
  cases hfl

/-- A key that has a flight is the key of the fetch that a call would join. -/
theorem fetchOf_eq_some {s : Life ω ν} (h : s.SingleFlight) {key : String} {fl : Flight ω}
    (hfl : s.cache.flights.lookup key = some fl) :
    ∃ f ∈ s.running, f.key = key ∧ s.fetchOf key = some f := by
  have hflight : s.cache.isInFlight key = true := by simp [isInFlight, hfl]
  obtain ⟨g, hg, hgkey⟩ := (h.isInFlight_iff key).mp hflight
  cases hfind : s.fetchOf key with
  | none =>
    have hnone := List.find?_eq_none.mp hfind g hg
    exact absurd hgkey (by simpa using hnone)
  | some f =>
    have hkey : f.key = key := by simpa using List.find?_some hfind
    exact ⟨f, List.mem_of_find?_eq_some hfind, hkey, rfl⟩

/-- The fetches that are left when one has ended have other keys. -/
theorem key_ne_of_mem_filter {s : Life ω ν} (h : s.SingleFlight) {f g : Fetch}
    (hf : f ∈ s.running) (hg : g ∈ s.running.filter (· ≠ f)) : g.key ≠ f.key := by
  obtain ⟨hmem, hne⟩ := List.mem_filter.mp hg
  intro hkey
  exact (of_decide_eq_true hne) (h.eq_of_key_eq hmem hf hkey)

end SingleFlight

/-! ### Every move keeps the invariant -/

/-- In the beginning no fetch is under way. -/
theorem start_singleFlight (lifetime : Span) : (start lifetime : Life ω ν).SingleFlight where
  keys_nodup := List.nodup_nil
  isInFlight_iff key := by simp [start, RateCache.empty, isInFlight]
  peek_eq_none key := by simp [start, RateCache.empty, isInFlight]

/-- **A fetch begins only for a key that has none under way.** -/
theorem call_singleFlight {s : Life ω ν} (h : s.SingleFlight) (w : ω) (key : String) :
    (s.call w key).SingleFlight := by
  obtain ⟨v, hpeek, heq⟩ | ⟨fl, hpeek, hfl, heq⟩ | ⟨hpeek, hnone, heq⟩ := s.call_cases w key
  · -- A hit changes a counter only.
    rw [heq]
    exact ⟨h.keys_nodup, h.isInFlight_iff, h.peek_eq_none⟩
  · -- Joining changes the waiters of a flight that is there already.
    rw [heq]
    refine ⟨h.keys_nodup, fun k => ?_, fun k hflight => ?_⟩
    · rw [isInFlight_afterJoin s.cache w hfl]
      exact h.isInFlight_iff k
    · rw [isInFlight_afterJoin s.cache w hfl] at hflight
      exact h.peek_eq_none k hflight
  · -- A start gives a flight to a key that has none and nothing that is still good.
    rw [heq]
    refine ⟨?_, fun k => ?_, fun k hflight => ?_⟩
    · have hnew : key ∉ s.running.map Fetch.key := by
        intro hmem
        obtain ⟨f, hf, hfkey⟩ := List.mem_map.mp hmem
        exact h.key_ne_of_lookup_eq_none hnone hf hfkey
      rw [List.map_append]
      exact List.nodup_append'.mpr ⟨h.keys_nodup, List.nodup_singleton _,
        List.disjoint_singleton.mpr hnew⟩
    · rw [isInFlight_afterStart_iff, or_comm]
      simp only [h.isInFlight_iff, List.mem_append, List.mem_singleton, or_and_right, exists_or,
        exists_eq_left, nextFetch, eq_comm]
    · obtain rfl | hold := (isInFlight_afterStart_iff s.cache s.now w key k).mp hflight
      · exact hpeek
      · exact h.peek_eq_none k hold

/-- The end of a fetch takes its flight away. -/
theorem settle_singleFlight {s : Life ω ν} (h : s.SingleFlight) (number : Nat)
    (ending : Ending ν) : (s.settle number ending).SingleFlight := by
  obtain heq | ⟨f, hf, -, heq⟩ := s.settle_cases number ending
  · rw [heq]
    exact h
  · obtain ⟨fl, hfl⟩ := h.exists_flight hf
    rw [heq, settle_of_flight _ _ _ hfl]
    refine ⟨?_, fun k => ?_, fun k hflight => ?_⟩
    · exact h.keys_nodup.sublist (List.Sublist.map _ (List.filter_sublist ..))
    · rw [isInFlight_afterEnd_iff, h.isInFlight_iff]
      constructor
      · rintro ⟨⟨g, hg, rfl⟩, hne⟩
        have hgf : g ≠ f := fun hgf => hne (hgf ▸ rfl)
        exact ⟨g, List.mem_filter.mpr ⟨hg, by simpa using hgf⟩, rfl⟩
      · rintro ⟨g, hg, rfl⟩
        exact ⟨⟨g, (List.mem_filter.mp hg).1, rfl⟩, h.key_ne_of_mem_filter hf hg⟩
    · -- The entry that may be new is that of the key which is no longer in flight.
      obtain ⟨hold, hne⟩ := (isInFlight_afterEnd_iff s.cache s.now f.key ending.value? k).mp hflight
      exact (peek_afterEnd_of_ne _ _ _ hne _).trans (h.peek_eq_none k hold)

/-- Time that goes by ends nothing by itself. -/
theorem pass_singleFlight {s : Life ω ν} (h : s.SingleFlight) {t : Rat} (ht : s.now ≤ t) :
    ({ s with now := t } : Life ω ν).SingleFlight := by
  refine ⟨h.keys_nodup, h.isInFlight_iff, fun k hflight => ?_⟩
  exact s.cache.peek_eq_none_of_le ht (h.peek_eq_none k hflight)

/-- **Every move keeps the fetches apart.** -/
theorem step_singleFlight [DecidableEq ω] (s : Life ω ν) (m : Move ω ν) (h : s.SingleFlight) :
    (s.step m).SingleFlight := by
  cases m with
  | call w key => exact call_singleFlight h w key
  | settle number ending => exact settle_singleFlight h number ending
  | cancel w =>
    refine ⟨h.keys_nodup, fun k => ?_, fun k hflight => ?_⟩
    · exact (Bool.eq_iff_iff.mp (isInFlight_cancel s.cache w k)).trans (h.isInFlight_iff k)
    · exact h.peek_eq_none k (isInFlight_cancel s.cache w k ▸ hflight)
  | clear => exact ⟨h.keys_nodup, h.isInFlight_iff, fun k _ => by simp [step, peek]⟩
  | pass seconds => exact pass_singleFlight h (le_later_left _ _)

/-- So does every run. -/
theorem singleFlight_run [DecidableEq ω] (lifetime : Span) (moves : List (Move ω ν)) :
    ((start lifetime).run moves).SingleFlight :=
  run_induction step_singleFlight _ _ (start_singleFlight lifetime)

/-- **Single flight.** After any moves in any order, every key has at most one fetch under way, it
    is in flight exactly if it has one, and then it has no value that is still good. -/
theorem run_singleFlight [DecidableEq ω] (lifetime : Span) (moves : List (Move ω ν))
    (key : String) :
    let s := (start lifetime).run moves
    s.running.countP (·.key = key) ≤ 1 ∧
      (s.cache.isInFlight key = true ↔ s.running.countP (·.key = key) = 1) ∧
      (s.cache.isInFlight key = true → s.cache.peek s.now key = none) := by
  intro s
  have h : s.SingleFlight := singleFlight_run lifetime moves
  -- Fetches under way for the key are counted by their keys, of which there is one at most.
  have hcount : s.running.countP (·.key = key) = (s.running.map Fetch.key).count key := by
    rw [List.count, List.countP_map]
    rfl
  have hle : s.running.countP (·.key = key) ≤ 1 := by
    rw [hcount]
    exact List.nodup_iff_count_le_one.mp h.keys_nodup key
  refine ⟨hle, ?_, h.peek_eq_none key⟩
  rw [h.isInFlight_iff]
  have hpos : 0 < s.running.countP (·.key = key) ↔ ∃ f ∈ s.running, f.key = key := by
    simp [List.countP_pos_iff]
  rw [← hpos]
  omega

end Reckoner.RateCache.Life
