import Reckoner.Proofs.Cache.Yields

/-!
# What a fetch ends with

What a fetch ends with is settled by its delay and by the time that it is allowed, whenever it
begins, with one exception: where it would end at the very moment at which its time is over, either
of the two may come first.

* `Delivery.ties` — whether a fetch that begins at a moment is such an exception.
* `Delivery.end?_congr`, `CacheRun.call_congr` — in all other cases fetches that take the same time
  and bring the same end in the same way, and calls that begin them cannot be told apart.
* `ties_zero_iff` — a fetch that begins at time zero ties exactly if it takes all the time that it
  is allowed.
* `Delivery.outcome` — what a fetch ends with, by its delay alone.
* `Delivery.ending_eq_outcome` — it ends so whenever it begins, if a tie goes to what comes first by
  the delay.
-/

namespace Reckoner

variable {ν : Type} {d d' : Delivery ν} {allowance : Span} {now t : Rat}

/-! ### Ties -/

/-- Whether a fetch that begins at a moment would end at the very moment at which its time is over.
    One that needs no time ends before, and one that is allowed no time never begins. -/
def Delivery.ties (allowance : Span) (now : Rat) (d : Delivery ν) : Bool :=
  !allowance.isVoid && d.delay.any fun t => 0 < t && allowance.deadline? now == some (after now t)

/-- A fetch ties if it has been sent, takes some time and ends at the very moment when its time is
    over. -/
theorem Delivery.ties_iff : d.ties allowance now = true ↔
    allowance.isVoid = false ∧
      ∃ t, d.delay = some t ∧ 0 < t ∧ allowance.deadline? now = some (after now t) := by
  simp [ties, Option.any_eq_true]

/-- **Fetches that do not tie end in the same way** if they take the same time and bring the
    same. -/
theorem Delivery.end?_congr (hdelay : d'.delay = d.delay) (hvalue : d'.value = d.value)
    (h : d.ties allowance now = false) : d'.end? allowance now = d.end? allowance now := by
  unfold end?
  rw [hdelay, hvalue]
  cases ht : d.delay with
  | none => cases allowance.deadline? now <;> rfl
  | some t =>
    cases hdeadline : allowance.deadline? now with
    | none => rfl
    | some deadline =>
      -- The two may differ in how they end only if what they bring comes at the deadline.
      by_cases hsame : after now t = deadline
      · have hsettled : allowance.isVoid = true ∨ t ≤ 0 := by
          simpa [ties, ht, hdeadline, hsame, or_iff_not_imp_left] using h
        rcases hsettled with hvoid | hnone
        · simp [hvoid]
        · simp [hnone]
      · simp [hsame]

/-- How long a fetch takes settles whether it ties. -/
theorem Delivery.ties_congr (h : d'.delay = d.delay) :
    d'.ties allowance now = d.ties allowance now := by
  rw [ties, ties, h]

/-- **At time zero a fetch ties exactly if it takes all the time that it is allowed.**  Later, one
    that takes a little less or more may tie as well: the two moments may be rounded to one. -/
theorem Delivery.ties_zero_iff (ht : ∀ t, d.delay = some t → IsFloat t)
    (hs : ∀ s, allowance = .seconds s → IsFloat s) :
    d.ties allowance 0 = true ↔ ∃ t, d.delay = some t ∧ 0 < t ∧ allowance = .seconds t := by
  -- At the beginning of a run no sum of two floats is rounded.
  have hafter : ∀ {u : Rat}, IsFloat u → 0 < u → after 0 u = u := by
    intro u hu hpos
    rw [after, plus, zero_add, hu, later, if_pos hpos.le]
  rw [ties_iff]
  constructor
  · rintro ⟨hvoid, t, hdelay, hpos, hsame⟩
    rw [hafter (ht t hdelay) hpos] at hsame
    refine ⟨t, hdelay, hpos, ?_⟩
    cases allowance with
    | seconds s =>
      have hspos : 0 < s := not_le.mp (of_decide_eq_false hvoid)
      have hdeadline : some (after 0 s) = some t := hsame
      rw [hafter (hs s rfl) hspos] at hdeadline
      rw [Option.some.inj hdeadline]
    | endless => cases hsame
    | undefined => exact absurd (Option.some.inj hsame) hpos.ne
  · rintro ⟨t, hdelay, hpos, rfl⟩
    exact ⟨decide_eq_false (not_le.mpr hpos), t, hdelay, hpos, rfl⟩

namespace CacheRun

variable {ω : Type} {r : CacheRun ω ν} {key : String}

/-- **Calls cannot be told apart** if the fetches that they begin take the same time, bring the same
    and do not tie. -/
theorem call_congr (w : ω) (hdelay : d'.delay = d.delay) (hvalue : d'.value = d.value)
    (h : r.lacks key = true → d.ties r.allowance r.now = false) :
    r.call w key d' = r.call w key d := by
  cases hlacks : r.lacks key with
  | true =>
    have harrival : r.arrival? key d' = r.arrival? key d := by
      rw [arrival?, arrival?, Delivery.end?_congr hdelay hvalue (h hlacks)]
    rw [call_eq, call_eq, harrival]
  | false =>
    -- No fetch begins: there is a value that is still good, or one is being fetched.
    rcases r.call_cases w key d with ⟨v, hpeek, hcall⟩ | ⟨f, hpeek, hflight, hcall⟩ |
      ⟨hpeek, hflight, -⟩
    · rw [hcall, call]
      simp only [RateCache.call, hpeek]
      rfl
    · rw [hcall, call]
      simp only [RateCache.call, hpeek, hflight]
      rfl
    · have hnot : r.lacks key = true :=
        lacks_iff.mpr ⟨hpeek, by simp [RateCache.isInFlight, hflight]⟩
      rw [hlacks] at hnot
      cases hnot

/-- A call makes no key lacking. -/
theorem lacks_of_lacks_call {other : String} (w : ω) (d : Delivery ν)
    (h : (r.call w key d).1.lacks other = true) : r.lacks other = true := by
  by_cases hother : other = key
  · subst hother
    obtain ⟨hpeek, hflight⟩ := lacks_iff.mp h
    rw [peek_call] at hpeek
    refine lacks_iff.mpr ⟨hpeek, ?_⟩
    by_contra hflies
    rcases r.call_cases w other d with ⟨v, hv, -⟩ | ⟨f, -, hf, hcall⟩ | ⟨-, hnone, -⟩
    · rw [peek, hv] at hpeek
      cases hpeek
    · rw [hcall, RateCache.isInFlight_afterJoin _ _ hf] at hflight
      exact hflies hflight
    · simp [RateCache.isInFlight, hnone] at hflies
  · rwa [lacks_call_of_ne r w d hother] at h

end CacheRun

/-! ### Outcomes -/

/-- **What a fetch ends with**, by its delay alone, unless it never ends: what it brings if it is
    allowed some time and needs none or less. -/
def Delivery.outcome (allowance : Span) (d : Delivery ν) : Option (Option ν) :=
  match d.delay, allowance with
  | none, .endless => none
  | none, _ => some none
  | some t, _ =>
    some (if !allowance.isVoid && (t ≤ 0 || allowance.contains t) then d.value else none)

/-- What comes before the time is over takes less than the whole time. -/
theorem Span.contains_of_after_lt {deadline : Rat}
    (hdeadline : allowance.deadline? now = some deadline)
    (h : after now t < deadline) : allowance.contains t = true := by
  cases allowance with
  | seconds s =>
    cases hdeadline
    refine decide_eq_true (not_le.mp fun hle => ?_)
    exact absurd h (not_lt.mpr (after_mono le_rfl hle))
  | endless => cases hdeadline
  | undefined =>
    cases hdeadline
    exact absurd h (not_lt.mpr (le_after now t))

/-- What comes after the time is over takes more than the whole time. -/
theorem Span.contains_eq_false_of_lt_after {deadline : Rat}
    (hdeadline : allowance.deadline? now = some deadline) (h : deadline < after now t) :
    allowance.contains t = false := by
  cases allowance with
  | seconds s =>
    cases hdeadline
    refine decide_eq_false fun hlt => ?_
    exact absurd h (not_lt.mpr (after_mono le_rfl hlt.le))
  | endless => cases hdeadline
  | undefined => rfl

/-- **A fetch has its outcome whenever it begins**, if a tie goes to what comes first by the
    delay. -/
theorem Delivery.ending_eq_outcome
    (hwins : ∀ t, d.delay = some t → 0 < t → d.winsTie = allowance.contains t) (now : Rat) :
    d.ending allowance now = d.outcome allowance := by
  unfold ending end? outcome
  cases hdelay : d.delay with
  | none => cases allowance <;> rfl
  | some t =>
    cases hdeadline : allowance.deadline? now with
    | none =>
      cases allowance with
      | endless => simp [Span.isVoid, Span.contains]
      | seconds | undefined => cases hdeadline
    | some deadline =>
      -- The delay and the time that is allowed are compared as the moments are, and a tie is
      -- decided as the delay says.
      have htime : (decide (t ≤ 0) || decide (after now t < deadline) ||
          (decide (after now t = deadline) && d.winsTie)) =
          (decide (t ≤ 0) || allowance.contains t) := by
        by_cases hnone : t ≤ 0
        · simp [hnone]
        rcases lt_trichotomy (after now t) deadline with hlt | heq | hgt
        · simp [hlt, Span.contains_of_after_lt hdeadline hlt]
        · simp [heq, hwins t hdelay (not_le.mp hnone)]
        · simp [not_lt.mpr hgt.le, ne_of_gt hgt, Span.contains_eq_false_of_lt_after hdeadline hgt]
      simp only [htime, apply_ite (Option.map _), Option.map_some]
      split <;> rfl

end Reckoner
