import Mathlib.Tactic.Order
import Reckoner.Cache.Run
import Reckoner.Proofs.Number.Errors

/-!
# Moments are in order

The moments of a run are sums that are rounded to floats.  Rounding keeps the order, so that what
begins later or takes longer is not over sooner; but two moments that differ may be rounded to one.

* `plus_mono`, `after_mono` — later beginnings and longer times lead to no earlier moments.
* `Span.covers_of_le` — what began later is not over sooner.
* `Span.contains`, `Span.length?` — whether a span still lasts when some time has gone by; how many
  seconds it lasts.
* `ofFloat?_add`, `Span.covers_ofFloat` — moments are added and compared as floats are.
* `IsFloat` — a number that a float holds; `isFloat_after` — so is every moment that is reached from
  one.
* `sub_lt_of_lt_after` — what is not over has lasted less than the whole time.
* `Delivery.end?_cases` — a fetch ends with what it brings, or because its time is over.
* `Delivery.le_of_end?`, `Delivery.end?_le` — it ends neither before it begins nor after its time.
-/

namespace Reckoner

open Reckoner.Number

variable {s t d d' : Rat}

/-! ### Sums in order -/

/-- **Sums are in the order** of what is added up. -/
theorem plus_mono (h : s ≤ t) (h' : d ≤ d') : plus s d ≤ plus t d' := rounded_mono (add_le_add h h')

/-- The later one of two moments is in the order of both. -/
theorem later_mono (h : s ≤ t) (h' : d ≤ d') : later s d ≤ later t d' := by
  unfold later
  split <;> split <;> order

/-- **Moments are in the order** of their beginnings and of the times that go by. -/
theorem after_mono (h : s ≤ t) (h' : d ≤ d') : after s d ≤ after t d' :=
  later_mono h (plus_mono h h')

/-- What began later is not over sooner. -/
theorem Span.covers_of_le {span : Span} {now : Rat} (h : s ≤ t)
    (hs : span.covers s now = true) : span.covers t now = true := by
  cases span with
  | seconds length =>
    simp only [covers, decide_eq_true_eq] at hs ⊢
    exact hs.trans_le (plus_mono h le_rfl)
  | endless => rfl
  | undefined => cases hs

namespace Span

/-- Whether a span still lasts when some time has gone by, counted exactly. -/
def contains : Span → (elapsed : Rat) → Bool
  | .seconds s, elapsed => elapsed < s
  | .endless, _ => true
  | .undefined, _ => false

/-- How many seconds a span lasts, unless it is endless. -/
def length? : Span → Option Rat
  | .seconds s => some s
  | .endless => none
  | .undefined => some 0

/-- What has lasted less than the whole time still lasts.  Nothing lasts less than no time. -/
theorem contains_of_lt {span : Span} {elapsed : Rat}
    (h : ∀ s, span.length? = some s → 0 ≤ elapsed ∧ elapsed < s) :
    span.contains elapsed = true := by
  cases span with
  | seconds s => exact decide_eq_true (h s rfl).2
  | endless => rfl
  | undefined => exact absurd (h 0 rfl).2 (not_lt.mpr (h 0 rfl).1)

end Span

/-! ### Floats -/

/-- A float holds the number as it is. -/
def IsFloat (t : Rat) : Prop := rounded t = t

/-- A run begins at a float. -/
theorem isFloat_zero : IsFloat 0 := rounded_zero

/-- A span of seconds that a float gives is as long as a float holds it. -/
theorem Span.isFloat_of_ofFloat {x : Float} (h : Span.ofFloat x = .seconds s) : IsFloat s := by
  unfold ofFloat at h
  split at h
  · next b hb =>
    cases h
    exact rounded_of_isExact (isExact_of_ofFloat? hb)
  · split_ifs at h
    cases h
    exact isFloat_zero

/-- A sum is rounded to a float, whatever is added up. -/
theorem isFloat_plus (t d : Rat) : IsFloat (plus t d) := rounded_rounded _

/-- **Every moment is a float** that is reached from one. -/
theorem isFloat_after (h : IsFloat t) (d : Rat) : IsFloat (after t d) := by
  unfold after later
  split
  · exact isFloat_plus t d
  · exact h

/-- **A sum of moments is the sum of floats**, if it is not too large for one. -/
theorem ofFloat?_add {x y : Float} {a b : Binary} (hx : Binary.ofFloat? x = some a)
    (hy : Binary.ofFloat? y = some b) (hlarge : |a.toRat + b.toRat| < 2 ^ (1023 : ℤ)) :
    ∃ c, Binary.ofFloat? (x + y) = some c ∧ c.toRat = plus a.toRat b.toRat :=
  exists_ofFloat?_of_isExact (isExact_add (isExact_of_ofFloat? hx) (isExact_of_ofFloat? hy) hlarge)

/-- **Whether something still lasts is a comparison of floats**: of the moment now with the sum of
    the moment when it began and its seconds. -/
theorem Span.covers_ofFloat {start now seconds : Float} {a b c : Binary}
    (hstart : Binary.ofFloat? start = some a) (hnow : Binary.ofFloat? now = some b)
    (hseconds : Binary.ofFloat? seconds = some c)
    (hlarge : |a.toRat + c.toRat| < 2 ^ (1023 : ℤ)) :
    (Span.ofFloat seconds).covers a.toRat b.toRat = decide (now < start + seconds) := by
  obtain ⟨sum, hsum, hvalue⟩ := ofFloat?_add hstart hseconds hlarge
  have hspan : Span.ofFloat seconds = .seconds c.toRat := by rw [Span.ofFloat, hseconds]
  rw [hspan, Span.covers, ← hvalue]
  exact decide_eq_decide.mpr (lt_iff_toRat hnow hsum).symm

/-- What is below a rounded sum is below the sum itself, if it is a float. -/
theorem lt_add_of_lt_plus {now : Rat} (hnow : IsFloat now) (h : now < plus t d) : now < t + d := by
  by_contra hle
  have hrounded : plus t d ≤ rounded now := rounded_mono (not_lt.mp hle)
  rw [hnow] at hrounded
  exact absurd h (not_lt.mpr hrounded)

/-- What began in the past and is not over has lasted less than the whole time. -/
theorem sub_lt_of_lt_after {now : Rat} (hnow : IsFloat now) (hbegan : t ≤ now)
    (h : now < after t d) : now - t < d := by
  unfold after later at h
  split at h
  · exact sub_lt_iff_lt_add'.mpr (lt_add_of_lt_plus hnow h)
  · exact absurd h (not_lt.mpr hbegan)

/-! ### The end of a fetch -/

variable {ν : Type} {fetch : Delivery ν} {allowance : Span} {now due : Rat} {value : Option ν}

/-- Nothing is over before it begins. -/
theorem Span.le_of_deadline? (h : allowance.deadline? now = some due) : now ≤ due := by
  cases allowance with
  | seconds s =>
    cases h
    exact le_after now s
  | endless => cases h
  | undefined =>
    cases h
    exact le_rfl

/-- **Inversion of the end of a fetch.** It ends with what it brings, and if its time is limited,
    that takes no time or comes before the time is over, or at the very same moment; or it ends
    without a value because the time is over. -/
theorem Delivery.end?_cases (h : fetch.end? allowance now = some (due, value)) :
    (∃ t, fetch.delay = some t ∧ due = after now t ∧ value = fetch.value ∧
      ∀ deadline, allowance.deadline? now = some deadline →
        allowance.isVoid = false ∧ (t ≤ 0 ∨ after now t ≤ deadline)) ∨
      allowance.deadline? now = some due ∧ value = none := by
  unfold Delivery.end? at h
  cases hdelay : fetch.delay with
  | none =>
    cases hdeadline : allowance.deadline? now with
    | none => simp [hdelay, hdeadline] at h
    | some deadline =>
      simp only [hdelay, hdeadline, Option.some.injEq, Prod.mk.injEq] at h
      exact .inr ⟨congrArg some h.1, h.2.symm⟩
  | some t =>
    cases hdeadline : allowance.deadline? now with
    | none =>
      simp only [hdelay, hdeadline, Option.some.injEq, Prod.mk.injEq] at h
      exact .inl ⟨t, rfl, h.1.symm, h.2.symm, by simp⟩
    | some deadline =>
      simp only [hdelay, hdeadline] at h
      split at h
      · next hcounts =>
        simp only [Option.some.injEq, Prod.mk.injEq] at h
        refine .inl ⟨t, rfl, h.1.symm, h.2.symm, ?_⟩
        rintro _ ⟨⟩
        simp only [Bool.and_eq_true, Bool.not_eq_true', Bool.or_eq_true,
          decide_eq_true_eq] at hcounts
        -- What it brings counts if it takes no time, comes earlier, or wins the tie.
        obtain ⟨hsent, (hnone | hbefore) | ⟨hsame, -⟩⟩ := hcounts
        · exact ⟨hsent, .inl hnone⟩
        · exact ⟨hsent, .inr hbefore.le⟩
        · exact ⟨hsent, .inr hsame.le⟩
      · simp only [Option.some.injEq, Prod.mk.injEq] at h
        exact .inr ⟨congrArg some h.1, h.2.symm⟩

/-- **A fetch does not end before it begins.** -/
theorem Delivery.le_of_end? (h : fetch.end? allowance now = some (due, value)) : now ≤ due := by
  rcases Delivery.end?_cases h with ⟨t, -, rfl, -⟩ | ⟨hdeadline, -⟩
  · exact le_after now t
  · exact Span.le_of_deadline? hdeadline

/-- A limited time is over when all its seconds have gone by. -/
theorem Span.exists_deadline? (h : allowance.length? = some s) (now : Rat) :
    ∃ deadline, allowance.deadline? now = some deadline ∧ deadline ≤ after now s ∧
      (allowance.isVoid = false → 0 ≤ s) := by
  cases allowance with
  | seconds length =>
    cases h
    refine ⟨_, rfl, le_rfl, fun hsent => ?_⟩
    exact (not_le.mp (of_decide_eq_false hsent)).le
  | endless => cases h
  | undefined =>
    cases h
    exact ⟨now, rfl, le_after now 0, fun _ => le_rfl⟩

/-- **A fetch does not outlive its time**, if that is limited. -/
theorem Delivery.end?_le (hlength : allowance.length? = some s)
    (h : fetch.end? allowance now = some (due, value)) : due ≤ after now s := by
  obtain ⟨deadline, hdeadline, hle, hpos⟩ := Span.exists_deadline? hlength now
  rcases Delivery.end?_cases h with ⟨t, -, rfl, -, hin⟩ | ⟨hdue, -⟩
  · obtain ⟨hsent, hnone | hin⟩ := hin deadline hdeadline
    · -- It takes no time, and it is allowed some.
      exact after_mono le_rfl (hnone.trans (hpos hsent))
    · exact hin.trans hle
  · cases hdeadline.symm.trans hdue
    exact hle

/-- A fetch ends if its time is limited. -/
theorem Delivery.isSome_end? (hlength : allowance.length? = some s) (fetch : Delivery ν)
    (now : Rat) : (fetch.end? allowance now).isSome = true := by
  obtain ⟨deadline, hdeadline, -⟩ := Span.exists_deadline? hlength now
  unfold Delivery.end?
  rw [hdeadline]
  cases fetch.delay with
  | none => rfl
  | some t =>
    dsimp only
    split <;> rfl

end Reckoner
