import Mathlib.Data.List.Chain
import Reckoner.Proofs.Text.Runs

/-!
# Texts with single spaces

When the blanks at the ends of a text are cut off and every other run of blanks is written as one
space, the blanks that are left are single spaces between other characters.  A text of this kind is
left as it is.

* `IsSpaced` — texts whose blanks are single spaces between other characters.
* `isSpaced_trim_squeeze` — what blanks are tidied to.
* `isSpaced_iff` — **the texts that are left as they are.**
-/

namespace Reckoner.Text

open Reckoner.Query

variable {s : List Char}

/-- Two neighbours that are not both blank. -/
def AreApart (c d : Char) : Prop := isBlank c = false ∨ isBlank d = false

/-- **A text whose blanks are single spaces between other characters.** -/
structure IsSpaced (s : List Char) : Prop where
  starts : StartsInText s
  ends : EndsInText s
  spaces : ∀ c ∈ s, isBlank c = true → c = ' '
  apart : s.IsChain AreApart

/-! ### What blanks are tidied to -/

theorem startsInText_trim (s : List Char) : StartsInText (trim s) := by
  intro c hc
  have hhead := List.head?_dropWhile_not isBlank (trimEnd s)
  rw [← trimStart_trimEnd, Option.mem_def] at hc
  unfold trimStart at hc
  rwa [hc] at hhead

/-- Every blank is a space where runs of blanks are. -/
theorem eq_space_of_mem_squeeze (s : List Char) : ∀ c ∈ squeeze s, isBlank c = true → c = ' ' := by
  refine mapRuns_induction (motive := fun _ s' => ∀ c ∈ s', isBlank c = true → c = ' ')
    (by simp) (by simp) (fun c hc w w' s s' ihw ihs => ?_) s
  have hcut : isBlank c = true → c = ' ' := fun hblank => by
    rw [hc] at hblank
    cases hblank
  exact List.forall_mem_append.mpr ⟨ihw, List.forall_mem_cons.mpr ⟨hcut, ihs⟩⟩

/-- **No two blanks are neighbours where runs of blanks are single spaces.** -/
theorem isChain_squeeze (s : List Char) : (squeeze s).IsChain AreApart := by
  refine mapRuns_induction (motive := fun _ s' => s'.IsChain AreApart) .nil
    (fun _ _ _ => List.isChain_singleton ' ') (fun c hc w w' s s' ihw ihs => ?_) s
  -- The character between two runs is apart from both of its neighbours.
  apply List.isChain_append.mpr
  refine ⟨ihw, List.isChain_cons.mpr ⟨fun d _ => .inl hc, ihs⟩, ?_⟩
  intro b _ d hd
  obtain rfl : c = d := Option.some.inj hd
  exact .inr hc

/-- **Blanks are tidied to single spaces between other characters.** -/
theorem isSpaced_trim_squeeze (s : List Char) : IsSpaced (trim (squeeze s)) where
  starts := startsInText_trim (squeeze s)
  ends := endsInText_trim (squeeze s)
  spaces := fun c hc => eq_space_of_mem_squeeze s c (trim_subset (squeeze s) hc)
  apart := List.IsChain.infix (isChain_squeeze s) (isInfix_trim (squeeze s))

/-! ### What is left as it is -/

namespace IsSpaced

theorem squeeze_eq (h : IsSpaced s) : squeeze s = s := by
  apply mapRuns_eq_self
  intro w hw
  have hne : w ≠ [] := of_decide_eq_true (List.mem_filter.mp hw).2
  obtain ⟨hblanks, hpart⟩ := of_mem_runs hw
  cases w with
  | nil => exact absurd rfl hne
  | cons c w =>
    obtain ⟨hc, hrest⟩ := List.forall_mem_cons.mp hblanks
    obtain rfl : c = ' ' := h.spaces c (hpart.subset List.mem_cons_self) hc
    cases w with
    | nil => rfl
    | cons d w =>
      -- A run of two blanks would have two blanks for neighbours.
      have hchain : (' ' :: d :: w).IsChain AreApart := List.IsChain.infix h.apart hpart
      have hapart := (List.isChain_cons_cons.mp hchain).1
      have hd : isBlank d = true := hrest d List.mem_cons_self
      simp [AreApart, hc, hd] at hapart

theorem trim_eq (h : IsSpaced s) : trim s = s := by
  have hstart : trimStart s = s := by
    cases s with
    | nil => rfl
    | cons c s => exact trimStart_cons_of_not_blank (h.starts c rfl) s
  have hend : trimEnd s = s := by
    apply List.rdropWhile_eq_self_iff.mpr
    intro hne
    have hlast := h.ends _ (List.getLast?_eq_getLast_of_ne_nil hne)
    simp [hlast]
  rw [trim, hstart, hend]

end IsSpaced

/-- **The texts that are left as they are when blanks are tidied.** -/
theorem isSpaced_iff (s : List Char) : IsSpaced s ↔ trim (squeeze s) = s := by
  constructor
  · intro h
    rw [h.squeeze_eq, h.trim_eq]
  · intro h
    rw [← h]
    exact isSpaced_trim_squeeze s

end Reckoner.Text
