import Mathlib.Data.List.Basic
import Reckoner.Text.Blank
import Reckoner.Text.Case

/-!
# What is taken to a character

The two cases of a text are given by runs of characters and their images.  The other way round, a
run has at most one character for an image, so that the characters with a given image can be listed.

* `preimages`, `mem_preimages` — the code points that a mapping takes to a code point.
* `toNat_mem_preimages` — the characters with a given lower-case form.
* `codesOf`, `mem_codesOf` — the code points of ranges.
-/

namespace Reckoner.Text

/-- The code point that a run takes to a code point.  Most runs are far from it, and are passed over
    by two comparisons. -/
def CaseRun.preimage? (r : CaseRun) (m : Nat) : Option Nat :=
  if r.target.ble m && m.ble (r.target + (r.last - r.first)) then some (r.first + (m - r.target))
  else none

/-- The code points that the runs of a mapping may take to a code point. -/
def preimages (runs : List CaseRun) (m : Nat) : List Nat := runs.filterMap (·.preimage? m)

theorem CaseRun.preimage?_of_image? {r : CaseRun} {n m : Nat} (h : r.image? n = some m) :
    r.preimage? m = some n := by
  unfold image? at h
  obtain ⟨⟨hfirst, hlast, -⟩, hm⟩ := Option.ite_none_right_eq_some.mp h
  have hm := Option.some.inj hm
  unfold preimage?
  rw [if_pos, show r.first + (m - r.target) = n by omega]
  rw [Bool.and_eq_true, Nat.ble_eq, Nat.ble_eq]
  omega

/-- An image is that of one of the runs. -/
theorem exists_image_of_imageIn? {runs : List CaseRun} {n m : Nat} (h : imageIn? runs n = some m) :
    ∃ r ∈ runs, r.image? n = some m := by
  induction runs with
  | nil => cases h
  | cons r rs ih =>
    unfold imageIn? at h
    split_ifs at h
    cases himage : r.image? n with
    | some k =>
      rw [himage] at h
      exact ⟨r, List.mem_cons_self, himage.trans h⟩
    | none =>
      rw [himage] at h
      obtain ⟨r', hr', himage'⟩ := ih h
      exact ⟨r', List.mem_cons_of_mem r hr', himage'⟩

/-- **What is taken to a code point is one of its preimages.** -/
theorem mem_preimages {runs : List CaseRun} {n m : Nat} (h : imageIn? runs n = some m) :
    n ∈ preimages runs m := by
  obtain ⟨r, hr, himage⟩ := exists_image_of_imageIn? h
  exact List.mem_filterMap.mpr ⟨r, hr, CaseRun.preimage?_of_image? himage⟩

theorem toNat_ofNat {m : Nat} (h : m.isValidChar) : (Char.ofNat m).toNat = m := by
  rw [Char.ofNat, dif_pos h]
  rfl

/-- A character with a lower-case form is that form or one of its preimages. -/
theorem toNat_mem_preimages {c d : Char} (h : lowerChar c = d) (hd : d.toNat ≠ 0) :
    c.toNat ∈ d.toNat :: preimages lowerRuns d.toNat := by
  unfold lowerChar at h
  -- A character without an image is its own lower case.
  cases himage : imageIn? lowerRuns c.toNat with
  | none =>
    rw [himage] at h
    exact h ▸ List.mem_cons_self
  | some m =>
    rw [himage] at h
    have hm : Char.ofNat m = d := h
    have hcode : d.toNat = m := by
      rw [← hm] at hd ⊢
      by_cases hvalid : m.isValidChar
      · exact toNat_ofNat hvalid
      · exact absurd (by rw [Char.ofNat, dif_neg hvalid]; rfl) hd
    rw [hcode]
    exact List.mem_cons_of_mem _ (mem_preimages himage)

/-- The code points of some ranges. -/
def codesOf (ranges : List (Nat × Nat)) : List Nat :=
  ranges.flatMap fun (first, last) => List.range' first (last + 1 - first)

theorem mem_codesOf {ranges : List (Nat × Nat)} {n : Nat} (h : inRanges ranges n = true) :
    n ∈ codesOf ranges := by
  induction ranges with
  | nil => cases h
  | cons range ranges ih =>
    obtain ⟨first, last⟩ := range
    unfold inRanges at h
    split_ifs at h with hlt
    rw [codesOf, List.flatMap_cons, List.mem_append, List.mem_range'_1]
    obtain hle | hmore := (Bool.or_eq_true _ _).mp h
    · have hle := of_decide_eq_true hle
      exact .inl (by omega)
    · exact .inr (ih hmore)

end Reckoner.Text
