import Reckoner.Proofs.Alias.Codes
import Reckoner.Proofs.Text.Spaces

/-!
# Keys of assets

The key of a phrase as the name of an asset is in lower case, has none of the marks that count as
blanks, and has no blanks but single spaces between other characters.  A phrase that is so already
is its own key, so that a second pass changes nothing.

* `IsAssetKey` — the phrases that are in this form.
* `isAssetKey_assetKey`, `IsAssetKey.assetKey_eq` — keys are, and such phrases are their own keys.
* `assetKey_canonical` — **keys are canonical.**
-/

namespace Reckoner.Alias

open Reckoner.Text Reckoner.Query

variable {s : List Char}

/-- **A phrase in lower case, without marks and with single spaces.** -/
structure IsAssetKey (s : List Char) : Prop where
  isLowered : ∀ c ∈ s, IsLowered c
  no_mark : ∀ c ∈ s, c ∉ keyMarks
  isSpaced : IsSpaced s

/-- A character in lower case becomes one that is no mark. -/
theorem isLowered_assetPunctuation {c : Char} (hc : IsLowered c) :
    IsLowered (assetPunctuation c) ∧ assetPunctuation c ∉ keyMarks := by
  by_cases hmark : c ∈ keyMarks
  · rw [assetPunctuation_of_mem hmark]
    decide
  · rw [assetPunctuation_of_not_mem hmark]
    exact ⟨hc, hmark⟩

/-- **Keys are in lower case and have no marks.** -/
theorem isLowered_of_mem_assetKey (s : List Char) :
    ∀ c ∈ assetKey s, IsLowered c ∧ c ∉ keyMarks := by
  have hmarks : ∀ c ∈ (lower (trim s)).map assetPunctuation, IsLowered c ∧ c ∉ keyMarks := by
    rw [List.forall_mem_map]
    exact fun c hc => isLowered_assetPunctuation (isLowered_of_mem_lower hc)
  have hspaces : ∀ c ∈ squeeze ((lower (trim s)).map assetPunctuation),
      IsLowered c ∧ c ∉ keyMarks := by
    apply forall_mem_mapRuns hmarks
    intro _ _
    exact List.forall_mem_singleton.mpr (by decide)
  exact fun c hc => hspaces c (trim_subset _ hc)

theorem isAssetKey_assetKey (s : List Char) : IsAssetKey (assetKey s) where
  isLowered c hc := (isLowered_of_mem_assetKey s c hc).1
  no_mark c hc := (isLowered_of_mem_assetKey s c hc).2
  isSpaced := isSpaced_trim_squeeze _

/-- **A phrase in this form is its own key**: no step finds anything to change. -/
theorem IsAssetKey.assetKey_eq (h : IsAssetKey s) : assetKey s = s := by
  have hmarks : s.map assetPunctuation = s :=
    map_eq_self fun c hc => assetPunctuation_of_not_mem (h.no_mark c hc)
  calc assetKey s
      = trim (squeeze ((lower s).map assetPunctuation)) := by rw [assetKey, h.isSpaced.trim_eq]
    _ = trim (squeeze s) := by rw [lower_eq_self h.isLowered, hmarks]
    _ = s := (isSpaced_iff s).mp h.isSpaced

/-- **Keys of assets are canonical**: a key has none of the marks and no blanks but single spaces
    between other characters, and it is its own key.  The phrases that are their own keys are those
    in lower case without marks and with single spaces. -/
theorem assetKey_canonical (s : List Char) :
    (∀ c ∈ assetKey s, c ∉ ['(', ')', ',', '.', '-']) ∧ IsSpaced (assetKey s) ∧
      assetKey (assetKey s) = assetKey s ∧ (assetKey s = s ↔ IsAssetKey s) := by
  have hkey := isAssetKey_assetKey s
  refine ⟨hkey.no_mark, hkey.isSpaced, hkey.assetKey_eq, fun h => ?_, IsAssetKey.assetKey_eq⟩
  rwa [h] at hkey

/-- Points and dashes count as blanks, a final sigma is in lower case, and the dotted capital letter
    becomes two characters. -/
example : assetKey " -\u0130.\u00a0(US)\u2003  \u03a3\u03a3- ".toList =
    "i\u0307 us \u03c3\u03c2".toList := by
  decide +kernel

end Reckoner.Alias
