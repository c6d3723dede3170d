import Reckoner.Proofs.Alias.Openings
import Reckoner.Proofs.Text.Bytes

/-!
# Units and temperature scales have no name in common

The key of a phrase as the name of a temperature scale is made from its key as the name of a unit.
So a phrase with the key of a unit has the same key among the scales as the name of that unit, and
none of these is the key of a scale.

* `scaleKey_congr` — phrases with one key as units have one key as scales.
* `lookup_scales_unitNames` — no name of a unit names a scale.
* `scale?_eq_none_or_unit?_eq_none` — no phrase names both a scale and a unit.
-/

namespace Reckoner.Alias

open Reckoner.Text

/-- **Phrases with one key as units** have one key as scales. -/
theorem scaleKey_congr {s t : List Char} (h : unitKey s = unitKey t) : scaleKey s = scaleKey t := by
  rw [scaleKey, scaleKey, h]

/-- Letters that stay at the head of a key, and that no key of a scale begins with. -/
def otherHeads : List Char := unitHeads.filter (· ∉ ['c', 'f', 'k'])

theorem isSteady_otherHeads : IsSteady otherHeads := by decide

/-- No key of a scale begins with such a letter.  A name of a unit does, or its key is that of no
    scale. -/
theorem otherHeads_of_names :
    (scaleNames.all fun entry => !opens otherHeads (scaleKey entry.1.toList)) = true ∧
    (unitNames.all fun entry => opensAt otherHeads entry.1 ||
      (scales.lookup (String.ofList (scaleKey (charsOf entry.1)))).isNone) = true := by
  decide +kernel

theorem not_opens_otherHeads :
    ∀ entry ∈ scaleNames, ¬ Opens otherHeads (scaleKey entry.1.toList) := by
  intro entry hentry hopens
  have hnot := List.all_eq_true.mp otherHeads_of_names.1 entry hentry
  rw [opens_iff.mpr hopens] at hnot
  cases hnot

/-- **No name of a unit names a temperature scale.** -/
theorem lookup_scales_unitNames :
    ∀ entry ∈ unitNames, scales.lookup (String.ofList (scaleKey entry.1.toList)) = none := by
  intro entry hentry
  obtain hhead | hnone :=
    (Bool.or_eq_true _ _).mp (List.all_eq_true.mp otherHeads_of_names.2 entry hentry)
  · have hunit := isSteady_otherHeads.opens_unitKey (opens_of_opensAt hhead)
    exact lookup_tableOf_eq_none not_opens_otherHeads (isSteady_otherHeads.opens_scaleKey hunit)
  · rw [charsOf_eq] at hnone
    exact Option.isNone_iff_eq_none.mp hnone

/-- **No phrase names both a temperature scale and a unit.** -/
theorem scale?_eq_none_or_unit?_eq_none (phrase : String) :
    scale? phrase = none ∨ unit? phrase = none := by
  cases hunit : unit? phrase with
  | none => exact .inr rfl
  | some x =>
    obtain ⟨name, hname, hkey⟩ := exists_of_lookup_tableOf hunit
    have hnone := lookup_scales_unitNames _ hname
    rw [scaleKey_congr (String.ofList_injective hkey)] at hnone
    exact .inl hnone

end Reckoner.Alias
