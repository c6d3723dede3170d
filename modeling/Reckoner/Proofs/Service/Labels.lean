import Reckoner.Proofs.Number.Wholes
import Reckoner.Proofs.Service.Answers

/-!
# Results in words

The label of a calculation is its result in words.  It is there for the results that are shown as
whole numbers up to the billions, with one exception: a value that is no whole number, and of which
nothing is left but a whole number after its decimals are rounded, is shown without a label.

* `resultLabel_of_calculation?` — the label of a calculation.
* `label_follows_display` — which calculations have a label, and what it says.
* `rounded_result_without_label` — a value that is shown as a whole number without a label.
-/

namespace Reckoner

open Reckoner.Arithmetic Reckoner.Number Reckoner.Text

/-- The label of a calculation is its value in words. -/
theorem resultLabel_of_calculation? {query : String} {a : Answer} {x : Float}
    (h : calculation? query = some a) (hx : evaluateText query = .ok x) :
    a.resultLabel = spelledFloat x := by
  unfold calculation? at h
  rw [evaluateText] at hx
  simp only [dropBlanks_trim, hx] at h
  split_ifs at h
  cases h
  rfl

/-- **The label of a calculation follows the result that is shown.** It is there exactly if the
    value is a whole number up to noise, and the result is shown as a whole number up to the
    billions.  Then the label spells the whole number that is shown. -/
theorem label_follows_display {query : String} {a : Answer} (h : calculation? query = some a) :
    ∃ x, evaluateText query = .ok x ∧ x.isFinite = true ∧ a.result = showFloat x ∧
      (a.resultLabel ≠ "" ↔ (nearWhole? x).isSome = true ∧
        ∃ n, ShowsWhole a.result.toList n ∧ n.natAbs ≤ wordsLimit) ∧
      ∀ n, a.resultLabel ≠ "" → ShowsWhole a.result.toList n →
        a.resultLabel = joinWords (wholeWords n) := by
  obtain ⟨x, hx, hfinite, hresult⟩ := calculation?_eq_some h
  have htext : a.result.toList = floatText x := by rw [hresult, showFloat, String.toList_ofList]
  have hlabel := resultLabel_of_calculation? h hx
  refine ⟨x, hx, hfinite, hresult, ?_, fun n hne hshown => ?_⟩
  · rw [htext, hlabel]
    exact spelledFloat_ne_empty_iff x
  · rw [htext] at hshown
    rw [hlabel] at hne ⊢
    exact spelledFloat_of_showsWhole hne hshown

/-- Three tenths ten times over is three up to noise, and it is shown and spelled as three. -/
theorem label_of_three :
    calculation? "0.1*3*10" = some ⟨"0.1*3*10", "Expression", "3", "Three"⟩ ∧
      ∃ x, evaluateText "0.1*3*10" = .ok x ∧ x.isFinite = true ∧ "3" = showFloat x ∧
        ("Three" ≠ "" ↔ (nearWhole? x).isSome = true ∧
          ∃ n, ShowsWhole "3".toList n ∧ n.natAbs ≤ wordsLimit) ∧
        ∀ n, "Three" ≠ "" → ShowsWhole "3".toList n → "Three" = joinWords (wholeWords n) := by
  have hanswer : calculation? "0.1*3*10" = some ⟨"0.1*3*10", "Expression", "3", "Three"⟩ := by
    decide +kernel
  exact ⟨hanswer, label_follows_display hanswer⟩

/-- **A value that is no whole number may be shown as one.** It has seven decimals, of which six are
    shown, and then it has no label. -/
theorem rounded_result_without_label :
    ∃ a n, calculation? "2-0.9999999" = some a ∧ ShowsWhole a.result.toList n ∧
      n.natAbs ≤ wordsLimit ∧ a.resultLabel = "" := by
  have hanswer : calculation? "2-0.9999999" = some ⟨"2-0.9999999", "Expression", "1", ""⟩ := by
    decide +kernel
  exact ⟨_, 1, hanswer, showsWhole_groupedInt 1, by decide, rfl⟩

end Reckoner
