import Mathlib.Tactic.SplitIfs
import Reckoner.Number.Numeral
import Reckoner.Proofs.Text.LetterCase

/-!
# The letters of a numeral

A numeral may hold the letter of a power of ten or be a word, and either may be written with capital
or small letters.  It is read as the same float.

* `ReadsAlike` — the same is read from texts that differ only in the case of their letters.
* `readsAlike_takeDigits`, `readsAlike_takeSign`, `readsAlike_takeFraction` — parts of a numeral.
* `readFloat?_toLower` — the float that is read.
-/

namespace Reckoner.Number

open Reckoner.Text

/-- **The same is read** from the head of texts that differ only in the case of their letters, and
    the same is left over up to case. -/
def ReadsAlike {α : Type} (f : List Char → α × List Char) : Prop :=
  ∀ s, f (s.map Char.toLower) = ((f s).1, (f s).2.map Char.toLower)

/-! ### The parts of a numeral -/

/-- Digits are read alike. -/
theorem readsAlike_takeDigits : ReadsAlike takeDigits := by
  intro s
  induction s with
  | nil => rfl
  | cons c s ih =>
    rw [List.map_cons, takeDigits, takeDigits, isCaseBlind_digit? c]
    cases digit? c with
    | none => rfl
    | some d => simp only [ih]

/-- A sign is read, or none. -/
theorem takeSign_cons (c : Char) (s : List Char) :
    takeSign (c :: s) =
      if c = '-' then (true, s) else if c = '+' then (false, s) else (false, c :: s) := by
  by_cases hminus : c = '-'
  · subst hminus
    rfl
  · by_cases hplus : c = '+'
    · subst hplus
      rfl
    · simp [takeSign, hminus, hplus]

/-- Signs have no case. -/
theorem readsAlike_takeSign : ReadsAlike takeSign := by
  rintro (_ | ⟨c, s⟩)
  · rfl
  · simp only [List.map_cons, takeSign_cons, toLower_eq_iff (d := '-') rfl,
      toLower_eq_iff (d := '+') rfl]
    split_ifs <;> rfl

/-- A fraction begins with a point. -/
theorem takeFraction_cons (c : Char) (s : List Char) :
    takeFraction (c :: s) = if c = '.' then takeDigits s else ([], c :: s) := by
  by_cases hpoint : c = '.'
  · subst hpoint
    rfl
  · simp [takeFraction, hpoint]

/-- Fractions have no case. -/
theorem readsAlike_takeFraction : ReadsAlike takeFraction := by
  rintro (_ | ⟨c, s⟩)
  · rfl
  · simp only [List.map_cons, takeFraction_cons, toLower_eq_iff (d := '.') rfl]
    split
    · exact readsAlike_takeDigits s
    · rfl

/-- Either letter may introduce a power of ten. -/
theorem toLower_eq_e_iff {c : Char} : c.toLower = 'e' ∨ c.toLower = 'E' ↔ c = 'e' ∨ c = 'E' := by
  have hblind : IsCaseBlind fun c => decide (c = 'e' ∨ c = 'E') :=
    isCaseBlind_of_capitals (by decide)
  exact decide_eq_decide.mp (hblind c)

/-- **The letter of an exponent** is read in either case. -/
theorem readExponent?_toLower (s : List Char) :
    readExponent? (s.map Char.toLower) = readExponent? s := by
  cases s with
  | nil => rfl
  | cons c s =>
    simp only [List.map_cons, readExponent?, toLower_eq_e_iff, readsAlike_takeSign s,
      readsAlike_takeDigits (takeSign s).2]
    split
    · rcases takeDigits (takeSign s).2 with ⟨_ | ⟨d, ds⟩, _ | ⟨r, rest⟩⟩ <;> rfl
    · rfl

/-- A number without a sign is read alike. -/
theorem readUnsigned?_toLower (s : List Char) :
    readUnsigned? (s.map Char.toLower) = readUnsigned? s := by
  simp only [readUnsigned?, readsAlike_takeDigits s, readsAlike_takeFraction (takeDigits s).2,
    readExponent?_toLower]

/-- Words for infinity and for no number are read in either case. -/
theorem readWord?_toLower (s : List Char) : readWord? (s.map Char.toLower) = readWord? s := by
  have hword : (s.map Char.toLower).map Char.toLower = s.map Char.toLower := by
    rw [List.map_map]
    exact List.map_congr_left fun c _ => isCaseBlind_toLower c
  simp only [readWord?, hword]

/-! ### Numerals -/

/-- Underscores between digits are dropped alike. -/
theorem dropDividers?_toLower (afterDigit : Bool) (s : List Char) :
    dropDividers? afterDigit (s.map Char.toLower) =
      (dropDividers? afterDigit s).map (List.map Char.toLower) := by
  induction s generalizing afterDigit with
  | nil => rfl
  | cons c s ih =>
    simp only [List.map_cons, dropDividers?, toLower_eq_iff (d := '_') rfl,
      isCaseBlind_isDigit.head?_any, isCaseBlind_isDigit c, ih]
    split
    · split <;> rfl
    · simp [Option.map_map, Function.comp_def]

/-- The margins around a number have no case. -/
theorem isCaseBlind_isMargin : IsCaseBlind isMargin := isCaseBlind_of_capitals (by decide)

/-- So they are dropped alike. -/
theorem dropMargins_toLower (s : List Char) :
    dropMargins (s.map Char.toLower) = (dropMargins s).map Char.toLower := by
  simp only [dropMargins, isCaseBlind_isMargin.dropWhile, ← List.map_reverse]

/-- **The float that a numeral is read as** does not depend on the case of its letters. -/
theorem readFloat?_toLower (s : List Char) : readFloat? (s.map Char.toLower) = readFloat? s := by
  rw [readFloat?, dropMargins_toLower, dropDividers?_toLower, Option.bind_map, readFloat?]
  refine congrArg (Option.bind _) (funext fun t => ?_)
  simp only [Function.comp_apply, readsAlike_takeSign t, readWord?_toLower, readUnsigned?_toLower]

end Reckoner.Number
