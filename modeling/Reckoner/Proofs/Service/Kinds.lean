import Reckoner.Proofs.Alias.Apart
import Reckoner.Proofs.Number.Finite
import Reckoner.Proofs.Service.Answers

/-!
# Conversions stay within one kind

A query is converted without rates if both of its phrases name temperature scales, or if both name
units of one dimension.  No phrase names a scale and a unit, so that scales and units are never
mixed, and a conversion between units is never refused for the sake of a scale.

* `Measure.isFinite_of_convert`, `Scale.isFinite_of_convert` — only finite amounts have finite
  results.
* `Answer.Shows`, `Query.ConvertsTo` — what the answer to a conversion is.
* `conversion?_eq_some_iff` — a query is converted exactly if its phrases are of one kind and the
  result is finite.
* `conversion?_within_kind` — the same, and no phrase is of two kinds.
-/

namespace Reckoner

open Reckoner.Number

/-! ### Finite results -/

/-- **Only a finite amount of a unit has a finite result.** -/
theorem Measure.isFinite_of_convert {amount : Float} {source target : Measure}
    (h : (Measure.convert amount source target).isFinite = true) : amount.isFinite = true :=
  propagates_mul.isFinite (propagates_div.isFinite (x := amount * source.toBase) h)

/-- **Only a finite temperature has a finite result.** -/
theorem Scale.isFinite_of_convert {amount : Float} {source target : Scale}
    (h : (Scale.convert amount source target).isFinite = true) : amount.isFinite = true := by
  -- Both legs of the conversion are sums and products, which are finite only of finite numbers.
  have hto : (toCelsius amount source).isFinite = true → amount.isFinite = true := by
    intro hfinite
    cases source with
    | celsius => exact hfinite
    | fahrenheit =>
      have hdifference : (amount - 32).isFinite = true := propagates_mul.isFinite hfinite
      exact propagates_sub.isFinite hdifference
    | kelvin => exact propagates_sub.isFinite hfinite
  have hof : ∀ x, (ofCelsius x target).isFinite = true → x.isFinite = true := by
    intro x hfinite
    cases target with
    | celsius => exact hfinite
    | fahrenheit =>
      have hproduct : (x * (9 / 5)).isFinite = true := propagates_add.isFinite hfinite
      exact propagates_mul.isFinite hproduct
    | kelvin => exact propagates_add.isFinite hfinite
  unfold convert at h
  split_ifs at h
  · exact h
  · exact hto (hof _ h)

/-! ### Conversions -/

/-- The answer shows an amount and a result as numbers, with their symbols and labels. -/
def Answer.Shows (a : Answer) (amount result : Float) (symbol label symbol' label' : String) :
    Prop :=
  ∃ s t, display (.real amount) = .ok s ∧ display (.real result) = .ok t ∧
    a = ⟨s ++ " " ++ symbol, label, t ++ " " ++ symbol', label'⟩

theorem Answer.shows_iff {a : Answer} {amount result : Float} (hamount : amount.isFinite = true)
    (hresult : result.isFinite = true) {symbol label symbol' label' : String} :
    a.Shows amount result symbol label symbol' label' ↔
      a = ⟨withSymbol amount symbol, label, withSymbol result symbol', label'⟩ := by
  unfold Shows
  rw [display_of_isFinite hamount, display_of_isFinite hresult]
  constructor
  · rintro ⟨s, t, hs, ht, rfl⟩
    cases hs
    cases ht
    rfl
  · rintro rfl
    exact ⟨_, _, rfl, rfl, rfl⟩

/-- **The conversion of a query, with its answer**: between two temperature scales, or between two
    units of one dimension if no phrase names a scale. -/
inductive Query.ConvertsTo (q : Query) (a : Answer) : Prop where
  | scales {source target : Scale} : Alias.scale? q.source = some source →
      Alias.scale? q.target = some target →
      (Scale.convert q.amount source target).isFinite = true →
      a.Shows q.amount (Scale.convert q.amount source target) source.symbol source.label
        target.symbol target.label → q.ConvertsTo a
  | units {d : Dimension} {source target : Measure} : Alias.scale? q.source = none →
      Alias.scale? q.target = none → Alias.unit? q.source = some (d, source) →
      Alias.unit? q.target = some (d, target) →
      (Measure.convert q.amount source target).isFinite = true →
      a.Shows q.amount (Measure.convert q.amount source target) source.symbol source.label
        target.symbol target.label → q.ConvertsTo a

theorem scaleConversion?_eq_some_iff {amount : Float} {source target : Scale} {a : Answer} :
    scaleConversion? amount source target = some a ↔
      (Scale.convert amount source target).isFinite = true ∧
        a.Shows amount (Scale.convert amount source target) source.symbol source.label
          target.symbol target.label := by
  unfold scaleConversion?
  dsimp only
  rw [Option.ite_none_right_eq_some, Option.some.injEq]
  refine and_congr_right fun hfinite => ?_
  rw [Answer.shows_iff (Scale.isFinite_of_convert hfinite) hfinite, eq_comm]

theorem unitConversion?_eq_some_iff {amount : Float} {source target : Measure} {a : Answer} :
    unitConversion? amount source target = some a ↔
      (Measure.convert amount source target).isFinite = true ∧
        a.Shows amount (Measure.convert amount source target) source.symbol source.label
          target.symbol target.label := by
  unfold unitConversion?
  dsimp only
  rw [Option.ite_none_right_eq_some, Option.some.injEq]
  refine and_congr_right fun hfinite => ?_
  rw [Answer.shows_iff (Measure.isFinite_of_convert hfinite) hfinite, eq_comm]

/-- What names a unit names no scale. -/
theorem Alias.scale?_eq_none_of_unit? {phrase : String} {entry : Dimension × Measure}
    (h : unit? phrase = some entry) : scale? phrase = none := by
  refine (scale?_eq_none_or_unit?_eq_none phrase).resolve_right fun hnone => ?_
  rw [h] at hnone
  cases hnone

/-- A query between two scales is a conversion of temperatures. -/
theorem conversion?_of_scales {q : Query} {source target : Scale}
    (hsource : Alias.scale? q.source = some source)
    (htarget : Alias.scale? q.target = some target) :
    conversion? q = scaleConversion? q.amount source target := by
  unfold conversion?
  rw [hsource, htarget]

/-- **A query between two units of one dimension** is a conversion of units. -/
theorem conversion?_of_units {q : Query} {d : Dimension} {source target : Measure}
    (hsource : Alias.unit? q.source = some (d, source))
    (htarget : Alias.unit? q.target = some (d, target)) :
    conversion? q = unitConversion? q.amount source target := by
  unfold conversion?
  rw [Alias.scale?_eq_none_of_unit? hsource, Alias.scale?_eq_none_of_unit? htarget, hsource,
    htarget]
  exact if_pos rfl

/-- **A query is converted exactly if its phrases are of one kind** and the result is finite. -/
theorem conversion?_eq_some_iff {q : Query} {a : Answer} :
    conversion? q = some a ↔ q.ConvertsTo a := by
  constructor
  · intro h
    obtain ⟨source, target, hsource, htarget, h⟩ | ⟨d, source, target, hsource, htarget, h⟩ :=
      conversion?_eq_some h
    · obtain ⟨hfinite, hshows⟩ := scaleConversion?_eq_some_iff.mp h
      exact .scales hsource htarget hfinite hshows
    · obtain ⟨hfinite, hshows⟩ := unitConversion?_eq_some_iff.mp h
      exact .units (Alias.scale?_eq_none_of_unit? hsource) (Alias.scale?_eq_none_of_unit? htarget)
        hsource htarget hfinite hshows
  · intro h
    cases h with
    | scales hsource htarget hfinite hshows =>
      rw [conversion?_of_scales hsource htarget]
      exact scaleConversion?_eq_some_iff.mpr ⟨hfinite, hshows⟩
    | units _ _ hsource htarget hfinite hshows =>
      rw [conversion?_of_units hsource htarget]
      exact unitConversion?_eq_some_iff.mpr ⟨hfinite, hshows⟩

/-- **Conversions stay within one kind.**  No phrase names both a temperature scale and a unit.  A
    query has an answer exactly if both of its phrases name scales, or neither does and both name
    units of one dimension, and the result is finite; the answer then shows the amount and the
    result with the symbols and labels of the two.  So a query between two units of one dimension
    fails only if its result is not finite. -/
theorem conversion?_within_kind :
    (∀ phrase, Alias.scale? phrase = none ∨ Alias.unit? phrase = none) ∧
    (∀ q a, conversion? q = some a ↔ q.ConvertsTo a) ∧
    ∀ (q : Query) (d : Dimension) (source target : Measure),
      Alias.unit? q.source = some (d, source) → Alias.unit? q.target = some (d, target) →
      ((conversion? q).isSome = true ↔
        (Measure.convert q.amount source target).isFinite = true) := by
  refine ⟨Alias.scale?_eq_none_or_unit?_eq_none, fun q a => conversion?_eq_some_iff,
    fun q d source target hsource htarget => ?_⟩
  rw [conversion?_of_units hsource htarget]
  unfold unitConversion?
  dsimp only
  split_ifs with hfinite
  · exact iff_of_true rfl hfinite
  · exact iff_of_false (by decide) hfinite

/-- Micrometres, written with the micro sign, and nanometres. -/
theorem conversion?_within_kind_micro :
    let q : Query := ⟨"2.5", 2.5, "µm", "nm"⟩
    let micrometers := Measure.lengthUnits[1]
    let nanometers := Measure.lengthUnits[0]
    Alias.unit? q.source = some (.length, micrometers) ∧
      Alias.unit? q.target = some (.length, nanometers) ∧
      ((conversion? q).isSome = true ↔
        (Measure.convert q.amount micrometers nanometers).isFinite = true) := by
  intro q micrometers nanometers
  have hsource : Alias.unit? q.source = some (.length, micrometers) := by
    rw [Alias.unit?, Alias.units, Alias.lookup_tableOf]
    decide
  have htarget : Alias.unit? q.target = some (.length, nanometers) := by
    rw [Alias.unit?, Alias.units, Alias.lookup_tableOf]
    decide
  exact ⟨hsource, htarget, conversion?_within_kind.2.2 q _ _ _ hsource htarget⟩

end Reckoner
