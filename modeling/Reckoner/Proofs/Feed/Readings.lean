import Reckoner.Feed.Prices
import Reckoner.Proofs.Json.Within
import Reckoner.Proofs.Number.Overflow

/-!
# What is read off a value, and off a reply

A number can be read as a rate or price if it is finite and above zero.  Other values are passed
over, and a whole number that does not fit a float cannot even be looked at.

* `IsRate` — a value is a rate or price, and which one.
* `IsTooLarge` — a value is a whole number that does not fit.
* `usable?_eq_some_iff`, `usable?_eq_none_iff`, `usable?_eq_error_iff` — what is read off a value,
  what is passed over, and what cannot be read.
* `Json.FitsFloats` — every whole number within a value fits.
* `IsQuote`, `priceIn_eq_error_iff` — the value that is the price of an asset in a reply, and when
  it cannot be read.
* `Reply.Carries` — a reply carries the members of an object.
* `Feed.rateTable_of_carries`, `Feed.prices_of_carries`, `Feed.read_of_not_carries` — what is read
  off a reply depends on the object that it carries alone.
-/

namespace Reckoner

open Reckoner.Number

/-! ### Values -/

/-- A value is a rate or price: it is a number, finite and above zero. -/
inductive IsRate : Json → Float → Prop where
  | whole {n : Int} : 0 < n → FitsFloat n → IsRate (.int n) (Float.ofInt n)
  | real {x : Float} : x.isFinite = true → x > 0 → IsRate (.float x) x

/-- A value is one rate at most. -/
theorem IsRate.unique {v : Json} {x y : Float} (hx : IsRate v x) (hy : IsRate v y) : x = y := by
  cases hx with
  | whole => cases hy; rfl
  | real => cases hy; rfl

/-- **A value is read as a rate exactly if it is one.** -/
theorem usable?_eq_some_iff {v : Json} {x : Float} : usable? v = .ok (some x) ↔ IsRate v x := by
  constructor
  · intro h
    unfold usable? at h
    split at h
    · next n =>
      split_ifs at h with hinf hn
      · cases h
        exact .whole hn (by simpa [isInf_ofInt_iff] using hinf)
      · cases h
    · next y =>
      split_ifs at h with hy
      · cases h
        simp only [Bool.and_eq_true, decide_eq_true_eq] at hy
        exact .real hy.1 hy.2
      · cases h
    · cases h
  · rintro (⟨hn, hfits⟩ | ⟨hfinite, hpos⟩)
    · simp [usable?, isInf_ofInt_iff, hfits, hn]
    · simp [usable?, hfinite, hpos]

/-- A value is a whole number that does not fit a float. -/
def IsTooLarge (v : Json) : Prop := ∃ n, v = .int n ∧ ¬ FitsFloat n

/-- **A value cannot be read exactly if it is a whole number that does not fit.** -/
theorem usable?_eq_error_iff {v : Json} {e : TooLarge} : usable? v = .error e ↔ IsTooLarge v := by
  constructor
  · intro h
    unfold usable? at h
    split at h
    · next n =>
      split_ifs at h with hinf
      exact ⟨n, rfl, (isInf_ofInt_iff n).mp hinf⟩
    · cases h
    · cases h
  · rintro ⟨n, rfl, hn⟩
    rw [usable?, if_pos ((isInf_ofInt_iff n).mpr hn)]

/-- **What is neither a rate nor too large is passed over.** -/
theorem usable?_eq_none_iff {v : Json} :
    usable? v = .ok none ↔ (∀ x, ¬ IsRate v x) ∧ ¬ IsTooLarge v := by
  simp only [← usable?_eq_some_iff, ← usable?_eq_error_iff (e := ⟨⟩)]
  rcases usable? v with e | (_ | x) <;> simp

/-- Every whole number within a value fits a float. -/
def Json.FitsFloats (v : Json) : Prop := ∀ n, Within (.int n) v → FitsFloat n

/-- Nothing within a reply that fits into floats is too large for one. -/
theorem Json.FitsFloats.not_isTooLarge {v w : Json} (h : w.FitsFloats) (hv : Within v w) :
    ¬ IsTooLarge v := by
  rintro ⟨n, rfl, hn⟩
  exact hn (h n hv)

namespace Json

/-- A whole number fits if it is not too large for a float. -/
@[simp] theorem fitsFloats_int_iff {n : Int} : (Json.int n).FitsFloats ↔ FitsFloat n := by
  refine ⟨fun h => h n .self, fun h m hm => ?_⟩
  cases hm
  exact h

/-- A float fits. -/
@[simp] theorem fitsFloats_float (x : Float) : (Json.float x).FitsFloats := nofun

/-- So does a text. -/
@[simp] theorem fitsFloats_str (s : String) : (Json.str s).FitsFloats := nofun

/-- An object fits if its members do. -/
@[simp] theorem fitsFloats_obj_iff {members : List (String × Json)} :
    (Json.obj members).FitsFloats ↔ ∀ e ∈ members, e.2.FitsFloats := by
  simp only [FitsFloats, within_obj_iff, reduceCtorEq, false_or]
  exact ⟨fun h e he n hn => h n ⟨e, he, hn⟩, fun h n ⟨e, he, hn⟩ => h e he n hn⟩

end Json

/-! ### Prices in a reply -/

/-- The value that is the price of an asset in a reply: a member of the object under its name. -/
def IsQuote (data : Members) (name : String) (v : Json) : Prop :=
  ∃ quote, data.lookup name = some (.obj quote) ∧ quote.lookup "usd" = some v

/-- A price is read off the value that is quoted, if there is one. -/
theorem priceIn_cases (data : Members) (name : String) :
    (∃ v, IsQuote data name v ∧ priceIn data name = usable? v) ∨
      (∀ v, ¬ IsQuote data name v) ∧ priceIn data name = .ok none := by
  unfold priceIn
  split
  · next quote hquote =>
    cases husd : quote.lookup "usd" with
    | some v => exact .inl ⟨v, ⟨quote, hquote, husd⟩, rfl⟩
    | none =>
      refine .inr ⟨?_, rfl⟩
      rintro v ⟨quote', hquote', hv⟩
      cases hquote.symm.trans hquote'
      rw [husd] at hv
      cases hv
  · next hnone =>
    refine .inr ⟨?_, rfl⟩
    rintro v ⟨quote, hquote, -⟩
    exact hnone quote hquote

/-- An asset has one quote at most. -/
theorem IsQuote.unique {data : Members} {name : String} {v w : Json} (hv : IsQuote data name v)
    (hw : IsQuote data name w) : v = w := by
  obtain ⟨quote, hquote, hv⟩ := hv
  obtain ⟨quote', hquote', hw⟩ := hw
  cases hquote.symm.trans hquote'
  exact Option.some.inj (hv.symm.trans hw)

/-- **The price of an asset cannot be read exactly if its quote is too large.** -/
theorem priceIn_eq_error_iff {data : Members} {name : String} {e : TooLarge} :
    priceIn data name = .error e ↔ ∃ v, IsQuote data name v ∧ IsTooLarge v := by
  obtain ⟨v, hv, heq⟩ | ⟨hnone, heq⟩ := priceIn_cases data name
  · rw [heq, usable?_eq_error_iff]
    refine ⟨fun h => ⟨v, hv, h⟩, ?_⟩
    rintro ⟨w, hw, h⟩
    exact hv.unique hw ▸ h
  · rw [heq]
    exact iff_of_false (by simp) fun ⟨v, hv, _⟩ => hnone v hv

/-- A quote stands in the data that it is read from. -/
theorem isQuote_within {data : Members} {name : String} {v : Json} (h : IsQuote data name v) :
    Json.Within v (.obj data) := by
  obtain ⟨quote, hquote, hv⟩ := h
  exact (Json.within_of_lookup hv).trans (Json.within_of_lookup hquote)

/-! ### Replies -/

/-- A reply carries the members of an object: it has no status of an error, and this is its body. -/
def Reply.Carries (reply : Reply) (data : Members) : Prop :=
  ∃ status text, status < 400 ∧ reply = .response status text (.ok (.obj data))

/-- A reply carries one object at most. -/
theorem Reply.Carries.unique {reply : Reply} {data other : Members} (h : reply.Carries data)
    (hother : reply.Carries other) : data = other := by
  obtain ⟨status, text, -, rfl⟩ := h
  obtain ⟨status', text', -, heq⟩ := hother
  cases heq
  rfl

namespace Feed

/-- **Data are what a reply carries.** -/
theorem exists_dataOf_iff (f : Feed) (reply : Reply) (data : Members) :
    (∃ status, f.dataOf reply = .ok (status, data)) ↔ reply.Carries data := by
  constructor
  · rintro ⟨status, h⟩
    unfold dataOf at h
    split at h
    · cases h
    · cases h
    · next status' text body =>
      split_ifs at h with hstatus
      split at h
      · cases h
      · cases h
        exact ⟨status, text, by omega, rfl⟩
      · cases h
  · rintro ⟨status, text, hstatus, rfl⟩
    refine ⟨status, ?_⟩
    unfold dataOf
    exact if_neg (by omega)

/-- A rate table is read off the object that a reply carries. -/
theorem rateTable_of_carries (f : Feed) {reply : Reply} {data : Members} (h : reply.Carries data)
    (code : String) : f.rateTable code reply =
      (ratesIn data).map fun table? => table?.map fun t => t.put (upperCode code) 1 := by
  obtain ⟨status, hdata⟩ := (f.exists_dataOf_iff reply data).mpr h
  unfold rateTable
  rw [hdata]
  dsimp only
  cases ratesIn data <;> rfl

/-- Prices are read off the object that a reply carries. -/
theorem prices_of_carries (f : Feed) {reply : Reply} {data : Members} (h : reply.Carries data)
    (names : List String) : f.prices names reply = (addPrices data [] names).map some := by
  obtain ⟨status, hdata⟩ := (f.exists_dataOf_iff reply data).mpr h
  unfold prices
  rw [hdata]

/-- **Nothing is read off a reply that carries no object.** -/
theorem read_of_not_carries (f : Feed) {reply : Reply} (h : ∀ data, ¬ reply.Carries data) :
    (∀ code, f.rateTable code reply = .ok none) ∧ ∀ names, f.prices names reply = .ok none := by
  have hdata : ∃ e, f.dataOf reply = .error e := by
    cases hdata : f.dataOf reply with
    | error e => exact ⟨e, rfl⟩
    | ok found => exact absurd ((f.exists_dataOf_iff reply found.2).mp ⟨found.1, hdata⟩) (h found.2)
  obtain ⟨e, hdata⟩ := hdata
  unfold rateTable prices
  simp only [hdata, implies_true, and_self]

end Feed

end Reckoner
