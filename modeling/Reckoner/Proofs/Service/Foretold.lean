import Reckoner.Proofs.Cache.Agenda
import Reckoner.Service.Job

/-!
# Foretold results

The result of a plan depends on what its lookups find, and on nothing else.  Where a forecast says
what lookups find, it says what results there may be, without any cache, clock or other job.

* `Outlook` — a forecast for rate tables and one for prices.
* `Findings.Fit`, `Findings.AgreeOn` — findings are what an outlook says; two findings have the same
  for a lookup.
* `Plan.result_congr` — the result is the same for findings that agree on the lookups of the plan.
* `Plan.Foretold` — a result that an outlook says.
* `Foretold.unique` — an exact outlook says at most one result.
-/

namespace Reckoner

/-! ### Findings -/

/-- What lookups may find, in rate tables and among prices. -/
structure Outlook where
  tables : Forecast RateTable
  prices : Forecast Float

/-- A lookup is certain to end. -/
def Outlook.Ends (o : Outlook) : Lookup → Prop
  | .rates code => o.tables.Ends code
  | .price code => o.prices.Ends code

/-- The outlook that knows how each fetch ends. -/
def Outlook.exact (table : String → Option (Option RateTable))
    (price : String → Option (Option Float)) : Outlook := ⟨.exact table, .exact price⟩

namespace Findings

/-- What was found is what an outlook says. -/
structure Fit (o : Outlook) (f : Findings) : Prop where
  tables : ∀ code table, f.tables.lookup code = some table → o.tables.Brings code table
  prices : ∀ code price, f.prices.lookup code = some price → o.prices.Brings code price

/-- Two findings have the same for a lookup. -/
def AgreeOn (f g : Findings) : Lookup → Prop
  | .rates code => f.tables.lookup code = g.tables.lookup code
  | .price code => f.prices.lookup code = g.prices.lookup code

/-- Nothing was found yet. -/
theorem Fit.nil (o : Outlook) : (⟨[], []⟩ : Findings).Fit o := ⟨by simp, by simp⟩

/-- Where an outlook is exact, all findings agree on what they have. -/
theorem Fit.agreeOn {table : String → Option (Option RateTable)}
    {price : String → Option (Option Float)} {f g : Findings} (hf : f.Fit (.exact table price))
    (hg : g.Fit (.exact table price)) {l : Lookup} (hfl : f.has l = true) (hgl : g.has l = true) :
    f.AgreeOn g l := by
  cases l with
  | rates code =>
    obtain ⟨x, hx⟩ := Option.isSome_iff_exists.mp hfl
    obtain ⟨y, hy⟩ := Option.isSome_iff_exists.mp hgl
    have hxy : some x = some y := (hf.tables code x hx).symm.trans (hg.tables code y hy)
    show f.tables.lookup code = g.tables.lookup code
    rw [hx, hy, hxy]
  | price code =>
    obtain ⟨x, hx⟩ := Option.isSome_iff_exists.mp hfl
    obtain ⟨y, hy⟩ := Option.isSome_iff_exists.mp hgl
    have hxy : some x = some y := (hf.prices code x hx).symm.trans (hg.prices code y hy)
    show f.prices.lookup code = g.prices.lookup code
    rw [hx, hy, hxy]

/-- What was found by a lookup that an exact outlook knows has come to its end. -/
theorem Fit.ends {table : String → Option (Option RateTable)}
    {price : String → Option (Option Float)} {f : Findings} (hf : f.Fit (.exact table price))
    {l : Lookup} (hl : f.has l = true) : (Outlook.exact table price).Ends l := by
  cases l with
  | rates code =>
    obtain ⟨x, hx⟩ := Option.isSome_iff_exists.mp hl
    exact Option.isSome_iff_exists.mpr ⟨x, hf.tables code x hx⟩
  | price code =>
    obtain ⟨x, hx⟩ := Option.isSome_iff_exists.mp hl
    exact Option.isSome_iff_exists.mpr ⟨x, hf.prices code x hx⟩

end Findings

/-! ### Results -/

/-- A price depends on its own lookup alone. -/
theorem PriceSource.price_congr {s : PriceSource} {f g : Findings}
    (h : ∀ l ∈ s.lookup?, f.AgreeOn g l) : s.price f = s.price g := by
  cases s with
  | known price => rfl
  | rate source target =>
    have hsource : f.tables.lookup source = g.tables.lookup source := h (.rates source) rfl
    simp only [price, hsource]
  | coin code stable =>
    have hcode : f.prices.lookup code = g.prices.lookup code := h (.price code) rfl
    simp only [price, hcode]

namespace Plan

/-- **The result of a plan depends on its lookups alone.** -/
theorem result_congr {p : Plan} {f g : Findings} (h : ∀ l ∈ p.lookups, f.AgreeOn g l) :
    p.result f = p.result g := by
  cases p with
  | answered answer => rfl
  | rates code =>
    cases code with
    | none => rfl
    | some code =>
      have hcode : f.tables.lookup code = g.tables.lookup code :=
        h (.rates code) (List.mem_singleton_self _)
      simp only [result, Option.bind_some, hcode]
  | price source =>
    have hprice : source.price f = source.price g :=
      PriceSource.price_congr fun l hl => h l (Option.mem_toList.mpr hl)
    simp only [result, hprice]
  | exchange query source target =>
    -- Each plan works out its result from the lookups it lists, so only those have to agree.
    have hsource : (dollarSource source).price f = (dollarSource source).price g :=
      PriceSource.price_congr fun l hl =>
        h l (List.mem_append_left _ (Option.mem_toList.mpr hl))
    have htarget : (dollarSource target).price f = (dollarSource target).price g :=
      PriceSource.price_congr fun l hl =>
        h l (List.mem_append_right _ (Option.mem_toList.mpr hl))
    simp only [result, hsource, htarget]

/-- A result of a plan that an outlook says: it follows from findings that the outlook says and
    that lack nothing. -/
def Foretold (o : Outlook) (p : Plan) (r : Result) : Prop :=
  ∃ f : Findings, f.Fit o ∧ (∀ l ∈ p.lookups, f.has l = true) ∧ p.result f = r

variable {table : String → Option (Option RateTable)} {price : String → Option (Option Float)}
  {p : Plan} {r r' : Result}

/-- **An exact outlook says at most one result.** -/
theorem Foretold.unique (h : p.Foretold (.exact table price) r)
    (h' : p.Foretold (.exact table price) r') : r = r' := by
  obtain ⟨f, hf, hhas, rfl⟩ := h
  obtain ⟨g, hg, hhas', rfl⟩ := h'
  exact result_congr fun l hl => hf.agreeOn hg (hhas l hl) (hhas' l hl)

/-- Where an exact outlook says a result, all lookups end. -/
theorem Foretold.ends (h : p.Foretold (.exact table price) r) :
    ∀ l ∈ p.lookups, (Outlook.exact table price).Ends l := by
  obtain ⟨f, hf, hhas, -⟩ := h
  exact fun l hl => hf.ends (hhas l hl)

end Plan

end Reckoner
