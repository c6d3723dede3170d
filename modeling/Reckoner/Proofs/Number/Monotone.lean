import Reckoner.Proofs.Number.Places

/-!
# What is shown keeps the order

Floats are shown in the order of their values.  Between two floats that are rounded to different
decimals there is a power of ten that both of them are rounded to as it is, and a float that is near
a whole number has every float between the two beside it.

* `power_eq_or_exists_between` — a power of ten between numbers with different decimals.
* `IsNearest.mono_placesFor` — numbers that are rounded by their first digits keep their order.
* `Shown.mono` — the numbers that are shown are in the order of the floats.
* `display_mono` — of two finite floats, the lower one is not shown as a greater number.
-/

namespace Reckoner.Number

variable {x y : Float} {a b : Binary} {v w : ℚ}

/-- **Between numbers with different decimals** there is a power of ten that has the decimals of
    both. -/
theorem power_eq_or_exists_between (ha : a.toRat ≠ 0) (hb : b.toRat ≠ 0)
    (h : |a.toRat| ≤ |b.toRat|) :
    a.power = b.power ∨ ∃ g, |a.toRat| ≤ g ∧ g ≤ |b.toRat| ∧
      IsNearest (placesFor a.power) g g ∧ IsNearest (placesFor b.power) g g := by
  have hself_a := (Binary.tenPow_le_abs_iff ha a.power).mpr le_rfl
  have hself_b := (Binary.tenPow_le_abs_iff hb b.power).mpr le_rfl
  have hle : a.power ≤ b.power := (Binary.tenPow_le_abs_iff hb _).mp (hself_a.trans h)
  obtain hlt | heq := lt_or_eq_of_le hle
  · refine .inr ⟨10 ^ b.power, ?_, hself_b, isNearest_tenPow ?_, isNearest_tenPow ?_⟩
    · exact le_of_not_ge fun hge => hlt.not_ge ((Binary.tenPow_le_abs_iff ha _).mp hge)
    · have hfew := placesFor_anti hle
      have hplaces := four_sub_le_placesFor b.power
      omega
    · have hplaces := four_sub_le_placesFor b.power
      omega
  · exact .inl heq

/-- **Numbers that are rounded by their first digits** keep their order. -/
theorem IsNearest.mono_placesFor (ha : a.toRat ≠ 0) (hb : b.toRat ≠ 0)
    (hv : IsNearest (placesFor a.power) a.toRat v) (hw : IsNearest (placesFor b.power) b.toRat w)
    (h : a.toRat ≤ b.toRat) : v ≤ w := by
  have hzero : ∀ places, IsNearest places 0 0 := fun places => by
    simpa using isNearest_intCast places 0
  obtain hneg_a | hpos_a := lt_or_gt_of_ne ha
  · obtain hneg_b | hpos_b := lt_or_gt_of_ne hb
    · -- The magnitudes are in the opposite order.
      have habs : |b.toRat| ≤ |a.toRat| := by
        rw [abs_of_neg hneg_a, abs_of_neg hneg_b]
        linarith
      obtain heq | ⟨g, hbg, hga, hg_b, hg_a⟩ := power_eq_or_exists_between hb ha habs
      · rw [heq] at hw
        exact hv.mono hw h
      · rw [abs_of_neg hneg_a] at hga
        rw [abs_of_neg hneg_b] at hbg
        calc v ≤ -g := hv.mono hg_a.neg (by linarith)
          _ ≤ w := hg_b.neg.mono hw (by linarith)
    · exact (hv.mono (hzero _) hneg_a.le).trans ((hzero _).mono hw hpos_b.le)
  · have hpos_b := hpos_a.trans_le h
    have habs : |a.toRat| ≤ |b.toRat| := by
      rwa [abs_of_pos hpos_a, abs_of_pos hpos_b]
    obtain heq | ⟨g, hag, hgb, hg_a, hg_b⟩ := power_eq_or_exists_between ha hb habs
    · rw [heq] at hv
      exact hv.mono hw h
    · rw [abs_of_pos hpos_a] at hag
      rw [abs_of_pos hpos_b] at hgb
      exact (hv.mono hg_a hag).trans (hg_b.mono hw hgb)

/-- A float between a whole number and a float that is shown as it is shown as it, too. -/
theorem nearWhole?_of_between_of_lt {n : ℤ} (ha : Binary.ofFloat? x = some a)
    (hb : Binary.ofFloat? y = some b) (hn : nearWhole? x = some n) (hlt : |a.toRat| < 10 ^ 15)
    (hbetween : a.toRat ≤ b.toRat ∧ b.toRat < n ∨ (n : ℚ) < b.toRat ∧ b.toRat ≤ a.toRat) :
    nearWhole? y = some n ∧ |b.toRat| < 10 ^ 15 := by
  obtain rfl := ((nearWhole?_eq_some_iff ha).mp hn).1
  have hnearest := abs_le.mp (abs_nearest_le hlt.le)
  have hsmall : |b.toRat| < 10 ^ 15 := by
    rw [abs_lt] at hlt ⊢
    obtain ⟨hlow, hhigh⟩ | ⟨hlow, hhigh⟩ := hbetween
    · exact ⟨hlt.1.trans_le hlow, hhigh.trans_le hnearest.2⟩
    · exact ⟨hnearest.1.trans_lt hlow, hhigh.trans_lt hlt.2⟩
  refine ⟨nearWhole?_of_between ha hb hlt.le hsmall.le hn ?_, hsmall⟩
  exact hbetween.imp (And.imp_right le_of_lt) (And.imp_left le_of_lt)

/-- **The numbers that are shown are in the order of the floats.** -/
theorem Shown.mono (ha : Binary.ofFloat? x = some a) (hb : Binary.ofFloat? y = some b)
    (hv : Shown x a v) (hw : Shown y b w) (h : a.toRat ≤ b.toRat) : v ≤ w := by
  cases hv with
  | @whole n hn hlt =>
    cases hw with
    | @whole k hk =>
      obtain rfl := ((nearWhole?_eq_some_iff ha).mp hn).1
      obtain rfl := ((nearWhole?_eq_some_iff hb).mp hk).1
      exact a.isNearest_nearest.mono b.isNearest_nearest h
    | rounded _ hnot hnearest =>
      -- A number that rounded past the whole one would lie near it, and be shown as it.
      obtain hle | hgt := le_or_gt (n : ℚ) b.toRat
      · exact (isNearest_intCast _ n).mono hnearest hle
      · obtain ⟨hnear, hsmall⟩ := nearWhole?_of_between_of_lt ha hb hn hlt (.inl ⟨h, hgt⟩)
        exact absurd (hnot n hnear) hsmall.not_ge
  | rounded hne_a hnot hnearest =>
    cases hw with
    | @whole n hn hlt =>
      obtain hle | hgt := le_or_gt a.toRat (n : ℚ)
      · exact hnearest.mono (isNearest_intCast _ n) hle
      · obtain ⟨hnear, hsmall⟩ := nearWhole?_of_between_of_lt hb ha hn hlt (.inr ⟨hgt, h⟩)
        exact absurd (hnot n hnear) hsmall.not_ge
    | rounded hne_b _ hnearest' => exact hnearest.mono_placesFor hne_a hne_b hnearest' h

/-- **Of two finite floats, the lower one is not shown as a greater number.**  The text of each of
    them stands for one number. -/
theorem display_mono (hx : x.isFinite = true) (hy : y.isFinite = true) (h : x ≤ y) :
    ∃ s t v w, display (.real x) = .ok (String.ofList s) ∧
      display (.real y) = .ok (String.ofList t) ∧
      (∀ q, ShowsNumber s q ↔ q = v) ∧ (∀ q, ShowsNumber t q ↔ q = w) ∧ v ≤ w := by
  obtain ⟨a, ha⟩ := exists_ofFloat?_of_isFinite hx
  obtain ⟨b, hb⟩ := exists_ofFloat?_of_isFinite hy
  obtain ⟨v, hv, hshows_v, -⟩ := exists_shown ha
  obtain ⟨w, hw, hshows_w, -⟩ := exists_shown hb
  have hle := hv.mono ha hb hw ((le_iff_toRat ha hb).mp h)
  exact ⟨floatText x, floatText y, v, w, display_of_isFinite hx, display_of_isFinite hy,
    fun _ => hshows_v.iff_eq, fun _ => hshows_w.iff_eq, hle⟩

/-- A float below a whole number that is shown as more than it is, and one above it that is shown as
    less. -/
theorem display_mono_thousand :
    (999.9999996 : Float).isFinite = true ∧ (1000.004 : Float).isFinite = true ∧
      (999.9999996 : Float) ≤ 1000.004 ∧
      ∃ s t v w, display (.real 999.9999996) = .ok (String.ofList s) ∧
        display (.real 1000.004) = .ok (String.ofList t) ∧
        (∀ q, ShowsNumber s q ↔ q = v) ∧ (∀ q, ShowsNumber t q ↔ q = w) ∧ v ≤ w :=
  ⟨rfl, rfl, by decide, display_mono rfl rfl (by decide)⟩

example : floatText 999.9999996 = floatText 1000.004 := by decide +kernel

end Reckoner.Number
