import Reckoner.Proofs.Number.Decimals

/-!
# Nearest multiples keep the order

Numbers that are rounded to multiples of one power of ten keep their order.  So rounding does not
pass any multiple: what lies below one is not rounded to more than it.

* `IsNearest.abs_sub_le` — the nearest multiple is half a unit away at most.
* `IsNearest.mono` — the nearest multiples of two numbers are in the order of the numbers.
* `IsNearest.unique`, `isNearest_natCast` — there is one nearest multiple; which whole number it is.
* `isNearest_intCast`, `isNearest_tenPow` — whole numbers and powers of ten are nearest to
  themselves.
* `Binary.isNearest_nearest`, `Binary.nearest_eq_of_between` — the nearest whole number.
-/

namespace Reckoner.Number

variable {places : Nat} {x y v w : ℚ}

/-- No other multiple is nearer. -/
theorem IsNearest.exists_le (h : IsNearest places x v) :
    ∃ k : ℤ, v = k / 10 ^ places ∧ ∀ j : ℤ, |v - x| ≤ |j / 10 ^ places - x| := by
  obtain ⟨k, rfl, hk⟩ := h
  refine ⟨k, rfl, fun j => ?_⟩
  by_cases hj : j = k
  · rw [hj]
  · obtain hlt | ⟨heq, -⟩ := hk j hj
    · exact hlt.le
    · exact heq.le

/-- **The nearest multiple is half a unit away at most.** -/
theorem IsNearest.abs_sub_le (h : IsNearest places x v) : |v - x| ≤ 1 / 2 / 10 ^ places := by
  obtain ⟨k, rfl, hk⟩ := h.exists_le
  have habove := hk (k + 1)
  have hbelow := hk (k - 1)
  have hunit : (0 : ℚ) < (10 ^ places)⁻¹ := by positivity
  push_cast at habove hbelow
  simp only [div_eq_mul_inv] at habove hbelow ⊢
  generalize ((10 : ℚ) ^ places)⁻¹ = unit at *
  grind

/-- **Nearest multiples are in the order of the numbers.** -/
theorem IsNearest.mono (hv : IsNearest places x v) (hw : IsNearest places y w) (h : x ≤ y) :
    v ≤ w := by
  by_contra hlt
  rw [not_le] at hlt
  have hunit : (0 : ℚ) < (10 ^ places)⁻¹ := by positivity
  unfold IsNearest at hv hw
  simp only [div_eq_mul_inv] at hv hw
  generalize ((10 : ℚ) ^ places)⁻¹ = unit at *
  obtain ⟨k, rfl, hk⟩ := hv
  obtain ⟨j, rfl, hj⟩ := hw
  have hjk : j < k := by exact_mod_cast lt_of_mul_lt_mul_right hlt hunit.le
  have hvw := hk j hjk.ne
  have hwv := hj k hjk.ne'
  -- Both numbers are in the middle between the two multiples, so that these are even ones.
  have hmiddle : 2 * x = k * unit + j * unit ∧ Even k ∧ Even j := by grind
  obtain ⟨hmiddle, heven, heven'⟩ := hmiddle
  -- Then there is a multiple between them, which is nearer.
  have hbetween := hk (j + 1) (by grind)
  have hgap : (j + 2 : ℚ) * unit ≤ k * unit := by
    have hle : j + 2 ≤ k := by grind
    have hle' : (j + 2 : ℚ) ≤ k := by exact_mod_cast hle
    gcongr
  push_cast at hbetween
  grind

/-- There is only one nearest multiple. -/
theorem IsNearest.unique (hv : IsNearest places x v) (hw : IsNearest places x w) : v = w :=
  le_antisymm (hv.mono hw le_rfl) (hw.mono hv le_rfl)

/-- A whole number is nearest that is at most a half away, and even where it is a half away. -/
theorem isNearest_natCast {n : Nat} (hhalf : |(n : ℚ) - x| ≤ 1 / 2)
    (heven : |(n : ℚ) - x| = 1 / 2 → Even n) : IsNearest 0 x n := by
  have hnearest := @isNearest_of_abs_le 0 x n (by simpa using hhalf)
    fun htie => (Int.even_coe_nat _).mpr (heven (by simpa using htie))
  simpa using hnearest

/-! ### Multiples -/

/-- A multiple is nearest to itself. -/
theorem isNearest_self (places : Nat) (k : ℤ) :
    IsNearest places (k / 10 ^ places) (k / 10 ^ places) := by
  have hpow : (10 : ℚ) ^ places ≠ 0 := by positivity
  refine ⟨k, rfl, fun j hj => .inl ?_⟩
  rw [sub_self, abs_zero, abs_pos, sub_ne_zero, Ne, div_left_inj' hpow]
  exact_mod_cast hj

/-- A whole number is nearest to itself. -/
theorem isNearest_intCast (places : Nat) (n : ℤ) : IsNearest places n n := by
  have h := isNearest_self places (n * 10 ^ places)
  push_cast at h
  rwa [mul_div_cancel_right₀ _ (by positivity)] at h

/-- A power of ten that is not below the unit is nearest to itself. -/
theorem isNearest_tenPow {places : Nat} {i : ℤ} (h : -(places : ℤ) ≤ i) :
    IsNearest places (10 ^ i) (10 ^ i) := by
  obtain ⟨j, rfl⟩ : ∃ j : Nat, i = j - places := ⟨(i + places).toNat, by omega⟩
  have hself := isNearest_self places (10 ^ j)
  push_cast at hself
  rwa [zpow_sub₀ (by norm_num), zpow_natCast, zpow_natCast]

/-! ### The nearest whole number -/

namespace Binary

/-- **The nearest whole number is nearest.** -/
theorem isNearest_nearest (b : Binary) : IsNearest 0 b.toRat b.nearest := by
  have h := isNearest_scaled 0 b
  rw [pow_zero, div_one] at h
  convert h using 1
  unfold nearest
  split_ifs <;> push_cast <;> rfl

/-- What lies between a number and the nearest whole number is nearest to it, too. -/
theorem nearest_eq_of_between {a b : Binary} {n : ℤ} (ha : a.nearest = n)
    (h : a.toRat ≤ b.toRat ∧ b.toRat ≤ n ∨ (n : ℚ) ≤ b.toRat ∧ b.toRat ≤ a.toRat) :
    b.nearest = n := by
  have hself := isNearest_intCast 0 n
  have hnear := a.isNearest_nearest
  rw [ha] at hnear
  rw [← Int.cast_inj (α := ℚ)]
  obtain ⟨hlow, hhigh⟩ | ⟨hlow, hhigh⟩ := h
  · exact le_antisymm (b.isNearest_nearest.mono hself hhigh) (hnear.mono b.isNearest_nearest hlow)
  · exact le_antisymm (b.isNearest_nearest.mono hnear hhigh) (hself.mono b.isNearest_nearest hlow)

end Binary

end Reckoner.Number
