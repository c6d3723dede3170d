import Mathlib.Data.Bool.AllAny
import Mathlib.Data.Nat.Basic
import Reckoner.Proofs.Text.Preimages

/-!
# Texts in lower case

The lower case of a text is made of characters that have no other lower case, so that it stays as it
is.  How a character is lowered depends on the text around it only through the next characters with
a case; at a character without one a text can be cut.

* `IsLowered` — the characters that are their own lower case.
* `isLowered_of_mem_lower`, `lower_eq_self` — the lower case of a text stays as it is.
* `exists_lowerAfter_append`, `lower_append_cons` — where the lower case of a text can be cut.
-/

namespace Reckoner.Text

/-- A character that is its own lower case. -/
def IsLowered (c : Char) : Prop := lowerChar c = c ∧ c ≠ '\u03a3' ∧ c ≠ '\u0130'

instance (c : Char) : Decidable (IsLowered c) := inferInstanceAs (Decidable (_ ∧ _ ∧ _))

/-- The code points that a run takes its own to. -/
def CaseRun.images (r : CaseRun) : List Nat :=
  (List.range ((r.last - r.first) / r.step + 1)).map fun i => r.target + r.step * i

theorem CaseRun.mem_images {r : CaseRun} {n m : Nat} (h : r.image? n = some m) : m ∈ r.images := by
  unfold image? at h
  obtain ⟨⟨-, hlast, hstep⟩, hm⟩ := Option.ite_none_right_eq_some.mp h
  refine List.mem_map.mpr ⟨(n - r.first) / r.step, List.mem_range.mpr ?_, ?_⟩
  · exact Nat.lt_succ_of_le (Nat.div_le_div_right (Nat.sub_le_sub_right hlast r.first))
  · rw [Nat.mul_div_cancel' (Nat.dvd_of_mod_eq_zero hstep), Option.some.inj hm]

/-- Whether a run takes no image of another one further.  Most runs are far apart, which two
    comparisons show. -/
def CaseRun.misses (r r' : CaseRun) : Bool :=
  (r.target + (r.last - r.first)).blt r'.first || r'.last.blt r.target ||
    r.images.all fun m => (r'.image? m).isNone

theorem misses_lowerRuns : (lowerRuns.all fun r => lowerRuns.all (r.misses ·)) = true := by
  decide +kernel

/-- The images are characters, and not the two with a form of their own. -/
theorem images_lowerRuns : (lowerRuns.all fun r => r.images.all fun m =>
    (m.blt 0xd800 || 0xdfff.blt m && m.blt 0x110000) && !m.beq 0x3a3 && !m.beq 0x130) = true := by
  decide +kernel

theorem CaseRun.image?_eq_none {r r' : CaseRun} (h : r.misses r' = true) {m : Nat}
    (hm : m ∈ r.images) : r'.image? m = none := by
  obtain ⟨i, hi, rfl⟩ := List.mem_map.mp hm
  have hle : r.step * i ≤ r.last - r.first :=
    Nat.le_trans (Nat.mul_le_mul_left _ (Nat.le_of_lt_succ (List.mem_range.mp hi)))
      (Nat.mul_div_le _ _)
  unfold misses at h
  rw [Bool.or_eq_true, Bool.or_eq_true] at h
  obtain (hbelow | habove) | hall := h
  · have hbelow := Nat.blt_eq.mp hbelow
    exact if_neg (by omega)
  · have habove := Nat.blt_eq.mp habove
    exact if_neg (by omega)
  · exact Option.isNone_iff_eq_none.mp (List.all_eq_true.mp hall _ hm)

/-- **The lower case of a character is in lower case.** -/
theorem isLowered_lowerChar {c : Char} (hsigma : c ≠ '\u03a3') (hdotted : c ≠ '\u0130') :
    IsLowered (lowerChar c) := by
  cases himage : imageIn? lowerRuns c.toNat with
  | none =>
    have hsame : lowerChar c = c := by rw [lowerChar, himage]; rfl
    rw [hsame]
    exact ⟨hsame, hsigma, hdotted⟩
  | some m =>
    obtain ⟨r, hr, hrun⟩ := exists_image_of_imageIn? himage
    have hm := CaseRun.mem_images hrun
    have hnone : imageIn? lowerRuns m = none := by
      -- No run takes an image of this one further.
      refine Option.eq_none_iff_forall_ne_some.mpr fun k hk => ?_
      obtain ⟨r', hr', hrun'⟩ := exists_image_of_imageIn? hk
      have hmiss := List.all_eq_true.mp (List.all_eq_true.mp misses_lowerRuns r hr) r' hr'
      rw [CaseRun.image?_eq_none hmiss hm] at hrun'
      cases hrun'
    have hchar := List.all_eq_true.mp (List.all_eq_true.mp images_lowerRuns r hr) m hm
    simp only [Bool.and_eq_true, Bool.or_eq_true, Nat.blt_eq, Bool.not_eq_true',
      ← Bool.not_eq_true (Nat.beq _ _), Nat.beq_eq] at hchar
    obtain ⟨⟨hvalid, hsigma⟩, hdotted⟩ := hchar
    have hcode : (Char.ofNat m).toNat = m := toNat_ofNat (by unfold Nat.isValidChar; omega)
    have hsame : lowerChar c = Char.ofNat m := by rw [lowerChar, himage]; rfl
    rw [hsame]
    refine ⟨by rw [lowerChar, hcode, hnone]; rfl, ?_, ?_⟩
    · intro h
      exact hsigma (by rw [← hcode, h]; rfl)
    · intro h
      exact hdotted (by rw [← hcode, h]; rfl)

/-- What the characters with a form of their own are lowered to. -/
def ownForms : List Char := ['\u03c2', '\u03c3', 'i', '\u0307']

/-- What a character is lowered to before the rest of a text. -/
theorem exists_lowerAfter_cons (casedBefore : Bool) (c : Char) (s : List Char) :
    ∃ form casedBetween, lowerAfter casedBefore (c :: s) = form ++ lowerAfter casedBetween s ∧
      ∀ d ∈ form, d ∈ ownForms ∨ (c ≠ '\u03a3' ∧ c ≠ '\u0130') ∧ d = lowerChar c := by
  by_cases hsigma : c = '\u03a3'
  · refine ⟨[_], _, by rw [lowerAfter, if_pos hsigma]; rfl, ?_⟩
    rw [List.forall_mem_singleton]
    split_ifs <;> exact .inl (by decide)
  · by_cases hdotted : c = '\u0130'
    · refine ⟨['i', '\u0307'], _, by rw [lowerAfter, if_neg hsigma, if_pos hdotted]; rfl, ?_⟩
      exact fun d hd => .inl (List.mem_cons_of_mem _ (List.mem_cons_of_mem _ hd))
    · refine ⟨[_], _, by rw [lowerAfter, if_neg hsigma, if_neg hdotted]; rfl, ?_⟩
      rw [List.forall_mem_singleton]
      exact .inr ⟨⟨hsigma, hdotted⟩, rfl⟩

/-- The characters of a text in lower case. -/
theorem of_mem_lowerAfter {casedBefore : Bool} {s : List Char} {c : Char}
    (h : c ∈ lowerAfter casedBefore s) :
    c ∈ ownForms ∨ ∃ d ∈ s, (d ≠ '\u03a3' ∧ d ≠ '\u0130') ∧ c = lowerChar d := by
  induction s generalizing casedBefore with
  | nil => cases h
  | cons d s ih =>
    obtain ⟨form, casedBetween, heq, hform⟩ := exists_lowerAfter_cons casedBefore d s
    rw [heq, List.mem_append] at h
    obtain h | h := h
    · exact (hform c h).imp_right fun hd => ⟨d, List.mem_cons_self, hd⟩
    · exact (ih h).imp_right fun ⟨e, he, hc⟩ => ⟨e, List.mem_cons_of_mem d he, hc⟩

/-- **The lower case of a text is made of such characters.** -/
theorem isLowered_of_mem_lower {s : List Char} {c : Char} (h : c ∈ lower s) : IsLowered c := by
  have hforms : ∀ d ∈ ownForms, IsLowered d := List.all_iff_forall_prop.mp (by decide +kernel)
  obtain h | ⟨d, -, ⟨hsigma, hdotted⟩, rfl⟩ := of_mem_lowerAfter h
  · exact hforms c h
  · exact isLowered_lowerChar hsigma hdotted

/-- **A character that nothing else is lowered to** is in the lower case of a text only if it is in
    the text. -/
theorem mem_of_mem_lower {s : List Char} {c : Char} (hform : c ∉ ownForms) (hne : c.toNat ≠ 0)
    (hpre : preimages lowerRuns c.toNat = []) (h : c ∈ lower s) : c ∈ s := by
  obtain h | ⟨d, hd, -, heq⟩ := of_mem_lowerAfter h
  · exact absurd h hform
  · have hcode := toNat_mem_preimages heq.symm hne
    rw [hpre, List.mem_singleton, Char.toNat_inj] at hcode
    exact hcode ▸ hd

theorem lowerAfter_eq_self {s : List Char} (h : ∀ c ∈ s, IsLowered c) (casedBefore : Bool) :
    lowerAfter casedBefore s = s := by
  induction s generalizing casedBefore with
  | nil => rfl
  | cons c s ih =>
    obtain ⟨⟨hsame, hsigma, hdotted⟩, hs⟩ := List.forall_mem_cons.mp h
    rw [lowerAfter, if_neg hsigma, if_neg hdotted, hsame, ih hs]

/-- **A text made of such characters is its own lower case.** -/
theorem lower_eq_self {s : List Char} (h : ∀ c ∈ s, IsLowered c) : lower s = s :=
  lowerAfter_eq_self h false

/-! ### Cuts -/

theorem casedFollows_append {t : List Char} (ht : casedFollows t = false) (s : List Char) :
    casedFollows (s ++ t) = casedFollows s := by
  unfold casedFollows at ht ⊢
  rw [List.dropWhile_append]
  split_ifs with hnil
  · rw [ht, List.isEmpty_iff.mp hnil]
    rfl
  · obtain ⟨c, r, heq⟩ := List.exists_cons_of_ne_nil (mt List.isEmpty_iff.mpr hnil)
    rw [heq]
    rfl

/-- **A text can be lowered up to a place that no character with a case follows**, and from there
    on after what stands before. -/
theorem exists_lowerAfter_append {t : List Char} (ht : casedFollows t = false) (casedBefore : Bool)
    (s : List Char) : ∃ casedBetween,
      lowerAfter casedBefore (s ++ t) = lowerAfter casedBefore s ++ lowerAfter casedBetween t := by
  induction s generalizing casedBefore with
  | nil => exact ⟨casedBefore, rfl⟩
  | cons c s ih =>
    obtain ⟨casedBetween, heq⟩ := ih (if isCaseIgnorable c then casedBefore else isCased c)
    refine ⟨casedBetween, ?_⟩
    rw [List.cons_append, lowerAfter, lowerAfter, heq, casedFollows_append ht]
    split_ifs <;> rfl

/-- A character that has no case, and before and behind which a text can be lowered apart. -/
structure IsCaseless (c : Char) : Prop where
  isLowered : IsLowered c
  not_ignorable : isCaseIgnorable c = false
  not_cased : isCased c = false

instance (c : Char) : Decidable (IsCaseless c) :=
  decidable_of_iff (IsLowered c ∧ isCaseIgnorable c = false ∧ isCased c = false)
    ⟨fun h => ⟨h.1, h.2.1, h.2.2⟩, fun h => ⟨h.isLowered, h.not_ignorable, h.not_cased⟩⟩

/-- **The lower case on either side of a character without a case.** -/
theorem lower_append_cons {c : Char} (hc : IsCaseless c) (s t : List Char) :
    lower (s ++ c :: t) = lower s ++ c :: lower t := by
  have hfollows : casedFollows (c :: t) = false := by
    rw [casedFollows, List.dropWhile_cons_of_neg (by simp [hc.not_ignorable])]
    exact hc.not_cased
  obtain ⟨casedBetween, heq⟩ := exists_lowerAfter_append hfollows false s
  obtain ⟨hsame, hsigma, hdotted⟩ := hc.isLowered
  rw [lower, heq, lowerAfter, if_neg hsigma, if_neg hdotted, hsame,
    if_neg (by simp [hc.not_ignorable]), hc.not_cased, lower, lower]

end Reckoner.Text
