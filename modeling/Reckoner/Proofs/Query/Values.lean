import Reckoner.Proofs.Query.Amounts

/-!
# The values of amounts

An amount without its commas is a sign, digits, a fraction and a power of ten, and digits or the
fraction are there.  Every such text is read as a float, which may be infinite.

* `IsAmount.exists_decimal` — an amount without its commas.
* `IsDecimal.isSome_readFloat?` — such a text is read as a float.
* `IsAmount.isSome_readFloat?` — so every amount has a value.
-/

namespace Reckoner.Query

open Reckoner.Number Reckoner.Text

/-! ### Amounts without commas -/

/-- The text of an amount without commas. -/
def IsDecimal (s : List Char) : Prop :=
  ∃ sign whole fraction power, s = sign ++ (whole ++ (fraction ++ power)) ∧ IsSign sign ∧
    Perhaps (IsRun isDigit) whole ∧ Perhaps IsFraction fraction ∧ Perhaps IsPower power ∧
    (whole ≠ [] ∨ fraction ≠ [])

/-- Groups without their commas are digits. -/
theorem IsGroups.digits {s : List Char} (h : IsGroups s) :
    ∀ c ∈ s.filter (· ≠ ','), isDigit c = true := by
  intro c hc
  obtain ⟨hmem, hcomma⟩ := List.mem_filter.mp hc
  -- Groups hold digits and commas, and the commas are dropped.
  have hmark : isDigit c = true ∨ c = ',' := by
    clear hc hcomma
    induction h with
    | one ha hb hd =>
      simp only [List.mem_cons, List.not_mem_nil, or_false] at hmem
      obtain rfl | rfl | rfl | rfl := hmem <;> simp [*]
    | more ha hb hd _ ih =>
      simp only [List.mem_cons] at hmem
      obtain rfl | rfl | rfl | rfl | hmem := hmem
      · exact .inr rfl
      · exact .inl ha
      · exact .inl hb
      · exact .inl hd
      · exact ih hmem
  exact hmark.resolve_right (of_decide_eq_true hcomma)

/-- Where there is no comma none is left out. -/
theorem filter_eq_self_of_not_mem {s : List Char} (h : ',' ∉ s) : s.filter (· ≠ ',') = s := by
  refine List.filter_eq_self.mpr fun c hc => decide_eq_true ?_
  rintro rfl
  exact h hc

/-- What is in no such part is in no optional one. -/
theorem Perhaps.not_mem {P : List Char → Prop} {s : List Char} (h : Perhaps P s) {c : Char}
    (hP : P s → c ∉ s) : c ∉ s := by
  obtain rfl | h := h
  · exact List.not_mem_nil
  · exact hP h

/-- A fraction has no comma in it. -/
theorem IsFraction.comma_not_mem {s : List Char} (h : IsFraction s) : ',' ∉ s := by
  obtain ⟨ds, rfl, hds⟩ := h
  simp [hds.not_mem (c := ',') rfl]

/-- **An amount without its commas** has a sign, digits, a fraction and a power of ten. -/
theorem IsAmount.exists_decimal {form : AmountForm} {s : List Char} (h : IsAmount form s) :
    IsDecimal (s.filter (· ≠ ',')) := by
  obtain ⟨sign, mantissa, power, rfl, hsign, hmantissa, hpower⟩ := h
  have hsign_eq : sign.filter (· ≠ ',') = sign :=
    filter_eq_self_of_not_mem (hsign.not_mem (by decide) (by decide))
  have hpower_eq : power.filter (· ≠ ',') = power :=
    filter_eq_self_of_not_mem (hpower.not_mem fun hp => hp.not_mem.1)
  rw [List.filter_append, List.filter_append, hsign_eq, hpower_eq]
  cases hmantissa with
  | @grouped ds groups fraction hds hshort hgroups hfraction =>
    -- Behind the first digits, all groups of three are digits, too.
    have hdigits : IsRun isDigit (ds ++ groups.filter (· ≠ ',')) := by
      refine ⟨List.append_ne_nil_of_left_ne_nil hds.1 _, ?_⟩
      exact List.forall_mem_append.mpr ⟨hds.2, hgroups.digits⟩
    refine ⟨sign, _, fraction, power, ?_, hsign, .inr hdigits, hfraction, hpower, .inl hdigits.1⟩
    rw [List.filter_append, List.filter_append, filter_eq_self_of_not_mem (hds.not_mem rfl),
      filter_eq_self_of_not_mem (hfraction.not_mem IsFraction.comma_not_mem)]
    simp only [List.append_assoc]
  | @pointed ds fraction hds hfraction =>
    have hne : fraction ≠ [] := by
      obtain ⟨es, rfl, -⟩ := hfraction
      exact List.cons_ne_nil _ _
    refine ⟨sign, ds, fraction, power, ?_, hsign, hds, .inr hfraction, hpower, .inr hne⟩
    rw [List.filter_append, filter_eq_self_of_not_mem (hds.not_mem fun h => h.not_mem rfl),
      filter_eq_self_of_not_mem hfraction.comma_not_mem, List.append_assoc]
  | @plain ds hds =>
    refine ⟨sign, mantissa, [], power, ?_, hsign, .inr hds, .inl rfl, hpower, .inl hds.1⟩
    rw [filter_eq_self_of_not_mem (hds.not_mem rfl), List.nil_append]

/-! ### Reading a decimal -/

/-- All digits at the head of a text are taken. -/
theorem takeDigits_append {ds rest : List Char} (hds : ∀ c ∈ ds, isDigit c = true)
    (hrest : ∀ c r, rest = c :: r → isDigit c = false) :
    ∃ ns, ns.length = ds.length ∧ takeDigits (ds ++ rest) = (ns, rest) := by
  induction ds with
  | nil =>
    refine ⟨[], rfl, ?_⟩
    cases rest with
    | nil => rfl
    | cons c r =>
      have hc : digit? c = none := by simpa [isDigit] using hrest c r rfl
      simp [takeDigits, hc]
  | cons d ds ih =>
    obtain ⟨hd, hds⟩ := List.forall_mem_cons.mp hds
    obtain ⟨n, hn⟩ := Option.isSome_iff_exists.mp hd
    obtain ⟨ns, hlength, htake⟩ := ih hds
    exact ⟨n :: ns, congrArg (· + 1) hlength, by simp [takeDigits, hn, htake]⟩

/-- A power of ten begins with no digit and no point. -/
theorem IsPower.exists_cons {s : List Char} (h : IsPower s) :
    ∃ c r, s = c :: r ∧ isDigit c = false ∧ c ≠ '.' := by
  obtain ⟨e, sign, ds, rfl | rfl, -, -, rfl⟩ := h
  · exact ⟨'e', sign ++ ds, rfl, by decide, by decide⟩
  · exact ⟨'E', sign ++ ds, rfl, by decide, by decide⟩

/-- A power of ten begins neither as digits go on nor as a fraction does. -/
theorem Perhaps.head_power {s : List Char} (h : Perhaps IsPower s) (c : Char) (r : List Char)
    (hcr : s = c :: r) : isDigit c = false ∧ c ≠ '.' := by
  obtain rfl | h := h
  · cases hcr
  · obtain ⟨d, u, rfl, hd⟩ := h.exists_cons
    obtain ⟨rfl, -⟩ := List.cons.inj hcr
    exact hd

/-- The fraction is taken as a whole, and at least one digit of it. -/
theorem takeFraction_append {fraction power : List Char} (hfraction : Perhaps IsFraction fraction)
    (hpower : Perhaps IsPower power) :
    ∃ ns, (fraction ≠ [] → ns ≠ []) ∧ takeFraction (fraction ++ power) = (ns, power) := by
  obtain rfl | ⟨ds, rfl, hds⟩ := hfraction
  · refine ⟨[], fun h => absurd rfl h, ?_⟩
    -- Without a fraction the power of ten follows, which begins with no point.
    cases power with
    | nil => rfl
    | cons c r =>
      have hc := (hpower.head_power c r rfl).2
      rw [List.nil_append]
      unfold takeFraction
      split
      · next heq => exact absurd (List.cons.inj heq).1 hc
      · rfl
  · obtain ⟨ns, hlength, htake⟩ :=
      takeDigits_append hds.2 fun c r hcr => (hpower.head_power c r hcr).1
    refine ⟨ns, fun _ => ?_, htake⟩
    rintro rfl
    exact hds.1 (List.eq_nil_of_length_eq_zero hlength.symm)

/-- The sign is taken, and nothing else is. -/
theorem takeSign_append {sign s : List Char} (h : IsSign sign)
    (hs : ∀ c r, s = c :: r → c ≠ '+' ∧ c ≠ '-') : (takeSign (sign ++ s)).2 = s := by
  obtain rfl | rfl | rfl := h
  · cases s with
    | nil => rfl
    | cons c r =>
      obtain ⟨hplus, hminus⟩ := hs c r rfl
      simp [takeSign, hplus, hminus]
  · rfl
  · rfl

/-- A power of ten is read, and so is none. -/
theorem Perhaps.isSome_readExponent? {s : List Char} (h : Perhaps IsPower s) :
    (readExponent? s).isSome := by
  obtain rfl | ⟨e, sign, ds, he, hsign, hds, rfl⟩ := h
  · rfl
  · have hds_sign : ∀ c r, ds = c :: r → c ≠ '+' ∧ c ≠ '-' := by
      rintro c r rfl
      exact ne_sign_of_isDigit (hds.2 c List.mem_cons_self)
    have hend : ∀ c r, [] = c :: r → isDigit c = false := by
      rintro c r h
      cases h
    -- The digits are read to the end of the text.
    obtain ⟨ns, hlength, htake⟩ := takeDigits_append hds.2 hend
    rw [List.append_nil] at htake
    cases ns with
    | nil => exact absurd (List.eq_nil_of_length_eq_zero hlength.symm) hds.1
    | cons n ns =>
      unfold readExponent?
      simp [he, takeSign_append hsign hds_sign, htake]

/-- Digits, a fraction and a power of ten are read as a float, if digits or the fraction are
    there. -/
theorem isSome_readUnsigned? {whole fraction power : List Char}
    (hwhole : Perhaps (IsRun isDigit) whole) (hfraction : Perhaps IsFraction fraction)
    (hpower : Perhaps IsPower power) (hne : whole ≠ [] ∨ fraction ≠ []) :
    (readUnsigned? (whole ++ (fraction ++ power))).isSome := by
  have hhead : ∀ c r, fraction ++ power = c :: r → isDigit c = false := by
    intro c r hcr
    obtain rfl | ⟨es, rfl, -⟩ := hfraction
    · exact (hpower.head_power c r hcr).1
    · obtain ⟨rfl, -⟩ := List.cons.inj hcr
      decide
  obtain ⟨ns, hlength, htake⟩ := takeDigits_append (hwhole.forall_mem (·.2)) hhead
  obtain ⟨ms, hms, htake'⟩ := takeFraction_append hfraction hpower
  -- There are digits before the point or behind it.
  have hdigits : (ns.isEmpty && ms.isEmpty) = false := by
    rw [Bool.and_eq_false_iff, List.isEmpty_eq_false_iff, List.isEmpty_eq_false_iff]
    refine hne.imp ?_ hms
    rintro hne rfl
    exact hne (List.eq_nil_of_length_eq_zero hlength.symm)
  unfold readUnsigned?
  simp [htake, htake', hdigits, hpower.isSome_readExponent?]

/-- Without an underscore nothing divides the digits. -/
theorem dropDividers?_eq_self {s : List Char} (h : '_' ∉ s) (afterDigit : Bool) :
    dropDividers? afterDigit s = some s := by
  induction s generalizing afterDigit with
  | nil => rfl
  | cons c s ih =>
    obtain ⟨hc, hs⟩ := not_or.mp (mt List.mem_cons.mpr h)
    rw [dropDividers?, if_neg (Ne.symm hc), ih hs, Option.map_some]

/-- Without blanks there are no margins. -/
theorem dropMargins_eq_self {s : List Char} (h : ∀ c ∈ s, isBlank c = false) :
    dropMargins s = s := by
  have hmargin : ∀ t : List Char, (∀ c ∈ t, isBlank c = false) → t.dropWhile isMargin = t := by
    intro t ht
    cases t with
    | nil => rfl
    | cons c t =>
      have hc : isMargin c = false := by rw [isMargin, ht c List.mem_cons_self, Bool.false_and]
      exact List.dropWhile_cons_of_neg (by rw [hc]; decide)
  rw [dropMargins, hmargin s h, hmargin _ fun c hc => h c (List.mem_reverse.mp hc),
    List.reverse_reverse]

/-- **Such a text is read as a float**: what cannot be read has no digits. -/
theorem IsDecimal.isSome_readFloat? {s : List Char} (h : IsDecimal s)
    (hblank : ∀ c ∈ s, isBlank c = false) (hdivider : '_' ∉ s) : (readFloat? s).isSome := by
  obtain ⟨sign, whole, fraction, power, rfl, hsign, hwhole, hfraction, hpower, hne⟩ := h
  -- What follows the sign is a digit or a point.
  have hhead : ∀ c r, whole ++ (fraction ++ power) = c :: r → c ≠ '+' ∧ c ≠ '-' := by
    intro c r hcr
    obtain rfl | hwhole := hwhole
    · obtain rfl | ⟨es, rfl, -⟩ := hfraction
      · simp at hne
      · obtain ⟨rfl, -⟩ := List.cons.inj hcr
        decide
    · obtain ⟨d, u, rfl, hd⟩ := hwhole.exists_cons
      obtain ⟨rfl, -⟩ := List.cons.inj hcr
      exact ne_sign_of_isDigit hd
  unfold readFloat?
  rw [dropMargins_eq_self hblank, dropDividers?_eq_self hdivider, Option.bind_some]
  simp [takeSign_append hsign hhead, isSome_readUnsigned? hwhole hfraction hpower hne]

/-- **Every amount has a value**, which may be infinite. -/
theorem IsAmount.isSome_readFloat? {form : AmountForm} {s : List Char} (h : IsAmount form s) :
    (readFloat? (s.filter (· ≠ ','))).isSome := by
  have hchar : ∀ c ∈ s.filter (· ≠ ','), AmountChar c :=
    fun c hc => h.amountChar c (List.mem_filter.mp hc).1
  refine h.exists_decimal.isSome_readFloat? (fun c hc => (hchar c hc).isBlank_eq_false) ?_
  intro hdivider
  obtain hdigit | hmark := hchar '_' hdivider
  · exact absurd hdigit (by decide)
  · exact absurd hmark (by decide)

end Reckoner.Query
