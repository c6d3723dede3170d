import Reckoner.Arithmetic.Calculation
import Reckoner.Proofs.Arithmetic.Completeness
import Reckoner.Proofs.Number.Finite
import Reckoner.Proofs.Query.Values

/-!
# Numbers alone

A number alone is not calculated, with a sign or without one.  Two descriptions of numbers meet
here: the literals that expressions are made of, and the texts that are recognised as a number and
nothing else.  They differ in one place.  A literal may begin with a point, and a text that is
recognised may not, so that a number with a sign and a point at its head is calculated.

* `Numeral.isBareNumber_iff` — the literals that are recognised as numbers.
* `looksArithmetic_signed_iff` — the signed literals that are taken for expressions.
* `Numeral.isFinite_literalValue` — a literal that begins with a point is finite.
* `calculation?_signed_eq_none_iff` — which signed literals are not calculated.
* `calculation?_minus_point_five` — one that is.
-/

namespace Reckoner.Arithmetic

open Reckoner.Number Reckoner.Text
open Reckoner.Query (IsSign dropDividers?_eq_self dropMargins_eq_self ne_sign_of_isDigit
  takeSign_append)

variable {sign number s t : List Char}

/-! ### Digits -/

/-- The codes of the decimal digits. -/
theorem toNat_of_isDigit {c : Char} (h : c.isDigit = true) : 48 ≤ c.toNat ∧ c.toNat < 48 + 10 := by
  obtain ⟨hle, hge⟩ := Char.isDigit_iff_toNat.mp h
  exact ⟨hle, Nat.lt_succ_of_le hge⟩

/-- The value of a decimal digit. -/
theorem digit?_of_isDigit {c : Char} (h : c.isDigit = true) : digit? c = some (c.toNat - 48) := by
  unfold digit? decimalZeros
  rw [List.find?_cons_of_pos (by simpa using toNat_of_isDigit h)]
  rfl

theorem isDigit_of_isDigit {c : Char} (h : c.isDigit = true) : isDigit c = true := by
  rw [isDigit, digit?_of_isDigit h]
  rfl

/-- All decimal digits of a text are taken. -/
theorem AllDigits.takeDigits_eq (h : AllDigits s) :
    takeDigits s = (s.map (·.toNat - 48), []) := by
  induction s with
  | nil => rfl
  | cons c s ih =>
    obtain ⟨hc, hs⟩ := List.forall_mem_cons.mp h
    simp [takeDigits, digit?_of_isDigit hc, ih hs]

/-- Digits stand for less than the power of ten that has one digit more. -/
theorem digitsValue_lt {ds : List Nat} (h : ∀ d ∈ ds, d < 10) :
    digitsValue ds < 10 ^ ds.length := by
  -- Every digit multiplies what stands before it by ten.
  suffices hfold : ∀ n k, n < k → ds.foldl (fun n d => 10 * n + d) n < k * 10 ^ ds.length by
    simpa [digitsValue] using hfold 0 1 (by decide)
  induction ds with
  | nil => simp
  | cons d ds ih =>
    obtain ⟨hd, hds⟩ := List.forall_mem_cons.mp h
    intro n k hlt
    rw [List.foldl_cons, List.length_cons, Nat.pow_succ', ← Nat.mul_assoc]
    exact ih hds _ _ (by omega)

theorem AllDigits.digitsValue_lt (h : AllDigits s) :
    digitsValue (s.map (·.toNat - 48)) < 10 ^ s.length := by
  have hdigits : ∀ d ∈ s.map (·.toNat - 48), d < 10 := by
    intro d hd
    obtain ⟨c, hc, rfl⟩ := List.mem_map.mp hd
    have hcode := toNat_of_isDigit (h c hc)
    omega
  simpa using Arithmetic.digitsValue_lt hdigits

/-! ### Numbers that are recognised -/

theorem AllDigits.dropWhile_append (h : AllDigits s) (t : List Char) :
    (s ++ t).dropWhile isDigit = t.dropWhile isDigit :=
  List.dropWhile_append_of_pos fun c hc => isDigit_of_isDigit (h c hc)

theorem AllDigits.dropWhile_eq_nil (h : AllDigits s) : s.dropWhile isDigit = [] := by
  simpa using h.dropWhile_append []

/-- A literal begins with no sign. -/
theorem Numeral.head_ne_sign (h : Numeral number) (c : Char) (r : List Char)
    (hcr : number = c :: r) : c ≠ '+' ∧ c ≠ '-' := by
  obtain hdigit | rfl := h.head (s := []) ((List.append_nil number).trans hcr)
  · exact ne_sign_of_isDigit (isDigit_of_isDigit hdigit)
  · decide

/-- **A literal is recognised as a number if it does not begin with a point.** -/
theorem Numeral.isBareNumber_iff (h : Numeral number) (hsign : IsSign sign) :
    isBareNumber (sign ++ number) = true ↔ number.head? ≠ some '.' := by
  have hhead : ∀ {s : List Char}, AllDigits s → s ≠ [] → ∀ t,
      ((s ++ t).head?.any isDigit = true ∧ (s ++ t).head? ≠ some '.') := by
    intro s hs hne t
    obtain ⟨c, s, rfl⟩ := List.exists_cons_of_ne_nil hne
    have hc := hs c List.mem_cons_self
    refine ⟨isDigit_of_isDigit hc, ?_⟩
    rintro ⟨⟩
    cases hc
  unfold isBareNumber
  rw [takeSign_append hsign h.head_ne_sign]
  dsimp only
  cases h with
  | whole hs hne =>
    have hwhole := hhead hs hne []
    rw [List.append_nil] at hwhole
    rw [hs.dropWhile_eq_nil, hwhole.1]
    exact iff_of_true rfl hwhole.2
  | @pointed s t hs ht hne =>
    -- Without digits before it, the literal begins with its point, which the pattern does not
    -- allow.
    by_cases hnil : s = []
    · subst hnil
      have hpoint : isDigit '.' = false := rfl
      simp [hpoint]
    · have hwhole := hhead hs hnil ('.' :: t)
      have hend : dropPoint ((s ++ '.' :: t).dropWhile isDigit) = t := by
        rw [hs.dropWhile_append]
        rfl
      rw [hend, ht.dropWhile_eq_nil, hwhole.1]
      exact iff_of_true rfl hwhole.2

/-- The characters of a literal are no letters, no operators and no blanks. -/
theorem Numeral.forall_mem (h : Numeral number) :
    ∀ c ∈ number, c.isAlpha = false ∧ isOperatorChar c = false ∧ isBlank c = false ∧ c ≠ '_' := by
  have hdigit : ∀ c : Char, c.isDigit = true →
      c.isAlpha = false ∧ isOperatorChar c = false ∧ isBlank c = false ∧ c ≠ '_' := by
    intro c hc
    have hlisted : ∀ n ∈ List.range' 48 10, (Char.ofNat n).isAlpha = false ∧
        isOperatorChar (Char.ofNat n) = false ∧ isBlank (Char.ofNat n) = false ∧
        Char.ofNat n ≠ '_' := by decide
    rw [← Char.ofNat_toNat c]
    exact hlisted c.toNat (List.mem_range'_1.mpr (toNat_of_isDigit hc))
  cases h with
  | whole hs => exact fun c hc => hdigit c (hs c hc)
  | pointed hs ht =>
    refine List.forall_mem_append.mpr ⟨fun c hc => hdigit c (hs c hc), ?_⟩
    exact List.forall_mem_cons.mpr ⟨by decide, fun c hc => hdigit c (ht c hc)⟩

/-- There is no blank in a signed literal. -/
theorem Numeral.dropBlanks_cons (h : Numeral number) {c : Char} (hc : isBlank c = false) :
    dropBlanks (c :: number) = c :: number := by
  refine List.filter_eq_self.mpr (List.forall_mem_cons.mpr ⟨by rw [hc]; rfl, fun d hd => ?_⟩)
  rw [(h.forall_mem d hd).2.2.1]
  rfl

/-- There is a digit in every literal. -/
theorem Numeral.exists_isDigit (h : Numeral number) : ∃ c ∈ number, c.isDigit = true := by
  have hall : ∀ {s : List Char}, AllDigits s → s ≠ [] → ∃ c ∈ s, c.isDigit = true := by
    intro s hs hne
    obtain ⟨c, hc⟩ := List.exists_mem_of_ne_nil s hne
    exact ⟨c, hc, hs c hc⟩
  cases h with
  | whole hs hne => exact hall hs hne
  | pointed hs ht hne =>
    obtain hne | hne := hne
    · obtain ⟨c, hc, hdigit⟩ := hall hs hne
      exact ⟨c, List.mem_append_left _ hc, hdigit⟩
    · obtain ⟨c, hc, hdigit⟩ := hall ht hne
      exact ⟨c, List.mem_append_right _ (List.mem_cons_of_mem _ hc), hdigit⟩

/-- **A signed literal is taken for an expression only if it begins with a point.** -/
theorem looksArithmetic_signed_iff (hsign : IsSign sign) (hnumber : Numeral number) :
    looksArithmetic (sign ++ number) = true ↔ sign ≠ [] ∧ number.head? = some '.' := by
  -- There are digits and no letters, so that only the sign and the form of the number decide.
  have hdigit : (sign ++ number).any isDigit = true := by
    obtain ⟨c, hc, hdigit⟩ := hnumber.exists_isDigit
    exact List.any_eq_true.mpr ⟨c, List.mem_append_right _ hc, isDigit_of_isDigit hdigit⟩
  have hletter : (sign ++ number).any Char.isAlpha = false := by
    rw [List.any_append, Bool.or_eq_false_iff]
    refine ⟨by obtain rfl | rfl | rfl := hsign <;> rfl, List.any_eq_false.mpr fun c hc => ?_⟩
    rw [(hnumber.forall_mem c hc).1]
    decide
  have hoperator : (sign ++ number).any isOperatorChar = true ↔ sign ≠ [] := by
    have hnone : number.any isOperatorChar = false :=
      List.any_eq_false.mpr fun c hc => by rw [(hnumber.forall_mem c hc).2.1]; decide
    rw [List.any_append, hnone, Bool.or_false]
    obtain rfl | rfl | rfl := hsign <;> decide
  have hbare := hnumber.isBareNumber_iff hsign
  rw [looksArithmetic, hdigit, hletter, Bool.true_and, Bool.not_false, Bool.true_and,
    Bool.and_eq_true, hoperator, Bool.not_eq_true', ← Bool.not_eq_true, hbare, not_not]

/-! ### Literals that begin with a point -/

theorem AllDigits.readUnsigned?_point (h : AllDigits t) (hne : t ≠ []) :
    readUnsigned? ('.' :: t) =
      some (Float.ofScientific (digitsValue (t.map (·.toNat - 48))) true t.length) := by
  have hpoint : digit? '.' = none := rfl
  have hpos : 0 < t.length := List.length_pos_iff.mpr hne
  simp [readUnsigned?, takeDigits, hpoint, takeFraction, h.takeDigits_eq, hne, readExponent?,
    decimalFloat, hpos]

/-- **The value of a literal that begins with a point.** -/
theorem AllDigits.readFloat?_point (h : AllDigits t) (hne : t ≠ []) :
    readFloat? ('.' :: t) =
      some (Float.ofScientific (digitsValue (t.map (·.toNat - 48))) true t.length) := by
  have hnumber : Numeral ('.' :: t) := .pointed (s := []) (by simp [AllDigits]) h (.inr hne)
  have hmargin : dropMargins ('.' :: t) = '.' :: t :=
    dropMargins_eq_self fun c hc => (hnumber.forall_mem c hc).2.2.1
  have hdivider : dropDividers? false ('.' :: t) = some ('.' :: t) :=
    dropDividers?_eq_self (fun hmem => (hnumber.forall_mem '_' hmem).2.2.2 rfl) false
  have hword : readWord? ('.' :: t) = none := by
    have hpoint : Char.toLower '.' = '.' := rfl
    simp [readWord?, hpoint]
  unfold readFloat?
  rw [hmargin, hdivider, Option.bind_some]
  simp [takeSign, hword, h.readUnsigned?_point hne]

/-- A literal that begins with a point is less than one, so that its value is finite. -/
theorem Numeral.isFinite_literalValue (h : Numeral number) (hpoint : number.head? = some '.') :
    (literalValue number).isFinite = true := by
  cases h with
  | whole hs =>
    exact absurd (hs '.' (List.mem_of_head? hpoint)) (by decide)
  | @pointed s t hs ht hne =>
    -- The digits before the point would stand before it.
    obtain rfl : s = [] := by
      cases s with
      | nil => rfl
      | cons c s =>
        obtain rfl : c = '.' := Option.some.inj hpoint
        exact absurd (hs '.' List.mem_cons_self) (by decide)
    have hne : t ≠ [] := hne.resolve_left (not_not_intro rfl)
    rw [List.nil_append, literalValue, ht.readFloat?_point hne, Option.getD_some]
    exact isFinite_ofScientific ht.digitsValue_lt

/-- **A literal behind a sign has a value.** -/
theorem Numeral.evaluateDense_signed (h : Numeral number) :
    evaluateDense ('+' :: number) = .ok (literalValue number) ∧
      evaluateDense ('-' :: number) = .ok (-literalValue number) := by
  have hread : ∀ {s minus}, Derives false .unary s (.signed minus (.number number)) →
      expression s = (.signed minus (.number number), []) := by
    intro s minus hderives
    have hnesting : (Expr.signed minus (.number number)).nesting ≤ depthLimit :=
      show 0 + 1 ≤ 980 by decide
    exact Derives.expressionWith_eq (.ofMulDiv (.ofPower (.ofUnary hderives))) _ hnesting
  rw [evaluateDense_eq_ok_iff, evaluateDense_eq_ok_iff, hread (.positive (.ofAtom (.number h))),
    hread (.negative (.ofAtom (.number h)))]
  exact ⟨⟨rfl, rfl⟩, rfl, rfl⟩

/-! ### Queries -/

/-- **A number alone is not calculated, with one exception.**  A query that is a literal with a sign
    or without one, blanks at its ends aside, has no answer, unless there is a sign and the literal
    begins with a point. -/
theorem calculation?_signed_eq_none_iff {query : String} (hsign : IsSign sign)
    (hnumber : Numeral number) (hquery : trim query.toList = sign ++ number) :
    calculation? query = none ↔ sign = [] ∨ number.head? ≠ some '.' := by
  have hlooks := looksArithmetic_signed_iff hsign hnumber
  unfold calculation?
  dsimp only
  rw [hquery]
  by_cases hpoint : sign ≠ [] ∧ number.head? = some '.'
  · -- It is taken for an expression, and its value is finite since it is less than one.
    obtain ⟨x, hx, hfinite⟩ :
        ∃ x, evaluateDense (dropBlanks (sign ++ number)) = .ok x ∧ x.isFinite = true := by
      have hvalue : (literalValue number).isFinite = true := hnumber.isFinite_literalValue hpoint.2
      obtain ⟨hplus, hminus⟩ := hnumber.evaluateDense_signed
      obtain rfl | rfl | rfl := hsign
      · exact absurd rfl hpoint.1
      · exact ⟨_, (congrArg _ (hnumber.dropBlanks_cons (by decide))).trans hplus, hvalue⟩
      · exact ⟨_, (congrArg _ (hnumber.dropBlanks_cons (by decide))).trans hminus,
          isFinite_neg hvalue⟩
    rw [if_pos (hlooks.mpr hpoint), hx]
    simp [hfinite, hpoint]
  · rw [if_neg (mt hlooks.mp hpoint)]
    refine iff_of_true rfl ?_
    by_contra h
    exact hpoint (not_or.mp h |>.imp_right not_not.mp)

/-- A number with a sign, and blanks around it. -/
theorem calculation?_plus_four_point_five :
    IsSign ['+'] ∧ Numeral ['4', '.', '5'] ∧
      trim " +4.5 ".toList = ['+'] ++ ['4', '.', '5'] ∧
      (calculation? " +4.5 " = none ↔ ['+'] = [] ∨ ['4', '.', '5'].head? ≠ some '.') := by
  have hsign : IsSign ['+'] := .inr (.inl rfl)
  have hnumber : Numeral ['4', '.', '5'] :=
    .pointed (s := ['4']) (List.forall_mem_singleton.mpr rfl) (List.forall_mem_singleton.mpr rfl)
      (.inl (List.cons_ne_nil _ _))
  have hquery : trim " +4.5 ".toList = ['+'] ++ ['4', '.', '5'] := by decide +kernel
  exact ⟨hsign, hnumber, hquery, calculation?_signed_eq_none_iff hsign hnumber hquery⟩

/-- **A number that begins with a point is calculated behind a sign.** -/
theorem calculation?_minus_point_five :
    IsSign ['-'] ∧ Numeral ['.', '5'] ∧ trim "-.5".toList = ['-'] ++ ['.', '5'] ∧
      calculation? "-.5" = some ⟨"-.5", "Expression", "-0.5", ""⟩ := by
  have hanswer : calculation? "-.5" = some ⟨"-.5", "Expression", "-0.5", ""⟩ := by decide +kernel
  have hnumber : Numeral ['.', '5'] :=
    .pointed (s := []) (List.forall_mem_nil _) (List.forall_mem_singleton.mpr rfl)
      (.inr (List.cons_ne_nil _ _))
  exact ⟨.inr (.inr rfl), hnumber, by decide +kernel, hanswer⟩

end Reckoner.Arithmetic
