import Mathlib.Data.List.Basic
import Reckoner.Query.Basic

/-!
# The grammar of conversion queries

The grammar says what the parts of a query look like, without saying how they are found.

    amount    := sign? (digits{1,3} (',' digit digit digit)+ fraction? | digits? fraction | digits)
                 power?
    fraction  := '.' digits
    power     := ('e' | 'E') sign? digits
    separator := blanks ('to' | 'in' | 'as' | '=') blanks
    plain     := amount blank* phrase separator phrase
    symbol    := currency blank* amount separator phrase

* `IsAmount` — the texts of amounts, in three forms.
* `IsSeparator`, `IsPhrase` — the texts of separators and phrases.
* `PlainSplit`, `SymbolSplit` — a text divided into the parts of a query, in either form.
* `PlainSplit.Before`, `PlainSplit.IsFirst` — the order in which the divisions of a text are tried.
* `Reads` — the query that a text stands for.
* `IsAmount.form_unique`, `IsAmount.isBlank_eq_false` — an amount has one form and no blank.
-/

namespace Reckoner.Query

open Reckoner.Text

/-! ### Runs of characters -/

/-- Characters of a class, one at least. -/
def IsRun (p : Char → Bool) (s : List Char) : Prop := s ≠ [] ∧ ∀ c ∈ s, p c = true

/-- Nothing, or a text of some kind. -/
def Perhaps (P : List Char → Prop) (s : List Char) : Prop := s = [] ∨ P s

instance (p : Char → Bool) (s : List Char) : Decidable (IsRun p s) :=
  decidable_of_iff (s ≠ [] ∧ s.all p = true) (and_congr_right' List.all_eq_true)

/-- A single character of the class is a run. -/
theorem IsRun.singleton {p : Char → Bool} {c : Char} (hc : p c = true) : IsRun p [c] :=
  ⟨List.cons_ne_nil _ _, List.forall_mem_singleton.mpr hc⟩

/-- A character in front of a run makes it longer. -/
theorem IsRun.cons {p : Char → Bool} {c : Char} {s : List Char} (hc : p c = true)
    (hs : ∀ d ∈ s, p d = true) : IsRun p (c :: s) :=
  ⟨List.cons_ne_nil _ _, List.forall_mem_cons.mpr ⟨hc, hs⟩⟩

/-- A run begins with a character of its class. -/
theorem IsRun.exists_cons {p : Char → Bool} {s : List Char} (h : IsRun p s) :
    ∃ c r, s = c :: r ∧ p c = true := by
  obtain ⟨hne, hall⟩ := h
  cases s with
  | nil => exact absurd rfl hne
  | cons c r => exact ⟨c, r, rfl, hall c List.mem_cons_self⟩

/-! ### Amounts -/

/-- The forms of amounts: with commas between groups of three digits, with a point, and plain. -/
inductive AmountForm where
  | grouped | pointed | plain
deriving DecidableEq

/-- The place of a form in the order in which forms are tried. -/
def AmountForm.rank : AmountForm → Nat
  | .grouped => 0
  | .pointed => 1
  | .plain => 2

/-- Groups of a comma and three digits, one at least. -/
inductive IsGroups : List Char → Prop where
  | one {a b c : Char} : isDigit a = true → isDigit b = true → isDigit c = true →
      IsGroups [',', a, b, c]
  | more {a b c : Char} {s : List Char} : isDigit a = true → isDigit b = true →
      isDigit c = true → IsGroups s → IsGroups (',' :: a :: b :: c :: s)

/-- A point and digits. -/
def IsFraction (s : List Char) : Prop := ∃ ds, s = '.' :: ds ∧ IsRun isDigit ds

/-- A sign, or nothing. -/
def IsSign (s : List Char) : Prop := s = [] ∨ s = ['+'] ∨ s = ['-']

/-- A power of ten, with or without a sign. -/
def IsPower (s : List Char) : Prop :=
  ∃ e sign ds, (e = 'e' ∨ e = 'E') ∧ IsSign sign ∧ IsRun isDigit ds ∧ s = e :: (sign ++ ds)

/-- The text of an amount between its sign and its power of ten. -/
inductive IsMantissa : AmountForm → List Char → Prop where
  | grouped {ds groups fraction : List Char} : IsRun isDigit ds → ds.length ≤ 3 →
      IsGroups groups → Perhaps IsFraction fraction →
      IsMantissa .grouped (ds ++ groups ++ fraction)
  | pointed {ds fraction : List Char} : Perhaps (IsRun isDigit) ds → IsFraction fraction →
      IsMantissa .pointed (ds ++ fraction)
  | plain {ds : List Char} : IsRun isDigit ds → IsMantissa .plain ds

/-- The text of an amount of some form. -/
def IsAmount (form : AmountForm) (s : List Char) : Prop :=
  ∃ sign mantissa power, s = sign ++ (mantissa ++ power) ∧ IsSign sign ∧
    IsMantissa form mantissa ∧ Perhaps IsPower power

/-- A mantissa begins with a digit or with the point of its fraction. -/
theorem IsMantissa.exists_cons {form : AmountForm} {s : List Char} (h : IsMantissa form s) :
    ∃ c r, s = c :: r ∧ (isDigit c = true ∨ c = '.') := by
  cases h with
  | grouped hds =>
    obtain ⟨c, r, rfl, hc⟩ := hds.exists_cons
    exact ⟨c, _, rfl, .inl hc⟩
  -- A pointed amount may begin with its point.
  | pointed hds hfraction =>
    obtain ⟨es, rfl, -⟩ := hfraction
    obtain rfl | hds := hds
    · exact ⟨'.', es, rfl, .inr rfl⟩
    · obtain ⟨c, r, rfl, hc⟩ := hds.exists_cons
      exact ⟨c, _, rfl, .inl hc⟩
  | plain hds =>
    obtain ⟨c, r, rfl, hc⟩ := hds.exists_cons
    exact ⟨c, r, rfl, .inl hc⟩

/-- No amount is empty. -/
theorem IsAmount.ne_nil {form : AmountForm} {s : List Char} (h : IsAmount form s) : s ≠ [] := by
  obtain ⟨sign, mantissa, power, rfl, -, hmantissa, -⟩ := h
  obtain ⟨c, r, rfl, -⟩ := hmantissa.exists_cons
  simp

/-! ### Phrases and separators -/

/-- The text of a phrase. -/
abbrev IsPhrase (s : List Char) : Prop := IsRun isPhraseChar s

/-- The words that separate phrases, in lower case. -/
def separatorWords : List (List Char) := [['t', 'o'], ['i', 'n'], ['a', 's'], ['=']]

/-- A separator word with the blanks before and behind it.  The word may be in either case. -/
def IsSeparator (s : List Char) : Prop :=
  ∃ before word behind, s = before ++ (word ++ behind) ∧ IsRun isBlank before ∧
    word.map caseless ∈ separatorWords ∧ IsRun isBlank behind

/-- A separator begins with a blank. -/
theorem IsSeparator.exists_cons {s : List Char} (h : IsSeparator s) :
    ∃ c r, s = c :: r ∧ isBlank c = true := by
  obtain ⟨before, word, behind, rfl, hbefore, -, -⟩ := h
  obtain ⟨c, r, rfl, hc⟩ := hbefore.exists_cons
  exact ⟨c, _, rfl, hc⟩

/-! ### Divided texts -/

/-- A text that begins with an amount, divided into the parts of a query. -/
structure PlainSplit (s : List Char) where
  form : AmountForm
  amount : List Char
  blanks : List Char
  source : List Char
  separator : List Char
  target : List Char
  text_eq : amount ++ (blanks ++ (source ++ (separator ++ target))) = s
  isAmount : IsAmount form amount
  areBlanks : ∀ c ∈ blanks, isBlank c = true
  isSource : IsPhrase source
  isSeparator : IsSeparator separator
  isTarget : IsPhrase target

/-- A text that begins with a currency symbol, divided into the parts of a query. -/
structure SymbolSplit (s : List Char) where
  symbol : Char
  blanks : List Char
  form : AmountForm
  amount : List Char
  separator : List Char
  target : List Char
  text_eq : symbol :: (blanks ++ (amount ++ (separator ++ target))) = s
  isSymbol : symbol ∈ currencySymbols
  areBlanks : ∀ c ∈ blanks, isBlank c = true
  isAmount : IsAmount form amount
  isSeparator : IsSeparator separator
  isTarget : IsPhrase target

namespace PlainSplit

variable {s : List Char}

/-- **The order of the divisions of a text**: forms of amounts in their order, longer amounts before
    shorter ones, then more blanks before fewer, and then shorter phrases before longer ones. -/
def Before (p q : PlainSplit s) : Prop :=
  p.form.rank < q.form.rank ∨ p.form = q.form ∧
    (q.amount.length < p.amount.length ∨ p.amount.length = q.amount.length ∧
      (q.blanks.length < p.blanks.length ∨ p.blanks.length = q.blanks.length ∧
        p.source.length < q.source.length))

/-- No other division of the text comes before this one. -/
def IsFirst (p : PlainSplit s) : Prop := ∀ q : PlainSplit s, ¬ q.Before p

end PlainSplit

/-! ### Queries -/

/-- What becomes of the parts of a query: a query if the amount, commas aside, is a finite float,
    and none otherwise.  Blanks around the phrases do not belong to them. -/
def BecomesOf (amount source target : List Char) (q? : Option Query) : Prop :=
  ∃ x, Number.readFloat? (amount.filter (· ≠ ',')) = some x ∧
    q? = if x.isFinite then
        some ⟨String.ofList amount, x, String.ofList (trim source), String.ofList (trim target)⟩
      else none

/-- **What a text is read as.** The first of its divisions that begin with an amount counts; if
    there are none, its division that begins with a currency symbol; if there is none either, the
    text is no query. -/
inductive Reads (s : List Char) : Option Query → Prop where
  | plain {q? : Option Query} (p : PlainSplit s) : p.IsFirst →
      BecomesOf p.amount p.source p.target q? → Reads s q?
  | symbol {q? : Option Query} (p : SymbolSplit s) : IsEmpty (PlainSplit s) →
      BecomesOf p.amount [p.symbol] p.target q? → Reads s q?
  | neither : IsEmpty (PlainSplit s) → IsEmpty (SymbolSplit s) → Reads s none

/-! ### The characters of amounts -/

/-- The characters that amounts are made of. -/
def AmountChar (c : Char) : Prop := isDigit c = true ∨ c ∈ ['+', '-', '.', ',', 'e', 'E']

/-- Signs are made of characters of amounts. -/
theorem IsSign.amountChar {s : List Char} (h : IsSign s) : ∀ c ∈ s, AmountChar c := by
  intro c hc
  obtain rfl | rfl | rfl := h
  · cases hc
  · exact .inr (by rw [List.mem_singleton.mp hc]; decide)
  · exact .inr (by rw [List.mem_singleton.mp hc]; decide)

/-- So are runs of digits. -/
theorem IsRun.amountChar {s : List Char} (h : IsRun isDigit s) : ∀ c ∈ s, AmountChar c :=
  fun c hc => .inl (h.2 c hc)

/-- So are groups of digits. -/
theorem IsGroups.amountChar {s : List Char} (h : IsGroups s) : ∀ c ∈ s, AmountChar c := by
  have hcomma : AmountChar ',' := .inr (by decide)
  induction h with
  | one ha hb hc =>
    simp only [List.forall_mem_cons]
    exact ⟨hcomma, .inl ha, .inl hb, .inl hc, by simp⟩
  | more ha hb hc _ ih =>
    simp only [List.forall_mem_cons]
    exact ⟨hcomma, .inl ha, .inl hb, .inl hc, ih⟩

/-- So are fractions. -/
theorem IsFraction.amountChar {s : List Char} (h : IsFraction s) : ∀ c ∈ s, AmountChar c := by
  obtain ⟨ds, rfl, hds⟩ := h
  exact List.forall_mem_cons.mpr ⟨.inr (by decide), hds.amountChar⟩

/-- So are powers of ten. -/
theorem IsPower.amountChar {s : List Char} (h : IsPower s) : ∀ c ∈ s, AmountChar c := by
  obtain ⟨e, sign, ds, he, hsign, hds, rfl⟩ := h
  refine List.forall_mem_cons.mpr
    ⟨?_, List.forall_mem_append.mpr ⟨hsign.amountChar, hds.amountChar⟩⟩
  obtain rfl | rfl := he
  · exact .inr (by decide)
  · exact .inr (by decide)

/-- An optional part has only such characters as the part has. -/
theorem Perhaps.forall_mem {P : List Char → Prop} {Q : Char → Prop} {s : List Char}
    (h : Perhaps P s) (hP : P s → ∀ c ∈ s, Q c) : ∀ c ∈ s, Q c := by
  obtain rfl | h := h
  · simp
  · exact hP h

/-- What stands before the exponent is made of characters of amounts. -/
theorem IsMantissa.amountChar {form : AmountForm} {s : List Char} (h : IsMantissa form s) :
    ∀ c ∈ s, AmountChar c := by
  cases h with
  | grouped hds _ hgroups hfraction =>
    exact List.forall_mem_append.mpr ⟨List.forall_mem_append.mpr
      ⟨hds.amountChar, hgroups.amountChar⟩, hfraction.forall_mem IsFraction.amountChar⟩
  | pointed hds hfraction =>
    exact List.forall_mem_append.mpr
      ⟨hds.forall_mem IsRun.amountChar, hfraction.amountChar⟩
  | plain hds => exact hds.amountChar

/-- **Amounts are made of digits, signs, points, commas and the letter of an exponent.** -/
theorem IsAmount.amountChar {form : AmountForm} {s : List Char} (h : IsAmount form s) :
    ∀ c ∈ s, AmountChar c := by
  obtain ⟨sign, mantissa, power, rfl, hsign, hmantissa, hpower⟩ := h
  exact List.forall_mem_append.mpr ⟨hsign.amountChar, List.forall_mem_append.mpr
    ⟨hmantissa.amountChar, hpower.forall_mem IsPower.amountChar⟩⟩

/-- A code point in one of some ranges lies between the ends of one of them. -/
theorem exists_range_of_inRanges {ranges : List (Nat × Nat)} {n : Nat}
    (h : inRanges ranges n = true) : ∃ r ∈ ranges, r.1 ≤ n ∧ n ≤ r.2 := by
  induction ranges with
  | nil => simp [inRanges] at h
  | cons r rest ih =>
    obtain ⟨first, last⟩ := r
    unfold inRanges at h
    split at h
    · -- The ranges are in order, so that a code below one is in none behind it.
      cases h
    · next hle =>
      rw [Bool.or_eq_true, decide_eq_true_eq] at h
      obtain hlast | hrest := h
      · exact ⟨(first, last), List.mem_cons_self, Nat.le_of_not_lt hle, hlast⟩
      · obtain ⟨r, hr, hbetween⟩ := ih hrest
        exact ⟨r, List.mem_cons_of_mem _ hr, hbetween⟩

/-- The code point of a digit is one of the ten from a zero on. -/
theorem exists_zero_of_isDigit {c : Char} (h : isDigit c = true) :
    ∃ first ∈ decimalZeros, first ≤ c.toNat ∧ c.toNat < first + 10 := by
  unfold isDigit digit? at h
  rw [Option.isSome_map] at h
  obtain ⟨first, hfirst⟩ := Option.isSome_iff_exists.mp h
  have hrange := List.find?_some hfirst
  simp only [Bool.and_eq_true, decide_eq_true_eq] at hrange
  exact ⟨first, List.mem_of_find?_eq_some hfirst, hrange⟩

/-- No digit is a blank. -/
theorem isBlank_eq_false_of_isDigit {c : Char} (h : isDigit c = true) : isBlank c = false := by
  have hapart : ∀ d ∈ decimalZeros, ∀ r ∈ blankRanges, r.2 < d ∨ d + 10 ≤ r.1 := by
    decide
  obtain ⟨d, hd, hlo, hhi⟩ := exists_zero_of_isDigit h
  by_contra hblank
  obtain ⟨r, hr, hrlo, hrhi⟩ := exists_range_of_inRanges (Bool.not_eq_false _ ▸ hblank)
  obtain hlt | hle := hapart d hd r hr
  · omega
  · omega

/-- None of these characters is a blank. -/
theorem AmountChar.isBlank_eq_false {c : Char} (h : AmountChar c) : isBlank c = false := by
  obtain hdigit | hmark := h
  · exact isBlank_eq_false_of_isDigit hdigit
  · have hall : ['+', '-', '.', ',', 'e', 'E'].all (!isBlank ·) = true := by decide
    simpa using List.all_eq_true.mp hall c hmark

/-- **An amount has no blanks.** -/
theorem IsAmount.isBlank_eq_false {form : AmountForm} {s : List Char} (h : IsAmount form s) :
    ∀ c ∈ s, isBlank c = false :=
  fun c hc => (h.amountChar c hc).isBlank_eq_false

/-! ### The form of an amount -/

/-- A run has only characters of its class in it. -/
theorem IsRun.not_mem {p : Char → Bool} {s : List Char} (h : IsRun p s) {c : Char}
    (hc : p c = false) : c ∉ s := by
  intro hmem
  rw [h.2 c hmem] at hc
  cases hc

/-- A sign has nothing else in it. -/
theorem IsSign.not_mem {s : List Char} (h : IsSign s) {c : Char} (hplus : c ≠ '+')
    (hminus : c ≠ '-') : c ∉ s := by
  obtain rfl | rfl | rfl := h <;> simp [hplus, hminus]

/-- A power of ten has neither commas nor points in it. -/
theorem IsPower.not_mem {s : List Char} (h : IsPower s) : ',' ∉ s ∧ '.' ∉ s := by
  obtain ⟨e, sign, ds, he, hsign, hds, rfl⟩ := h
  have hcomma : ',' ≠ e := by rintro rfl; simp at he
  have hpoint : '.' ≠ e := by rintro rfl; simp at he
  simp [hcomma, hpoint, hsign.not_mem, hds.not_mem (c := ',') rfl, hds.not_mem (c := '.') rfl]

/-- The form of an amount shows in its marks: a comma makes it grouped, and a point pointed. -/
theorem IsMantissa.marks {form : AmountForm} {s : List Char} (h : IsMantissa form s) :
    (',' ∈ s ↔ form = .grouped) ∧ ('.' ∈ s ∧ ',' ∉ s ↔ form = .pointed) := by
  cases h with
  | @grouped ds groups fraction _ _ hgroups _ =>
    have hcomma : ',' ∈ groups := by cases hgroups <;> simp
    simp [hcomma]
  | @pointed ds fraction hds hfraction =>
    obtain ⟨es, rfl, hes⟩ := hfraction
    have hnot : ',' ∉ ds := by
      obtain rfl | hds := hds
      · simp
      · exact hds.not_mem rfl
    simp [hnot, hes.not_mem (c := ',') rfl]
  | plain hds =>
    simp [hds.not_mem (c := ',') rfl, hds.not_mem (c := '.') rfl]

/-- **The marks of an amount show its form**, whatever its sign and its power of ten are. -/
theorem IsAmount.marks {form : AmountForm} {s : List Char} (h : IsAmount form s) :
    (',' ∈ s ↔ form = .grouped) ∧ ('.' ∈ s ∧ ',' ∉ s ↔ form = .pointed) := by
  obtain ⟨sign, mantissa, power, rfl, hsign, hmantissa, hpower⟩ := h
  have hpower : ',' ∉ power ∧ '.' ∉ power := by
    obtain rfl | hpower := hpower
    · simp
    · exact hpower.not_mem
  rw [← hmantissa.marks.1, ← hmantissa.marks.2]
  simp [hsign.not_mem, hpower]

/-- **An amount has one form.** -/
theorem IsAmount.form_unique {form form' : AmountForm} {s : List Char} (h : IsAmount form s)
    (h' : IsAmount form' s) : form = form' := by
  have hgrouped : form = .grouped ↔ form' = .grouped := h.marks.1.symm.trans h'.marks.1
  have hpointed : form = .pointed ↔ form' = .pointed := h.marks.2.symm.trans h'.marks.2
  cases form <;> cases form' <;> simp_all

end Reckoner.Query
