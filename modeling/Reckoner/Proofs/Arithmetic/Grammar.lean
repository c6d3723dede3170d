import Mathlib.Data.List.Count
import Mathlib.Data.List.Infix
import Reckoner.Arithmetic.Reader

/-!
# The grammar of expressions

The grammar says which texts are expressions and what their trees are, without saying how they are
read.  Every level takes operands of the next tighter one and groups them to the left:

    addSub := mulDiv (('+' | '-') mulDiv)*
    mulDiv := power (('*' | '/' | '%') power)*
    power  := unary (('^' | '**') unary)*
    unary  := ('-' | '+') unary | atom
    atom   := numeral | '(' addSub ')'

* `Spells`, `Numeral` — the texts of operators and numbers.
* `Derives` — a text has a tree at a level.  The lenient grammar also has parentheses that are left
  open.
* `Expr.nesting` — how deeply signs and parentheses are nested in a tree.
* `Balanced` — every parenthesis that is opened is closed, and the other way round.
* `Derives.strict_of_count_eq` — where there are as many closing parentheses as opening ones, no
  lenience is needed.
-/

namespace Reckoner.Arithmetic

/-! ### Operators and numbers -/

/-- The texts of the operators. -/
inductive Spells : Operator → List Char → Prop where
  | plus : Spells .add ['+']
  | minus : Spells .sub ['-']
  | star : Spells .mul ['*']
  | slash : Spells .div ['/']
  | percent : Spells .rem ['%']
  | caret : Spells .pow ['^']
  | stars : Spells .pow ['*', '*']

/-- A text of decimal digits. -/
def AllDigits (s : List Char) : Prop := ∀ c ∈ s, c.isDigit = true

instance (s : List Char) : Decidable (AllDigits s) :=
  inferInstanceAs (Decidable (∀ c ∈ s, c.isDigit = true))

/-- Digits with an optional point and more digits, or a point and digits. -/
inductive Numeral : List Char → Prop where
  | whole {s : List Char} : AllDigits s → s ≠ [] → Numeral s
  | pointed {s t : List Char} : AllDigits s → AllDigits t → s ≠ [] ∨ t ≠ [] →
      Numeral (s ++ '.' :: t)

/-! ### Derivations -/

/-- The levels of the grammar, the loosest first. -/
inductive Level where
  | addSub | mulDiv | power | unary | atom

/-- A text has a tree at a level of the grammar.  The lenient grammar tolerates that parentheses are
    left open. -/
inductive Derives (lenient : Bool) : Level → List Char → Expr → Prop where
  | ofMulDiv {s : List Char} {e : Expr} : Derives lenient .mulDiv s e → Derives lenient .addSub s e
  | addSub {s sym t : List Char} {op : Operator} {e f : Expr} : Derives lenient .addSub s e →
      op.isAdditive = true → Spells op sym → Derives lenient .mulDiv t f →
      Derives lenient .addSub (s ++ (sym ++ t)) (.binary op e f)
  | ofPower {s : List Char} {e : Expr} : Derives lenient .power s e → Derives lenient .mulDiv s e
  | mulDiv {s sym t : List Char} {op : Operator} {e f : Expr} : Derives lenient .mulDiv s e →
      op.isMultiplicative = true → Spells op sym → Derives lenient .power t f →
      Derives lenient .mulDiv (s ++ (sym ++ t)) (.binary op e f)
  | ofUnary {s : List Char} {e : Expr} : Derives lenient .unary s e → Derives lenient .power s e
  | power {s sym t : List Char} {op : Operator} {e f : Expr} : Derives lenient .power s e →
      op.isPower = true → Spells op sym → Derives lenient .unary t f →
      Derives lenient .power (s ++ (sym ++ t)) (.binary op e f)
  | negative {s : List Char} {e : Expr} : Derives lenient .unary s e →
      Derives lenient .unary ('-' :: s) (.signed true e)
  | positive {s : List Char} {e : Expr} : Derives lenient .unary s e →
      Derives lenient .unary ('+' :: s) (.signed false e)
  | ofAtom {s : List Char} {e : Expr} : Derives lenient .atom s e → Derives lenient .unary s e
  | number {s : List Char} : Numeral s → Derives lenient .atom s (.number s)
  | group {s : List Char} {e : Expr} : Derives lenient .addSub s e →
      Derives lenient .atom ('(' :: (s ++ [')'])) (.group e true)
  | openGroup {s : List Char} {e : Expr} : lenient = true → Derives lenient .addSub s e →
      Derives lenient .atom ('(' :: s) (.group e false)

/-! ### Trees -/

namespace Expr

/-- How deeply signs and parentheses are nested: a sign counts one and a parenthesis five. -/
def nesting : Expr → Nat
  | .number _ | .stopped _ => 0
  | .signed _ e => e.nesting + 1
  | .binary _ e f => max e.nesting f.nesting
  | .group e _ => e.nesting + 5

/-- How many parentheses are left open. -/
def openGroups : Expr → Nat
  | .number _ | .stopped _ => 0
  | .signed _ e => e.openGroups
  | .binary _ e f => e.openGroups + f.openGroups
  | .group e closed => e.openGroups + if closed then 0 else 1

/-- Whether reading did not have to stop anywhere. -/
def IsWhole : Expr → Prop
  | .number _ => True
  | .signed _ e | .group e _ => e.IsWhole
  | .binary _ e f => e.IsWhole ∧ f.IsWhole
  | .stopped _ => False

/-- A tree that has a value was read without stopping. -/
theorem isWhole_of_eval {e : Expr} {x : Float} (h : e.eval = .ok x) : e.IsWhole := by
  induction e generalizing x with
  | number => trivial
  | stopped error => simp at h
  | group e closed ih => exact ih h
  | signed minus e ih =>
    cases he : e.eval with
    | ok y => exact ih he
    | error error => simp [eval, he, bind, Except.bind] at h
  | binary op e f ihe ihf =>
    cases he : e.eval with
    | error error => simp [eval, he, bind, Except.bind] at h
    | ok y =>
      cases hf : f.eval with
      | error error => simp [eval, he, hf, bind, Except.bind] at h
      | ok z => exact ⟨ihe he, ihf hf⟩

end Expr

/-! ### Parentheses -/

/-- Every `)` closes an earlier `(`, and none stays open. -/
def Balanced (s : List Char) : Prop :=
  (∀ p, p <+: s → p.count ')' ≤ p.count '(') ∧ s.count ')' = s.count '('

instance (s : List Char) : Decidable (Balanced s) :=
  decidable_of_iff ((∀ p ∈ s.inits, p.count ')' ≤ p.count '(') ∧ s.count ')' = s.count '(')
    (by simp only [Balanced, List.mem_inits])

theorem Spells.count_eq_zero {op : Operator} {sym : List Char} (h : Spells op sym) :
    sym.count '(' = 0 ∧ sym.count ')' = 0 := by
  cases h <;> decide

theorem AllDigits.count_eq_zero {s : List Char} (h : AllDigits s) {c : Char}
    (hc : c.isDigit = false) : s.count c = 0 := by
  refine List.count_eq_zero.mpr fun hmem => ?_
  rw [h c hmem] at hc
  cases hc

theorem Numeral.count_eq_zero {s : List Char} (h : Numeral s) :
    s.count '(' = 0 ∧ s.count ')' = 0 := by
  cases h with
  | whole hs => exact ⟨hs.count_eq_zero rfl, hs.count_eq_zero rfl⟩
  | pointed hs ht =>
    simp [List.count_append, hs.count_eq_zero, ht.count_eq_zero,
      show Char.isDigit '(' = false from rfl, show Char.isDigit ')' = false from rfl]

namespace Derives

/-- The parentheses that are not closed in a text are those left open in its tree. -/
theorem count_eq {lenient : Bool} {l : Level} {s : List Char} {e : Expr}
    (h : Derives lenient l s e) : s.count '(' = s.count ')' + e.openGroups := by
  induction h with
  | ofMulDiv _ ih | ofPower _ ih | ofUnary _ ih | ofAtom _ ih => exact ih
  | addSub _ _ hop _ ihs iht | mulDiv _ _ hop _ ihs iht | power _ _ hop _ ihs iht =>
    simp only [List.count_append, hop.count_eq_zero, ihs, iht, Expr.openGroups]
    omega
  | negative _ ih | positive _ ih => simpa [List.count_cons, Expr.openGroups] using ih
  | number hs => simp [hs.count_eq_zero, Expr.openGroups]
  | group _ ih =>
    simp only [List.count_cons, List.count_append, List.count_nil, Expr.openGroups, ih]
    simp
    omega
  | openGroup _ _ ih =>
    simp only [List.count_cons, Expr.openGroups, ih]
    simp
    omega

/-- A tree without open parentheses is a tree of the strict grammar. -/
theorem strict_of_openGroups_eq_zero {lenient : Bool} {l : Level} {s : List Char} {e : Expr}
    (h : Derives lenient l s e) (hopen : e.openGroups = 0) : Derives false l s e := by
  induction h with
  | ofMulDiv _ ih => exact .ofMulDiv (ih hopen)
  | ofPower _ ih => exact .ofPower (ih hopen)
  | ofUnary _ ih => exact .ofUnary (ih hopen)
  | ofAtom _ ih => exact .ofAtom (ih hopen)
  | addSub _ hlevel hop _ ihs iht =>
    -- Open groups are added up, so that none is open in either operand.
    obtain ⟨he, hf⟩ := Nat.add_eq_zero_iff.mp hopen
    exact .addSub (ihs he) hlevel hop (iht hf)
  | mulDiv _ hlevel hop _ ihs iht =>
    obtain ⟨he, hf⟩ := Nat.add_eq_zero_iff.mp hopen
    exact .mulDiv (ihs he) hlevel hop (iht hf)
  | power _ hlevel hop _ ihs iht =>
    obtain ⟨he, hf⟩ := Nat.add_eq_zero_iff.mp hopen
    exact .power (ihs he) hlevel hop (iht hf)
  | negative _ ih => exact .negative (ih hopen)
  | positive _ ih => exact .positive (ih hopen)
  | number hs => exact .number hs
  | group _ ih => exact .group (ih (Nat.add_eq_zero_iff.mp hopen).1)
  | openGroup _ _ _ => simp [Expr.openGroups] at hopen

/-- Where there are as many closing parentheses as opening ones, none is left open. -/
theorem strict_of_count_eq {lenient : Bool} {l : Level} {s : List Char} {e : Expr}
    (h : Derives lenient l s e) (hcount : s.count ')' = s.count '(') : Derives false l s e := by
  refine h.strict_of_openGroups_eq_zero ?_
  have hopen := h.count_eq
  omega

end Derives

end Reckoner.Arithmetic
