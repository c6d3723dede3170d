import Reckoner.Proofs.Arithmetic.Soundness

/-!
# What the grammar derives

Whatever the grammar derives, the reader finds.  An operand or an expression is found at the head of
a text if what follows it cannot belong to it.

* `EndsNumber`, `EndsExpression` — what cannot continue a number, or an expression.
* `ReadsFully` — what is an operand of some kind is found.
* `expressionWith_full` — all expressions are found if their operands are.
* `operand_full` — all operands are found that are nested no deeper than they may be.
* `Derives.unique` — a text has at most one tree.
* `evaluateText_eq_ok_iff` — a text has a value exactly if it has a tree with this value.
-/

namespace Reckoner.Arithmetic

open Reckoner.Text

/-! ### What follows -/

/-- What cannot continue a number. -/
def EndsNumber (s : List Char) : Prop := ∀ c r, s = c :: r → c.isDigit = false ∧ c ≠ '.'

/-- What cannot continue an expression: the end of the text or a closing parenthesis. -/
def EndsExpression (s : List Char) : Prop := s = [] ∨ ∃ r, s = ')' :: r

/-- Where an expression ends, so does a number. -/
theorem EndsExpression.endsNumber {s : List Char} (h : EndsExpression s) : EndsNumber s := by
  obtain rfl | ⟨r, rfl⟩ := h
  · intro c r hc
    cases hc
  · intro c r hc
    obtain ⟨rfl, -⟩ := List.cons.inj hc
    decide

/-- Where an expression ends, no operator follows. -/
theorem EndsExpression.operator?_eq_none {s : List Char} (h : EndsExpression s) :
    operator? s = none := by
  obtain rfl | ⟨r, rfl⟩ := h <;> rfl

/-- Before an operator a number ends. -/
theorem Spells.endsNumber {op : Operator} {sym : List Char} (h : Spells op sym) (s : List Char) :
    EndsNumber (sym ++ s) := by
  intro c r hc
  cases h <;> (obtain ⟨rfl, -⟩ := List.cons.inj hc; decide)

/-- The operator at the head of a text is found.  A star is not taken for half of a pair, since no
    operand begins with one. -/
theorem Spells.operator?_append {op : Operator} {sym : List Char} (h : Spells op sym)
    {s : List Char} (hs : ∀ r, s ≠ '*' :: r) : operator? (sym ++ s) = some (op, s) := by
  cases h with
  | star => simp [operator?]
  | plus | minus | slash | percent | caret | stars => rfl

/-! ### Chains -/

/-- What is an operand of some kind is found at the head of a text, and none begins with a star. -/
structure ReadsFully (rd : OperandReader) (P : Operands) : Prop where
  find : ∀ t e s, P t e → EndsNumber s → rd (t ++ s) = (e, s)
  head : ∀ t e s r, P t e → t ++ s ≠ '*' :: r

/-- What follows an operand in a chain cannot continue a number. -/
theorem Spelled.endsNumber {P : Operands} {rest : List (Operator × Expr)} {u s : List Char}
    (h : Spelled P rest u) (hs : EndsExpression s) : EndsNumber (u ++ s) := by
  cases h with
  | nil => exact hs.endsNumber
  | cons hop => simpa using hop.endsNumber _

/-- No operator is spelled with nothing. -/
theorem Spells.length_pos {op : Operator} {sym : List Char} (h : Spells op sym) :
    0 < sym.length := by
  cases h <;> decide

/-- So a chain has no more operators than characters. -/
theorem Spelled.length_le {P : Operands} {rest : List (Operator × Expr)} {u : List Char}
    (h : Spelled P rest u) : rest.length ≤ u.length := by
  induction h with
  | nil => exact le_refl 0
  | cons hop _ _ ih =>
    have hpos := hop.length_pos
    simp only [List.length_cons, List.length_append]
    omega

/-- The operators and operands of a chain are found. -/
theorem chain_full {rd : OperandReader} {P : Operands} (hrd : ReadsFully rd P)
    {rest : List (Operator × Expr)} {u s : List Char} (h : Spelled P rest u)
    (hs : EndsExpression s) {fuel : Nat} (hfuel : rest.length ≤ fuel) :
    chain rd fuel (u ++ s) = (rest, s) := by
  induction h generalizing fuel with
  | nil =>
    cases fuel with
    | zero => rfl
    | succ fuel => simp [chain, hs.operator?_eq_none]
  | @cons sym t u op f rest hop hP hspelled ih =>
    cases fuel with
    | zero => simp at hfuel
    | succ fuel =>
      -- The operator ends where its operand begins, which is no second star.
      have hoperator : operator? (sym ++ (t ++ u) ++ s) = some (op, t ++ (u ++ s)) := by
        rw [List.append_assoc, List.append_assoc]
        exact hop.operator?_append fun r => hrd.head t f (u ++ s) r hP
      have hoperand := hrd.find t f (u ++ s) hP (hspelled.endsNumber hs)
      simp only [chain, hoperator, hoperand, ih (Nat.le_of_succ_le_succ hfuel)]

/-- All expressions over operands are found if the operands are. -/
theorem expressionWith_full {rd : OperandReader} {P : Operands} (hrd : ReadsFully rd P)
    {t : List Char} {e : Expr} (h : ExpressionOver P t e) {s : List Char}
    (hs : EndsExpression s) : expressionWith rd (t ++ s) = (e, s) := by
  obtain ⟨t₀, first, rest, u, rfl, hfirst, hrest, rfl⟩ := h.exists_chain
  have hoperand : rd (t₀ ++ u ++ s) = (first, u ++ s) := by
    rw [List.append_assoc]
    exact hrd.find t₀ first (u ++ s) hfirst (hrest.endsNumber hs)
  -- The length of the text is fuel enough, since every operator takes a character.
  have hlength : rest.length ≤ (u ++ s).length := by
    have hle := hrest.length_le
    rw [List.length_append]
    omega
  simp only [expressionWith, hoperand, chain_full hrd hrest hs hlength]

/-! ### Numbers -/

/-- **A literal is taken as a whole** where a number ends. -/
theorem Numeral.takeLiteral_append {t : List Char} (ht : Numeral t) {s : List Char}
    (hs : EndsNumber s) : takeLiteral (t ++ s) = (t, s) := by
  have hend : ∀ c r, s = c :: r → c.isDigit = false := fun c r h => (hs c r h).1
  cases ht with
  | whole hdigits _ =>
    obtain ⟨htake, hdrop⟩ := hdigits.takeWhile_append hend
    unfold takeLiteral
    rw [htake, hdrop]
    split
    next r => exact absurd rfl (hs '.' r rfl).2
    next => rfl
  | @pointed u v hu hv _ =>
    -- The point ends the digits before it, and what follows the number those after it.
    have hpoint : ∀ c r, '.' :: (v ++ s) = c :: r → c.isDigit = false := by
      intro c r h
      obtain ⟨rfl, -⟩ := List.cons.inj h
      decide
    obtain ⟨htake, hdrop⟩ := hu.takeWhile_append hpoint
    obtain ⟨htake', hdrop'⟩ := hv.takeWhile_append hend
    simp only [takeLiteral, List.append_assoc, List.cons_append, htake, hdrop, htake', hdrop']

/-- A literal is not empty. -/
theorem Numeral.ne_nil {t : List Char} (ht : Numeral t) : t ≠ [] := by
  cases ht with
  | whole _ hne => exact hne
  | pointed => simp

/-- It is not a single point. -/
theorem Numeral.ne_point {t : List Char} (ht : Numeral t) : t ≠ ['.'] := by
  cases ht with
  | whole hdigits _ =>
    rintro rfl
    exact absurd (hdigits '.' (by simp)) (by decide)
  | @pointed u v _ _ hne =>
    intro h
    cases u with
    | nil => simp_all
    | cons c u => simp at h

/-- All numbers are found. -/
theorem number_full (length : Nat) {t : List Char} (ht : Numeral t) {s : List Char}
    (hs : EndsNumber s) : number length (t ++ s) = (.number t, s) := by
  simp [number, ht.takeLiteral_append hs, ht.ne_nil, ht.ne_point]

/-- A number begins with a digit or a point. -/
theorem Numeral.head {t : List Char} (ht : Numeral t) {s r : List Char} {c : Char}
    (h : t ++ s = c :: r) : c.isDigit = true ∨ c = '.' := by
  -- A number begins with its first digit or, where none stands before it, with its point.
  cases ht with
  | @whole t hdigits hne =>
    cases t with
    | nil => exact absurd rfl hne
    | cons d t =>
      obtain ⟨rfl, -⟩ := List.cons.inj h
      exact .inl (hdigits d List.mem_cons_self)
  | @pointed u v hu _ _ =>
    cases u with
    | nil =>
      obtain ⟨rfl, -⟩ := List.cons.inj h
      exact .inr rfl
    | cons d u =>
      obtain ⟨rfl, -⟩ := List.cons.inj h
      exact .inl (hu d List.mem_cons_self)

/-- A literal begins with neither a sign nor a parenthesis. -/
theorem Numeral.not_beginsNested {t : List Char} (ht : Numeral t) (s : List Char) :
    ¬ BeginsNested (t ++ s) := by
  rintro ⟨c, hc, r, h⟩
  obtain hdigit | rfl := ht.head h
  · simp only [List.mem_cons, List.not_mem_nil, or_false] at hc
    obtain rfl | rfl | rfl := hc <;> exact absurd hdigit (by decide)
  · simp at hc

/-! ### Operands -/

/-- No operand begins with a star. -/
theorem Derives.head_ne_star {t : List Char} {e : Expr} (h : Derives false .unary t e)
    (s r : List Char) : t ++ s ≠ '*' :: r := by
  intro heq
  cases h with
  | negative | positive => simp at heq
  | ofAtom h =>
    cases h with
    | group => simp at heq
    | openGroup hl => cases hl
    | number hnumeral =>
      obtain hdigit | hpoint := hnumeral.head heq
      · exact absurd hdigit (by decide)
      · exact absurd hpoint (by decide)

/-- **All operands are found** that are nested no deeper than they may be. -/
theorem operand_full (length depth : Nat) :
    ReadsFully (operand length depth) (operandsWithin false depth) := by
  induction depth using Nat.strong_induction_on with
  | _ depth ih =>
    refine ⟨fun t e s ht hs => ?_, fun t e s r ht => ht.1.head_ne_star s r⟩
    obtain ⟨hderives, hnesting⟩ := ht
    cases hderives with
    | @negative t e hderives =>
      -- The sign takes one level of the depth away, and a group takes five.
      have hnesting : e.nesting + 1 ≤ depth := hnesting
      obtain ⟨depth, rfl⟩ := Nat.exists_eq_add_of_le' (Nat.le_of_add_left_le hnesting)
      have hoperand := (ih depth (Nat.lt_succ_self _)).find t e s
        ⟨hderives, Nat.le_of_succ_le_succ hnesting⟩ hs
      rw [List.cons_append, operand_minus, hoperand]
    | @positive t e hderives =>
      have hnesting : e.nesting + 1 ≤ depth := hnesting
      obtain ⟨depth, rfl⟩ := Nat.exists_eq_add_of_le' (Nat.le_of_add_left_le hnesting)
      have hoperand := (ih depth (Nat.lt_succ_self _)).find t e s
        ⟨hderives, Nat.le_of_succ_le_succ hnesting⟩ hs
      rw [List.cons_append, operand_plus, hoperand]
    | ofAtom hatom =>
      cases hatom with
      | number hnumeral =>
        rw [operand_of_not_beginsNested (hnumeral.not_beginsNested s)]
        exact number_full length hnumeral hs
      | @group t e hderives =>
        have hnesting : e.nesting + 5 ≤ depth := hnesting
        obtain ⟨depth, rfl⟩ := Nat.exists_eq_add_of_le' (Nat.le_of_add_left_le hnesting)
        have hover := (expressionOver_iff false depth t e).mpr
          ⟨hderives, Nat.le_of_add_le_add_right hnesting⟩
        have hbody := expressionWith_full (ih depth (by omega)) hover
          (s := ')' :: s) (.inr ⟨s, rfl⟩)
        have htext : '(' :: (t ++ [')']) ++ s = '(' :: (t ++ ')' :: s) := by simp
        rw [htext, operand_group, hbody]
        rfl
      | openGroup hl => cases hl

/-! ### Texts -/

/-- What the grammar derives and is nested no deeper than a bound is read with this bound. -/
theorem Derives.expressionWith_eq {s : List Char} {e : Expr} (h : Derives false .addSub s e)
    (length : Nat) {depth : Nat} (hdepth : e.nesting ≤ depth) :
    expressionWith (operand length depth) s = (e, []) := by
  have hover := (expressionOver_iff false depth s e).mpr ⟨h, hdepth⟩
  simpa using expressionWith_full (operand_full length depth) hover (s := []) (.inl rfl)

/-- **The grammar is unambiguous.** -/
theorem Derives.unique {s : List Char} {e f : Expr} (he : Derives false .addSub s e)
    (hf : Derives false .addSub s f) : e = f := by
  have hread := he.expressionWith_eq 0 (Nat.le_max_left e.nesting f.nesting)
  rw [hf.expressionWith_eq 0 (Nat.le_max_right e.nesting f.nesting)] at hread
  exact (Prod.mk.inj hread).1.symm

/-- **The reader and the grammar agree.** A text with balanced parentheses has a value, blanks
    aside, exactly if the grammar gives it a tree, nested no deeper than it may be, that has this
    value. -/
theorem evaluateText_eq_ok_iff (text : String) (x : Float)
    (hbalanced : Balanced (dropBlanks text.toList)) :
    evaluateText text = .ok x ↔
      ∃ e, Derives false .addSub (dropBlanks text.toList) e ∧ e.nesting ≤ depthLimit ∧
        e.eval = .ok x := by
  constructor
  · intro h
    obtain ⟨e, hderives, hnesting, heval⟩ := exists_derives_of_evaluateDense h
    exact ⟨e, hderives.strict_of_count_eq hbalanced.2, hnesting, heval⟩
  · rintro ⟨e, hderives, hnesting, heval⟩
    have hread : expression (dropBlanks text.toList) = (e, []) :=
      hderives.expressionWith_eq _ hnesting
    exact (evaluateDense_eq_ok_iff _ x).mpr ⟨by rw [hread]; exact heval, by rw [hread]⟩

/-- The product of a number and a sum, with blanks, a sign and parentheses. -/
theorem evaluateText_product_of_sum :
    Balanced (dropBlanks "2 * (1.5 + -3)".toList) ∧
      evaluateText "2 * (1.5 + -3)" =
        .ok (literalValue ['2'] * (literalValue ['1', '.', '5'] + -literalValue ['3'])) := by
  have hbalanced : Balanced (dropBlanks "2 * (1.5 + -3)".toList) := by decide
  refine ⟨hbalanced, (evaluateText_eq_ok_iff _ _ hbalanced).mpr ⟨.binary .mul (.number ['2'])
    (.group (.binary .add (.number ['1', '.', '5']) (.signed true (.number ['3']))) true),
    ?_, by decide, rfl⟩⟩
  have hdigit : ∀ {d : Char}, d.isDigit = true → AllDigits [d] :=
    fun hd => List.forall_mem_singleton.mpr hd
  have htwo : Derives false .atom ['2'] (.number ['2']) :=
    .number (.whole (hdigit rfl) (List.cons_ne_nil _ _))
  have hhalf : Derives false .atom ['1', '.', '5'] (.number ['1', '.', '5']) :=
    .number (Numeral.pointed (s := ['1']) (t := ['5']) (hdigit rfl) (hdigit rfl)
      (.inl (List.cons_ne_nil _ _)))
  have hthree : Derives false .atom ['3'] (.number ['3']) :=
    .number (.whole (hdigit rfl) (List.cons_ne_nil _ _))
  have hsum : Derives false .addSub (['1', '.', '5'] ++ (['+'] ++ ['-', '3']))
      (.binary .add (.number ['1', '.', '5']) (.signed true (.number ['3']))) :=
    .addSub (.ofMulDiv (.ofPower (.ofUnary (.ofAtom hhalf)))) rfl .plus
      (.ofPower (.ofUnary (.negative (.ofAtom hthree))))
  exact .ofMulDiv (.mulDiv (.ofPower (.ofUnary (.ofAtom htwo))) rfl .star
    (.ofUnary (.ofAtom (.group hsum))))

end Reckoner.Arithmetic
