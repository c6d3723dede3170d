import Mathlib.Data.List.Forall2
import Reckoner.Proofs.Arithmetic.Completeness

/-!
# Parentheses that are left open

A closing parenthesis may be missing at the end of a text, and nowhere else.  The reader tolerates
that one is missing wherever something else follows; but then what follows is refused by every
expression around it, so that the text is not read to its end.

* `ClosesTooMuch`, `unclosed` — a `)` has no earlier `(`; how many parentheses are left open.
* `Derives.count_le_of_prefix` — where a tree is derived, no `)` is without an earlier `(`.
* `Refused` — what no expression around can use: neither an operator nor `)`.
* `ReadsCloser` — how a reader finds a text that has one more `)` at its end.
* `operand_readsCloser` — operands are read so, and so are expressions.
* `evaluateText_close` — a text has the value that it has when everything is closed.
-/

namespace Reckoner.Arithmetic

open Reckoner.Text

variable {level : Operator → Bool} {rd rd' : OperandReader}

/-! ### Closing too much -/

/-- Some `)` has no earlier `(` that it could close. -/
def ClosesTooMuch (s : List Char) : Prop := ∃ p, p <+: s ∧ p.count '(' < p.count ')'

instance (s : List Char) : Decidable (ClosesTooMuch s) :=
  decidable_of_iff (∃ p ∈ s.inits, p.count '(' < p.count ')')
    (by simp only [ClosesTooMuch, List.mem_inits])

/-- How many parentheses are left open. -/
def unclosed (s : List Char) : Nat := s.count '(' - s.count ')'

/-- A text that never closes too much, followed by another one, never does. -/
theorem count_le_of_prefix_append {s t : List Char}
    (hs : ∀ p, p <+: s → p.count ')' ≤ p.count '(')
    (ht : ∀ p, p <+: t → p.count ')' ≤ p.count '(') {p : List Char} (hp : p <+: s ++ t) :
    p.count ')' ≤ p.count '(' := by
  obtain hps | ⟨q, rfl⟩ := List.prefix_or_prefix_of_prefix hp (List.prefix_append s t)
  · exact hs p hps
  · have hcs := hs s List.prefix_rfl
    have hcq := ht q ((List.prefix_append_right_inj s).mp hp)
    simp only [List.count_append]
    omega

/-- **Where a tree is derived, every `)` closes an earlier `(`.** -/
theorem Derives.count_le_of_prefix {lenient : Bool} {l : Level} {s : List Char} {e : Expr}
    (h : Derives lenient l s e) : ∀ p, p <+: s → p.count ')' ≤ p.count '(' := by
  have hnone : ∀ {t : List Char}, t.count ')' = 0 → ∀ p, p <+: t → p.count ')' ≤ p.count '(' := by
    intro t ht p hp
    have hle := hp.sublist.count_le ')'
    omega
  induction h with
  | ofMulDiv _ ih | ofPower _ ih | ofUnary _ ih | ofAtom _ ih => exact ih
  | addSub _ _ hop _ ihs iht | mulDiv _ _ hop _ ihs iht | power _ _ hop _ ihs iht =>
    intro p hp
    refine count_le_of_prefix_append ihs (fun q hq => ?_) hp
    exact count_le_of_prefix_append (hnone hop.count_eq_zero.2) iht hq
  | negative _ ih =>
    intro p hp
    exact count_le_of_prefix_append (s := ['-']) (hnone rfl) ih hp
  | positive _ ih =>
    intro p hp
    exact count_le_of_prefix_append (s := ['+']) (hnone rfl) ih hp
  | number hs => exact hnone hs.count_eq_zero.2
  | @group s e _ ih =>
    intro p hp
    obtain rfl | ⟨q, rfl, hq⟩ := List.prefix_cons_iff.mp hp
    · exact le_refl 0
    · -- Before its own `)`, the text between the parentheses has as many of them as it likes.
      obtain rfl | hq := List.prefix_concat_iff.mp hq
      · have hs := ih s List.prefix_rfl
        have hcloser : [')'].count ')' = 1 ∧ [')'].count '(' = 0 := by decide
        rw [List.count_cons_of_ne (by decide), List.count_cons_self, List.count_append,
          List.count_append, hcloser.1, hcloser.2]
        omega
      · have hle := ih q hq
        rw [List.count_cons_of_ne (by decide), List.count_cons_self]
        omega
  | openGroup _ _ ih =>
    intro p hp
    obtain rfl | ⟨q, rfl, hq⟩ := List.prefix_cons_iff.mp hp
    · exact le_refl 0
    · have hle := ih q hq
      rw [List.count_cons_of_ne (by decide), List.count_cons_self]
      omega

/-! ### Trees of the same value -/

/-- Two trees have the same value, or neither has one. -/
def SameValue (e f : Expr) : Prop := ∀ x, e.eval = .ok x ↔ f.eval = .ok x

/-- **Inversion of an operation.** It has a value if both operands have one and the operator is
    defined for these. -/
theorem Expr.eval_binary_eq_ok_iff {op : Operator} {e f : Expr} {z : Float} :
    (binary op e f).eval = .ok z ↔
      ∃ x y, e.eval = .ok x ∧ f.eval = .ok y ∧ applied op x y = .ok z := by
  cases he : e.eval with
  | error error => simp [eval, he, bind, Except.bind]
  | ok x =>
    cases hf : f.eval with
    | error error => simp [eval, he, hf, bind, Except.bind]
    | ok y => simp [eval, he, hf, bind, Except.bind]

/-- **Inversion of a sign.** A signed tree has the value of the tree, with the sign. -/
theorem Expr.eval_signed_eq_ok_iff {minus : Bool} {e : Expr} {z : Float} :
    (signed minus e).eval = .ok z ↔ ∃ x, e.eval = .ok x ∧ (if minus then -x else x) = z := by
  cases he : e.eval with
  | error error => simp [eval, he, bind, Except.bind]
  | ok x => simp [eval, he, bind, Except.bind, pure, Except.pure]

namespace SameValue

/-- Every tree has its own value. -/
theorem refl (e : Expr) : SameValue e e := fun _ => Iff.rfl

/-- The value of an operation depends on the values of its operands only. -/
theorem binary {op : Operator} {e e' f f' : Expr} (he : SameValue e e') (hf : SameValue f f') :
    SameValue (.binary op e f) (.binary op e' f') := by
  intro z
  simp only [Expr.eval_binary_eq_ok_iff, he _, hf _]

/-- So does the value of a signed tree. -/
theorem signed {minus : Bool} {e e' : Expr} (he : SameValue e e') :
    SameValue (.signed minus e) (.signed minus e') := by
  intro z
  simp only [Expr.eval_signed_eq_ok_iff, he _]

/-- Parentheses have no value of their own, whether they are closed or not. -/
theorem group {closed closed' : Bool} {e e' : Expr} (he : SameValue e e') :
    SameValue (.group e closed) (.group e' closed') := he

/-- Where reading had to stop there is no value, whatever the reason. -/
theorem stopped (error error' : SyntaxError) :
    SameValue (.stopped error) (.stopped error') := by
  intro x
  simp

end SameValue

/-! ### Dividing two chains alike -/

/-- Two chains have the same operators, and operands that are related one by one. -/
abbrev ChainsRelated (R : Expr → Expr → Prop) (xs ys : List (Operator × Expr)) : Prop :=
  List.Forall₂ (fun x y => x.1 = y.1 ∧ R x.2 y.2) xs ys

variable {R : Expr → Expr → Prop}

/-- Dividing two chains keeps a relation that two trees around an operator have if their operands
    have it. -/
theorem link_related (level : Operator → Bool)
    (hR : ∀ {op e e' f f'}, R e e' → R f f' → R (.binary op e f) (.binary op e' f'))
    {rest rest' : List (Operator × Expr)} (hrest : ChainsRelated R rest rest') {first first' : Expr}
    (hfirst : R first first') :
    R (link level first rest).1 (link level first' rest').1 ∧
      ChainsRelated R (link level first rest).2 (link level first' rest').2 := by
  induction hrest generalizing first first' with
  | nil => exact ⟨hfirst, .nil⟩
  | @cons x y rest rest' hxy _ ih =>
    obtain ⟨op, e⟩ := x
    obtain ⟨op', e'⟩ := y
    obtain ⟨rfl, he⟩ := hxy
    -- An operator of this level is linked at once, and another one stays in the chain.
    by_cases hop : level op = true
    · simpa only [link, if_pos hop] using ih (hR hfirst he)
    · obtain ⟨hlink, hleft⟩ := ih he
      simpa only [link, if_neg hop] using ⟨hfirst, List.Forall₂.cons ⟨rfl, hlink⟩ hleft⟩

/-- Relations of operands are kept by the whole tree: it is linked level by level. -/
theorem treeOf_related
    (hR : ∀ {op e e' f f'}, R e e' → R f f' → R (.binary op e f) (.binary op e' f'))
    {rest rest' : List (Operator × Expr)} (hrest : ChainsRelated R rest rest') {first first' : Expr}
    (hfirst : R first first') : R (treeOf first rest) (treeOf first' rest') := by
  obtain ⟨hfirst₁, hrest₁⟩ := link_related Operator.isPower hR hrest hfirst
  obtain ⟨hfirst₂, hrest₂⟩ := link_related Operator.isMultiplicative hR hrest₁ hfirst₁
  exact (link_related Operator.isAdditive hR hrest₂ hfirst₂).1

/-- Where no operand of a chain leaves a parenthesis open, its tree does not. -/
theorem openGroups_treeOf_eq_zero {first : Expr} (hfirst : first.openGroups = 0)
    {rest : List (Operator × Expr)} (hrest : ∀ x ∈ rest, x.2.openGroups = 0) :
    (treeOf first rest).openGroups = 0 := by
  have hsame : ChainsRelated (fun e _ => e.openGroups = 0) rest rest :=
    List.forall₂_same.mpr fun x hx => ⟨rfl, hrest x hx⟩
  refine @treeOf_related _ ?_ rest rest hsame first first hfirst
  intro op e e' f f' he hf
  simp [Expr.openGroups, he, hf]

/-! ### What is left of a text -/

/-- A reader leaves no more than it was given. -/
def Shortens (rd : OperandReader) : Prop := ∀ s, (rd s).2.length ≤ s.length

/-- An operator has at least one character. -/
theorem length_lt_of_operator? {s rest : List Char} {op : Operator}
    (h : operator? s = some (op, rest)) : rest.length < s.length := by
  obtain ⟨sym, hsym, rfl⟩ := spells_of_operator? h
  have hpos := hsym.length_pos
  rw [List.length_append]
  omega

/-- Without an operator a chain ends, whatever fuel there is. -/
theorem chain_of_operator?_eq_none {s : List Char} (h : operator? s = none) (fuel : Nat) :
    chain rd fuel s = ([], s) := by
  cases fuel with
  | zero => rfl
  | succ fuel => rw [chain, h]

/-- A chain of operands leaves no more than it was given. -/
theorem chain_shortens (hrd : Shortens rd) (fuel : Nat) (s : List Char) :
    (chain rd fuel s).2.length ≤ s.length := by
  induction fuel generalizing s with
  | zero => exact le_refl _
  | succ fuel ih =>
    cases hop : operator? s with
    | none => rw [chain_of_operator?_eq_none hop]
    | some found =>
      obtain ⟨op, t⟩ := found
      have hlt := length_lt_of_operator? hop
      have hrest := ih (rd t).2
      have hoperand := hrd t
      rw [chain, hop]
      show (chain rd fuel (rd t).2).2.length ≤ s.length
      omega

/-- An expression leaves no more than it was given. -/
theorem expressionWith_shortens (hrd : Shortens rd) : Shortens (expressionWith rd) := by
  intro s
  exact (chain_shortens hrd _ _).trans (hrd s)

/-- With fuel for every character, a chain is read until no operator follows. -/
theorem operator?_snd_chain (hrd : Shortens rd) {fuel : Nat} {s : List Char}
    (hfuel : s.length ≤ fuel) : operator? (chain rd fuel s).2 = none := by
  induction fuel generalizing s with
  | zero =>
    rw [List.length_eq_zero_iff.mp (Nat.le_zero.mp hfuel)]
    rfl
  | succ fuel ih =>
    cases hop : operator? s with
    | none =>
      rw [chain_of_operator?_eq_none hop]
      exact hop
    | some found =>
      obtain ⟨op, t⟩ := found
      have hlt := length_lt_of_operator? hop
      have hoperand := hrd t
      rw [chain, hop]
      -- The operator has taken a character away, so that the fuel is enough for the rest.
      exact ih (by omega)

/-- An expression is read until no operator follows. -/
theorem operator?_snd_expressionWith (hrd : Shortens rd) (s : List Char) :
    operator? (expressionWith rd s).2 = none :=
  operator?_snd_chain hrd (le_refl _)

/-- How an operand begins: as a number, as what is nested too deeply, with a sign, or with an
    opening parenthesis. -/
inductive Begins : (depth : Nat) → List Char → Prop where
  | number {depth : Nat} {s : List Char} : ¬ BeginsNested s → Begins depth s
  | tooDeep {depth : Nat} {c : Char} {s : List Char} :
      (∀ length t, operand length depth (c :: t) = (.stopped .tooDeep, [])) → Begins depth (c :: s)
  | sign {depth : Nat} {c : Char} {minus : Bool} {s : List Char} :
      (∀ length t, operand length (depth + 1) (c :: t) =
        (.signed minus (operand length depth t).1, (operand length depth t).2)) →
      Begins (depth + 1) (c :: s)
  | paren {depth : Nat} {s : List Char} : Begins (depth + 5) ('(' :: s)

/-- **Every operand begins in one of these ways.** -/
theorem begins (depth : Nat) (s : List Char) : Begins depth s := by
  by_cases hnested : BeginsNested s
  · obtain ⟨c, hc, s, rfl⟩ := hnested
    simp only [List.mem_cons, List.not_mem_nil, or_false] at hc
    obtain rfl | rfl | rfl := hc
    · cases depth with
      | zero => exact .tooDeep fun _ _ => rfl
      | succ depth => exact .sign fun length t => operand_minus length depth t
    · cases depth with
      | zero => exact .tooDeep fun _ _ => rfl
      | succ depth => exact .sign fun length t => operand_plus length depth t
    · -- A parenthesis takes five levels.
      rcases depth with _ | _ | _ | _ | _ | depth
      · exact .tooDeep fun _ _ => rfl
      · exact .tooDeep fun _ _ => rfl
      · exact .tooDeep fun _ _ => rfl
      · exact .tooDeep fun _ _ => rfl
      · exact .tooDeep fun _ _ => rfl
      · exact .paren
  · exact .number hnested

/-- Looking for a closing parenthesis leaves no more than it was given. -/
theorem close_shortens (body : Expr) (s : List Char) : (close body s).2.length ≤ s.length := by
  obtain ⟨r, rfl, hclose⟩ | hclose := close_cases body s
  · simp [hclose]
  · simp [hclose]

/-- Nor does a number. -/
theorem number_shortens (length : Nat) (s : List Char) :
    (number length s).2.length ≤ s.length := by
  obtain ⟨hsplit, -⟩ := takeLiteral_sound s
  have hlength := congrArg List.length hsplit
  rw [List.length_append] at hlength
  unfold number
  dsimp only
  split
  · exact Nat.zero_le _
  · show (takeLiteral s).2.length ≤ s.length
    omega

/-- **An operand leaves no more than it was given**, at any depth. -/
theorem operand_shortens (length depth : Nat) : Shortens (operand length depth) := by
  induction depth using Nat.strong_induction_on with
  | _ depth ih =>
    intro s
    -- Every branch but the first has read a character before it goes on.
    cases begins depth s with
    | number hnested =>
      rw [operand_of_not_beginsNested hnested]
      exact number_shortens length s
    | tooDeep hread =>
      rw [hread]
      exact Nat.zero_le _
    | @sign depth c minus s hread =>
      rw [hread]
      exact (ih depth (by omega) s).trans (Nat.le_succ _)
    | @paren depth s =>
      rw [operand_group]
      have hbody := expressionWith_shortens (ih depth (by omega)) s
      exact (close_shortens _ _).trans (hbody.trans (Nat.le_succ _))

/-! ### One more closing parenthesis -/

/-- What no expression around can use: something is left, but neither an operator nor `)`. -/
def Refused (s : List Char) : Prop := operator? s = none ∧ ¬ EndsExpression s

/-- How something is found where one more `)` stands at the end.  Either the `)` is left over; then
    no parenthesis was left open unless something is refused.  Or all of both texts is used up. -/
def LeavesCloser (isClosed : Prop) (rest rest' : List Char) : Prop :=
  rest' = rest ++ [')'] ∧ (isClosed ∨ Refused rest) ∨ rest = [] ∧ rest' = []

/-- **One more `)`.** What a reader finds in a text has the value of what another reader finds where
    one more `)` stands at the end. -/
def ReadsCloser (rd rd' : OperandReader) : Prop :=
  ∀ s, SameValue (rd s).1 (rd' (s ++ [')'])).1 ∧
    LeavesCloser ((rd s).1.openGroups = 0) (rd s).2 (rd' (s ++ [')'])).2

/-- A closing parenthesis at the end of a text changes no operator, since no operator has one. -/
theorem operator?_append_closer (s : List Char) :
    operator? (s ++ [')']) = (operator? s).map fun (op, t) => (op, t ++ [')']) := by
  fun_cases operator? s with
  | case3 t hstar =>
    -- What follows a lone star does not become a second one.
    refine Spells.star.operator?_append fun r heq => ?_
    cases t with
    | nil => simp at heq
    | cons d t => exact hstar t (by rw [(List.cons.inj heq).1])
  | case8 =>
    cases s with
    | nil => rfl
    | cons c t => simp_all [operator?]
  | case1 | case2 | case4 | case5 | case6 | case7 => rfl

/-- Nor does it make an operator. -/
theorem operator?_append_closer_eq_none {s : List Char} (h : operator? s = none) :
    operator? (s ++ [')']) = none := by
  rw [operator?_append_closer, h]
  rfl

/-- The operators and operands of a chain, where one more `)` stands at the end. -/
theorem chain_readsCloser (hrd : ReadsCloser rd rd') (hshort : Shortens rd) {fuel : Nat}
    {s : List Char} (hfuel : s.length ≤ fuel) :
    ChainsRelated SameValue (chain rd fuel s).1 (chain rd' (fuel + 1) (s ++ [')'])).1 ∧
      LeavesCloser (∀ x ∈ (chain rd fuel s).1, x.2.openGroups = 0) (chain rd fuel s).2
        (chain rd' (fuel + 1) (s ++ [')'])).2 := by
  induction fuel generalizing s with
  | zero =>
    obtain rfl := List.length_eq_zero_iff.mp (Nat.le_zero.mp hfuel)
    exact ⟨.nil, .inl ⟨rfl, .inl (by simp [chain])⟩⟩
  | succ fuel ih =>
    cases hop : operator? s with
    | none =>
      rw [chain_of_operator?_eq_none hop,
        chain_of_operator?_eq_none (operator?_append_closer_eq_none hop)]
      exact ⟨.nil, .inl ⟨rfl, .inl (by simp)⟩⟩
    | some found =>
      obtain ⟨op, t⟩ := found
      have hop' : operator? (s ++ [')']) = some (op, t ++ [')']) := by
        rw [operator?_append_closer, hop]
        rfl
      have hlt := length_lt_of_operator? hop
      have hle := hshort t
      obtain ⟨hvalue, hleaves⟩ := hrd t
      rw [chain, hop, chain, hop']
      dsimp only
      obtain ⟨hrest', hclosed | hrefused⟩ | ⟨hrest, hrest'⟩ := hleaves
      · -- Nothing is left open in this operand, and the chain goes on behind it.
        rw [hrest']
        obtain ⟨hchain, hleaves⟩ := ih (s := (rd t).2) (by omega)
        refine ⟨.cons ⟨rfl, hvalue⟩ hchain, hleaves.imp_left ?_⟩
        rintro ⟨hleft, hcases⟩
        refine ⟨hleft, hcases.imp_left fun hall => ?_⟩
        exact List.forall_mem_cons.mpr ⟨hclosed, hall⟩
      · -- What follows this operand is refused here, too.
        rw [hrest', chain_of_operator?_eq_none hrefused.1,
          chain_of_operator?_eq_none (operator?_append_closer_eq_none hrefused.1)]
        exact ⟨.cons ⟨rfl, hvalue⟩ .nil, .inl ⟨rfl, .inr hrefused⟩⟩
      · -- The operand took the `)`.
        rw [hrest, hrest', chain_of_operator?_eq_none (by rfl),
          chain_of_operator?_eq_none (by rfl)]
        exact ⟨.cons ⟨rfl, hvalue⟩ .nil, .inr ⟨rfl, rfl⟩⟩

/-- **Expressions are read like their operands**: what stops one reader before the parenthesis stops
    the other one there. -/
theorem expressionWith_readsCloser (hrd : ReadsCloser rd rd') (hshort : Shortens rd) :
    ReadsCloser (expressionWith rd) (expressionWith rd') := by
  intro s
  obtain ⟨hvalue, hleaves⟩ := hrd s
  unfold expressionWith
  dsimp only
  -- Either the parenthesis is still there behind the first operand, or that has used it up.
  obtain ⟨hrest', hclosed | hrefused⟩ | ⟨hrest, hrest'⟩ := hleaves
  · rw [hrest', List.length_append]
    obtain ⟨hchain, hleaves⟩ := chain_readsCloser hrd hshort (le_refl (rd s).2.length)
    refine ⟨treeOf_related SameValue.binary hchain hvalue, hleaves.imp_left ?_⟩
    rintro ⟨hleft, hcases⟩
    exact ⟨hleft, hcases.imp_left fun hall => openGroups_treeOf_eq_zero hclosed hall⟩
  · rw [hrest', chain_of_operator?_eq_none hrefused.1,
      chain_of_operator?_eq_none (operator?_append_closer_eq_none hrefused.1)]
    exact ⟨treeOf_related SameValue.binary .nil hvalue, .inl ⟨rfl, .inr hrefused⟩⟩
  · rw [hrest, hrest', chain_of_operator?_eq_none (by rfl), chain_of_operator?_eq_none (by rfl)]
    exact ⟨treeOf_related SameValue.binary .nil hvalue, .inr ⟨rfl, rfl⟩⟩

/-! ### Operands with one more closing parenthesis -/

/-- A closing parenthesis at the end of a text is no part of a literal. -/
theorem takeLiteral_append_closer (s : List Char) :
    takeLiteral (s ++ [')']) = ((takeLiteral s).1, (takeLiteral s).2 ++ [')']) := by
  -- No digit is added to a run of digits.
  have hrun : ∀ t : List Char, (t ++ [')']).takeWhile Char.isDigit = t.takeWhile Char.isDigit ∧
      (t ++ [')']).dropWhile Char.isDigit = t.dropWhile Char.isDigit ++ [')'] := by
    intro t
    induction t with
    | nil => decide
    | cons c t ih =>
      by_cases hc : c.isDigit = true
      · simpa [hc] using ih
      · simp [hc]
  unfold takeLiteral
  dsimp only
  rw [(hrun s).1, (hrun s).2]
  cases hdrop : s.dropWhile Char.isDigit with
  | nil => rfl
  | cons c t =>
    by_cases hc : c = '.'
    · subst hc
      simp only [List.cons_append, (hrun t).1, (hrun t).2]
    · simp [hc]

/-- Numbers are read so: what they leave ends with the parenthesis. -/
theorem number_readsCloser (length length' : Nat) :
    ReadsCloser (number length) (number length') := by
  intro s
  unfold number
  dsimp only
  rw [takeLiteral_append_closer]
  split
  · exact ⟨.stopped _ _, .inr ⟨rfl, rfl⟩⟩
  · exact ⟨.refl _, .inl ⟨rfl, .inl rfl⟩⟩

/-- A closing parenthesis does not make a text begin with a sign or an opening one. -/
theorem not_beginsNested_append_closer {s : List Char} (h : ¬ BeginsNested s) :
    ¬ BeginsNested (s ++ [')']) := by
  rintro ⟨c, hc, r, heq⟩
  cases s with
  | nil =>
    obtain ⟨rfl, -⟩ := List.cons.inj heq
    simp at hc
  | cons d s =>
    obtain ⟨rfl, -⟩ := List.cons.inj heq
    exact h ⟨d, hc, s, rfl⟩

/-- An expression in parentheses, where one more `)` stands at the end and no operator follows. -/
theorem close_readsCloser {e e' : Expr} {s s' : List Char} (hvalue : SameValue e e')
    (hop : operator? s = none) (hleaves : LeavesCloser (e.openGroups = 0) s s') :
    SameValue (close e s).1 (close e' s').1 ∧
      LeavesCloser ((close e s).1.openGroups = 0) (close e s).2 (close e' s').2 := by
  obtain ⟨rfl, hcases⟩ | ⟨rfl, rfl⟩ := hleaves
  · cases s with
    | nil =>
      -- The parenthesis that was left open is closed by the `)`.
      exact ⟨hvalue.group, .inr ⟨rfl, rfl⟩⟩
    | cons c s =>
      by_cases hc : c = ')'
      · subst hc
        have hclosed : e.openGroups = 0 :=
          hcases.resolve_right fun hrefused => hrefused.2 (.inr ⟨s, rfl⟩)
        exact ⟨hvalue.group, .inl ⟨rfl, .inl hclosed⟩⟩
      · -- It is left open before something that is refused.
        have hclose : ∀ (f : Expr) (t : List Char),
            close f (c :: t) = (.group f false, c :: t) := by
          intro f t
          obtain ⟨r, heq, -⟩ | hclose := close_cases f (c :: t)
          · exact absurd (List.cons.inj heq).1 hc
          · exact hclose
        have hrefused : Refused (c :: s) := by
          refine ⟨hop, ?_⟩
          rintro (heq | ⟨r, heq⟩)
          · cases heq
          · exact hc (List.cons.inj heq).1
        rw [List.cons_append, hclose, hclose]
        exact ⟨hvalue.group, .inl ⟨rfl, .inr hrefused⟩⟩
  · exact ⟨hvalue.group, .inr ⟨rfl, rfl⟩⟩

/-- **Operands with one more `)` at the end.** They keep their value, and a parenthesis that is left
    open before the end is followed by what no expression around can use. -/
theorem operand_readsCloser (length length' depth : Nat) :
    ReadsCloser (operand length depth) (operand length' depth) := by
  induction depth using Nat.strong_induction_on with
  | _ depth ih =>
    intro s
    cases begins depth s with
    | number hnested =>
      rw [operand_of_not_beginsNested hnested,
        operand_of_not_beginsNested (not_beginsNested_append_closer hnested)]
      exact number_readsCloser length length' s
    | tooDeep hread =>
      rw [List.cons_append, hread, hread]
      -- What is nested too deeply is refused before the end of the text is seen.
      exact ⟨.refl _, .inr ⟨rfl, rfl⟩⟩
    | @sign depth c minus s hread =>
      rw [List.cons_append, hread, hread]
      obtain ⟨hvalue, hleaves⟩ := ih depth (by omega) s
      exact ⟨hvalue.signed, hleaves⟩
    | @paren depth s =>
      have hshort := operand_shortens length depth
      rw [List.cons_append, operand_group, operand_group]
      obtain ⟨hvalue, hleaves⟩ :=
        expressionWith_readsCloser (ih depth (by omega)) hshort s
      exact close_readsCloser hvalue (operator?_snd_expressionWith hshort s) hleaves

/-! ### Texts -/

/-- A text that has a value and is read to its end leaves its own parentheses open in its tree. -/
theorem openGroups_of_evaluateDense {s : List Char} {x : Float} (h : evaluateDense s = .ok x) :
    s.count '(' = s.count ')' + (expression s).1.openGroups := by
  obtain ⟨heval, hrest⟩ := (evaluateDense_eq_ok_iff s x).mp h
  obtain ⟨t, ht, hover⟩ := expressionWith_sound (operand_sound s.length depthLimit) s
    (Expr.isWhole_of_eval heval)
  have hall : s = t := by
    have hsplit : s = t ++ (expression s).2 := ht
    rw [hsplit, hrest, List.append_nil]
  have hcount := (derives_of_expressionOver hover).1.count_eq
  rw [← hall] at hcount
  exact hcount

/-- Where a parenthesis is open at the end, closing it changes nothing. -/
theorem evaluateDense_append_closer {s : List Char} (hopen : s.count ')' < s.count '(')
    (x : Float) : evaluateDense s = .ok x ↔ evaluateDense (s ++ [')']) = .ok x := by
  obtain ⟨hvalue, hleaves⟩ := expressionWith_readsCloser
    (operand_readsCloser s.length (s ++ [')']).length depthLimit)
    (operand_shortens s.length depthLimit) s
  have hvalue : SameValue (expression s).1 (expression (s ++ [')'])).1 := hvalue
  rw [evaluateDense_eq_ok_iff, evaluateDense_eq_ok_iff, hvalue x]
  refine and_congr_right fun heval => ?_
  obtain ⟨hrest', hcases⟩ | ⟨hrest, hrest'⟩ := hleaves
  · -- The `)` is left over.  Nothing else is, unless it is refused, since some parenthesis is open.
    have hrest' : (expression (s ++ [')'])).2 = (expression s).2 ++ [')'] := hrest'
    constructor
    · intro hrest
      have hcount := openGroups_of_evaluateDense
        ((evaluateDense_eq_ok_iff s x).mpr ⟨(hvalue x).mpr heval, hrest⟩)
      obtain hclosed | hrefused := hcases
      · have hclosed : (expression s).1.openGroups = 0 := hclosed
        omega
      · exact absurd (.inl hrest) hrefused.2
    · intro hrest
      rw [hrest'] at hrest
      simp at hrest
  · exact iff_of_true hrest hrest'

/-- Closing parentheses that are open at the end changes nothing. -/
theorem evaluateDense_append_closers {s : List Char} {k : Nat}
    (hopen : s.count ')' + k ≤ s.count '(') (x : Float) :
    evaluateDense s = .ok x ↔ evaluateDense (s ++ List.replicate k ')') = .ok x := by
  induction k generalizing s with
  | zero => rw [List.replicate_zero, List.append_nil]
  | succ k ih =>
    have hmore : (s ++ [')']).count ')' + k ≤ (s ++ [')']).count '(' := by
      have hcloser : [')'].count ')' = 1 ∧ [')'].count '(' = 0 := by decide
      rw [List.count_append, List.count_append, hcloser.1, hcloser.2]
      omega
    rw [evaluateDense_append_closer (by omega) x, ih hmore, List.replicate_succ,
      List.append_assoc, List.singleton_append]

/-- A text that closes too much has no value. -/
theorem not_closesTooMuch_of_evaluateDense {s : List Char} {x : Float}
    (h : evaluateDense s = .ok x) : ¬ ClosesTooMuch s := by
  rintro ⟨p, hp, hlt⟩
  obtain ⟨e, hderives, -, -⟩ := exists_derives_of_evaluateDense h
  have hle := hderives.count_le_of_prefix p hp
  omega

/-- **A closing parenthesis may be missing at the end, and nowhere else.** A text in which some `)`
    has no earlier `(` has no value.  Any other text has exactly the value that it has when as many
    closing parentheses as it lacks are put behind it. -/
theorem evaluateText_close (text : String) :
    (ClosesTooMuch (dropBlanks text.toList) → ∃ error, evaluateText text = .error error) ∧
      ∀ x, evaluateText text = .ok x ↔
        evaluateText (text ++ String.ofList
          (List.replicate (unclosed (dropBlanks text.toList)) ')')) = .ok x := by
  constructor
  · intro hmuch
    cases h : evaluateText text with
    | error error => exact ⟨error, rfl⟩
    | ok x => exact absurd hmuch (not_closesTooMuch_of_evaluateDense h)
  · intro x
    have hdense : ∀ k, dropBlanks (text ++ String.ofList (List.replicate k ')')).toList =
        dropBlanks text.toList ++ List.replicate k ')' := by
      intro k
      have hclosers : dropBlanks (List.replicate k ')') = List.replicate k ')' := by
        unfold dropBlanks
        rw [List.filter_replicate, if_pos (by decide)]
      rw [String.toList_append, String.toList_ofList]
      unfold dropBlanks at hclosers ⊢
      rw [List.filter_append, hclosers]
    unfold evaluateText
    rw [hdense]
    by_cases hle : (dropBlanks text.toList).count ')' ≤ (dropBlanks text.toList).count '('
    · exact evaluateDense_append_closers (by unfold unclosed; omega) x
    · -- Nothing is appended to a text that closes too much.
      have hnone : unclosed (dropBlanks text.toList) = 0 := by unfold unclosed; omega
      rw [hnone, List.replicate_zero, List.append_nil]

/-- A text that closes too much, and one that leaves two parentheses open. -/
theorem evaluateText_close_unfinished :
    ClosesTooMuch (dropBlanks "(1) + 2)(".toList) ∧
      (∃ error, evaluateText "(1) + 2)(" = .error error) ∧
        ∀ x, evaluateText "2 * (3 - (1" = .ok x ↔ evaluateText "2 * (3 - (1))" = .ok x := by
  have hmuch : ClosesTooMuch (dropBlanks "(1) + 2)(".toList) := by decide
  have htext : "2 * (3 - (1" ++ String.ofList (List.replicate
      (unclosed (dropBlanks "2 * (3 - (1".toList)) ')') = "2 * (3 - (1))" := by decide
  refine ⟨hmuch, (evaluateText_close "(1) + 2)(").1 hmuch, ?_⟩
  rw [← htext]
  exact (evaluateText_close "2 * (3 - (1").2

end Reckoner.Arithmetic
