import Mathlib.Data.List.TakeWhile
import Reckoner.Proofs.Arithmetic.Chain

/-!
# What the reader finds

Whatever the reader finds, the lenient grammar derives.  A reader of operands is sound if what it
finds is an operand; then the reader of expressions that uses it is sound, too.

* `ReadsSoundly` — what a reader finds is an operand of some kind, unless it had to stop.
* `expressionWith_sound` — expressions are read soundly if their operands are.
* `operand_sound` — operands are read soundly, and within the depth that is allowed.
* `evaluateDense_eq_ok_iff` — a text has a value exactly if it is read to its end and its tree has
  this value.
-/

namespace Reckoner.Arithmetic

open Reckoner.Text

/-- A reader takes an operand from the head of a text, and leaves the rest. -/
abbrev OperandReader := List Char → Expr × List Char

/-- What a reader finds is an operand, unless it had to stop. -/
def ReadsSoundly (rd : OperandReader) (P : Operands) : Prop :=
  ∀ s, (rd s).1.IsWhole → ∃ t, s = t ++ (rd s).2 ∧ P t (rd s).1

/-! ### Operators -/

/-- The operator that is found is at the head of the text. -/
theorem spells_of_operator? {s rest : List Char} {op : Operator}
    (h : operator? s = some (op, rest)) : ∃ sym, Spells op sym ∧ s = sym ++ rest := by
  unfold operator? at h
  split at h <;> simp only [Option.some.injEq, Prod.mk.injEq, reduceCtorEq] at h
  · obtain ⟨rfl, rfl⟩ := h
    exact ⟨_, .caret, rfl⟩
  · obtain ⟨rfl, rfl⟩ := h
    exact ⟨_, .stars, rfl⟩
  · obtain ⟨rfl, rfl⟩ := h
    exact ⟨_, .star, rfl⟩
  · obtain ⟨rfl, rfl⟩ := h
    exact ⟨_, .slash, rfl⟩
  · obtain ⟨rfl, rfl⟩ := h
    exact ⟨_, .percent, rfl⟩
  · obtain ⟨rfl, rfl⟩ := h
    exact ⟨_, .plus, rfl⟩
  · obtain ⟨rfl, rfl⟩ := h
    exact ⟨_, .minus, rfl⟩

/-! ### Chains -/

/-- Dividing a chain loses no place where reading had to stop. -/
theorem isWhole_of_link {level : Operator → Bool} {rest left : List (Operator × Expr)}
    {first e : Expr} (hlink : link level first rest = (e, left)) (he : e.IsWhole)
    (hleft : ∀ x ∈ left, x.2.IsWhole) : first.IsWhole ∧ ∀ x ∈ rest, x.2.IsWhole := by
  induction rest generalizing first e left with
  | nil =>
    obtain ⟨rfl, rfl⟩ := Prod.mk.inj hlink
    exact ⟨he, hleft⟩
  | cons x rest ih =>
    obtain ⟨op, f⟩ := x
    -- An operator of the level joins the next operand to the first; any other one ends the joining.
    by_cases hop : level op = true
    · rw [link, if_pos hop] at hlink
      obtain ⟨⟨hfirst, hf⟩, hall⟩ := ih hlink he hleft
      exact ⟨hfirst, List.forall_mem_cons.mpr ⟨hf, hall⟩⟩
    · rw [link, if_neg hop] at hlink
      obtain ⟨rfl, rfl⟩ := Prod.mk.inj hlink
      obtain ⟨hf, hleft⟩ := List.forall_mem_cons.mp hleft
      exact ⟨he, List.forall_mem_cons.mpr (ih rfl hf hleft)⟩

/-- If the tree of a chain of operands is whole, so are all of them. -/
theorem isWhole_of_treeOf {first : Expr} {rest : List (Operator × Expr)}
    (h : (treeOf first rest).IsWhole) : first.IsWhole ∧ ∀ x ∈ rest, x.2.IsWhole := by
  cases hlink₁ : link Operator.isPower first rest with
  | mk first₁ rest₁ =>
    cases hlink₂ : link Operator.isMultiplicative first₁ rest₁ with
    | mk first₂ rest₂ =>
      simp only [treeOf, hlink₁, hlink₂] at h
      have hnil := snd_link_isAdditive hlink₁ hlink₂
      obtain ⟨hfirst₂, hrest₂⟩ := isWhole_of_link rfl h (by simp [hnil])
      obtain ⟨hfirst₁, hrest₁⟩ := isWhole_of_link hlink₂ hfirst₂ hrest₂
      exact isWhole_of_link hlink₁ hfirst₁ hrest₁

/-- The operators and operands that are found are at the head of the text. -/
theorem chain_sound {rd : OperandReader} {P : Operands} (hrd : ReadsSoundly rd P) (fuel : Nat)
    (s : List Char) (hwhole : ∀ x ∈ (chain rd fuel s).1, x.2.IsWhole) :
    ∃ u, s = u ++ (chain rd fuel s).2 ∧ Spelled P (chain rd fuel s).1 u := by
  induction fuel generalizing s with
  | zero => exact ⟨[], rfl, .nil⟩
  | succ fuel ih =>
    cases hop : operator? s with
    | none =>
      rw [chain, hop]
      exact ⟨[], rfl, .nil⟩
    | some found =>
      obtain ⟨op, s'⟩ := found
      obtain ⟨sym, hsym, rfl⟩ := spells_of_operator? hop
      rw [chain, hop] at hwhole ⊢
      -- An operator and its operand are read, and then the rest of the chain.
      obtain ⟨he, hrest⟩ := List.forall_mem_cons.mp hwhole
      obtain ⟨t, ht, hP⟩ := hrd s' he
      obtain ⟨u, hu, hspelled⟩ := ih (rd s').2 hrest
      refine ⟨sym ++ (t ++ u), ?_, .cons hsym hP hspelled⟩
      simp only [List.append_assoc, ← hu, ← ht]

/-- An expression that is found is at the head of the text. -/
theorem expressionWith_sound {rd : OperandReader} {P : Operands} (hrd : ReadsSoundly rd P) :
    ReadsSoundly (expressionWith rd) (ExpressionOver P) := by
  intro s hwhole
  have htree : (treeOf (rd s).1 (chain rd (rd s).2.length (rd s).2).1).IsWhole := hwhole
  obtain ⟨hfirst, hrest⟩ := isWhole_of_treeOf htree
  obtain ⟨t, ht, hP⟩ := hrd s hfirst
  obtain ⟨u, hu, hspelled⟩ := chain_sound hrd (rd s).2.length (rd s).2 hrest
  refine ⟨t ++ u, ?_, expressionOver_treeOf hP hspelled⟩
  show s = (t ++ u) ++ (chain rd (rd s).2.length (rd s).2).2
  rw [List.append_assoc, ← hu, ← ht]

/-! ### Numbers -/

/-- The digits at the head of a text, where what follows them does not begin with one. -/
theorem AllDigits.takeWhile_append {s r : List Char} (hs : AllDigits s)
    (hr : ∀ c u, r = c :: u → c.isDigit = false) :
    (s ++ r).takeWhile Char.isDigit = s ∧ (s ++ r).dropWhile Char.isDigit = r := by
  have hhead : r.takeWhile Char.isDigit = [] ∧ r.dropWhile Char.isDigit = r := by
    cases r with
    | nil => exact ⟨rfl, rfl⟩
    | cons c u => simp [hr c u rfl]
  rw [List.takeWhile_append_of_pos hs, List.dropWhile_append_of_pos hs, hhead.1, hhead.2]
  exact ⟨List.append_nil s, rfl⟩

theorem allDigits_takeWhile (s : List Char) : AllDigits (s.takeWhile Char.isDigit) :=
  fun _ hc => List.mem_takeWhile_imp hc

/-- The literal that is taken, with what follows it, is the whole text.  It is a numeral unless it
    is empty or a lone point. -/
theorem takeLiteral_sound (s : List Char) :
    s = (takeLiteral s).1 ++ (takeLiteral s).2 ∧
      ((takeLiteral s).1 = [] ∨ (takeLiteral s).1 = ['.'] ∨ Numeral (takeLiteral s).1) := by
  have hdigits := allDigits_takeWhile s
  have hsplit : s = s.takeWhile Char.isDigit ++ s.dropWhile Char.isDigit :=
    List.takeWhile_append_dropWhile.symm
  unfold takeLiteral
  split
  next rest hdrop =>
    rw [hdrop] at hsplit
    refine ⟨?_, ?_⟩
    · simpa [List.takeWhile_append_dropWhile] using hsplit
    · -- A point without any digit around it is taken, although it is no literal.
      by_cases hpoint : s.takeWhile Char.isDigit = [] ∧ rest.takeWhile Char.isDigit = []
      · exact .inr (.inl (by simp [hpoint]))
      · exact .inr (.inr (.pointed hdigits (allDigits_takeWhile rest)
          (not_and_or.mp hpoint)))
  next hdrop =>
    refine ⟨hsplit, ?_⟩
    by_cases hempty : s.takeWhile Char.isDigit = []
    · exact .inl hempty
    · exact .inr (.inr (.whole hdigits hempty))

/-- A number that is found is at the head of the text. -/
theorem number_sound (length : Nat) (s : List Char) (hwhole : (number length s).1.IsWhole) :
    ∃ t, s = t ++ (number length s).2 ∧ Numeral t ∧ (number length s).1 = .number t := by
  obtain ⟨hsplit, hcases⟩ := takeLiteral_sound s
  by_cases hnone : (takeLiteral s).1 = [] ∨ (takeLiteral s).1 = ['.']
  · simp [number, hnone, Expr.IsWhole] at hwhole
  · have hnumeral : Numeral (takeLiteral s).1 := by
      obtain h | h | h := hcases
      · exact absurd (.inl h) hnone
      · exact absurd (.inr h) hnone
      · exact h
    exact ⟨(takeLiteral s).1, by simpa [number, hnone] using hsplit, hnumeral,
      by simp [number, hnone]⟩

/-! ### Operands -/

/-- Whether a text begins with a sign or an opening parenthesis. -/
def BeginsNested (s : List Char) : Prop := ∃ c ∈ ['-', '+', '('], ∃ r, s = c :: r

theorem operand_minus (length depth : Nat) (s : List Char) :
    operand length (depth + 1) ('-' :: s) =
      (.signed true (operand length depth s).1, (operand length depth s).2) := rfl

theorem operand_plus (length depth : Nat) (s : List Char) :
    operand length (depth + 1) ('+' :: s) =
      (.signed false (operand length depth s).1, (operand length depth s).2) := rfl

theorem operand_group (length depth : Nat) (s : List Char) :
    operand length (depth + 5) ('(' :: s) =
      close (expressionWith (operand length depth) s).1
        (expressionWith (operand length depth) s).2 := rfl

/-- What begins with neither a sign nor a parenthesis is read as a number. -/
theorem operand_of_not_beginsNested {s : List Char} (hs : ¬ BeginsNested s)
    (length depth : Nat) : operand length depth s = number length s := by
  cases s with
  | nil => rcases depth with _ | _ | _ | _ | _ | depth <;> rfl
  | cons c s =>
    have hminus : c ≠ '-' := fun h => hs ⟨c, by simp [h], s, rfl⟩
    have hplus : c ≠ '+' := fun h => hs ⟨c, by simp [h], s, rfl⟩
    have hparen : c ≠ '(' := fun h => hs ⟨c, by simp [h], s, rfl⟩
    rcases depth with _ | _ | _ | _ | _ | depth <;> simp [operand, hminus, hplus, hparen]

/-- A parenthesis is closed if the closing one is there. -/
theorem close_cases (body : Expr) (s : List Char) :
    (∃ r, s = ')' :: r ∧ close body s = (.group body true, r)) ∨
      close body s = (.group body false, s) := by
  unfold close
  split
  · exact .inl ⟨_, rfl, rfl⟩
  · exact .inr rfl

/-- A sign is read if one more level is allowed, and an opening parenthesis if five more are. -/
theorem levels_of_isWhole_operand {length depth : Nat} {c : Char} {s : List Char}
    (h : (operand length depth (c :: s)).1.IsWhole) :
    (c = '-' ∨ c = '+' → 1 ≤ depth) ∧ (c = '(' → 5 ≤ depth) := by
  refine ⟨?_, ?_⟩
  · rintro (rfl | rfl)
    · rcases depth with _ | depth
      · exact h.elim
      · omega
    · rcases depth with _ | depth
      · exact h.elim
      · omega
  · rintro rfl
    rcases depth with _ | _ | _ | _ | _ | depth
    all_goals first | exact h.elim | omega

/-- An operand with a sign is read soundly if what follows the sign is. -/
theorem signed_sound {length depth : Nat}
    (ih : ReadsSoundly (operand length depth) (operandsWithin true depth)) {c : Char}
    {negative : Bool} {s : List Char}
    (hread : operand length (depth + 1) (c :: s) =
      (.signed negative (operand length depth s).1, (operand length depth s).2))
    (hderives : ∀ {t e}, Derives true .unary t e →
      Derives true .unary (c :: t) (.signed negative e))
    (hwhole : (operand length (depth + 1) (c :: s)).1.IsWhole) :
    ∃ t, c :: s = t ++ (operand length (depth + 1) (c :: s)).2 ∧
      operandsWithin true (depth + 1) t (operand length (depth + 1) (c :: s)).1 := by
  rw [hread] at hwhole ⊢
  obtain ⟨t, ht, hoperand, hnesting⟩ := ih s hwhole
  exact ⟨c :: t, congrArg (c :: ·) ht, hderives hoperand, Nat.succ_le_succ hnesting⟩

/-- An operand in parentheses is read soundly if the expression between them is.  The closing one
    may be missing. -/
theorem group_sound {length depth : Nat}
    (ih : ReadsSoundly (operand length depth) (operandsWithin true depth)) {s : List Char}
    (hwhole : (operand length (depth + 5) ('(' :: s)).1.IsWhole) :
    ∃ t, '(' :: s = t ++ (operand length (depth + 5) ('(' :: s)).2 ∧
      operandsWithin true (depth + 5) t (operand length (depth + 5) ('(' :: s)).1 := by
  rw [operand_group] at hwhole ⊢
  -- A group ends with its parenthesis, or with the text while it is open.
  obtain ⟨r, hr, hclose⟩ | hclose := close_cases (expressionWith (operand length depth) s).1
    (expressionWith (operand length depth) s).2
  · rw [hclose] at hwhole ⊢
    obtain ⟨t, ht, hover⟩ := expressionWith_sound ih s hwhole
    obtain ⟨hderives, hnesting⟩ := derives_of_expressionOver hover
    rw [hr] at ht
    exact ⟨'(' :: (t ++ [')']), by simp [← ht], .ofAtom (.group hderives),
      Nat.add_le_add_right hnesting 5⟩
  · rw [hclose] at hwhole ⊢
    obtain ⟨t, ht, hover⟩ := expressionWith_sound ih s hwhole
    obtain ⟨hderives, hnesting⟩ := derives_of_expressionOver hover
    exact ⟨'(' :: t, congrArg ('(' :: ·) ht, .ofAtom (.openGroup rfl hderives),
      Nat.add_le_add_right hnesting 5⟩

/-- **Operands are read soundly.** What is found is derived by the lenient grammar, and it is nested
    no deeper than it may be. -/
theorem operand_sound (length depth : Nat) :
    ReadsSoundly (operand length depth) (operandsWithin true depth) := by
  -- A sign takes one level and a parenthesis five, so that the levels do not go down one by one.
  induction depth using Nat.strong_induction_on with
  | _ depth ih =>
    intro s hwhole
    by_cases hnested : BeginsNested s
    · obtain ⟨c, hc, s, rfl⟩ := hnested
      obtain ⟨hsign, hparen⟩ := levels_of_isWhole_operand hwhole
      simp only [List.mem_cons, List.not_mem_nil, or_false] at hc
      obtain rfl | rfl | rfl := hc
      · obtain ⟨depth, rfl⟩ := Nat.exists_eq_add_of_le' (hsign (.inl rfl))
        exact signed_sound (ih depth (by omega)) (operand_minus ..) .negative hwhole
      · obtain ⟨depth, rfl⟩ := Nat.exists_eq_add_of_le' (hsign (.inr rfl))
        exact signed_sound (ih depth (by omega)) (operand_plus ..) .positive hwhole
      · obtain ⟨depth, rfl⟩ := Nat.exists_eq_add_of_le' (hparen rfl)
        exact group_sound (ih depth (by omega)) hwhole
    · rw [operand_of_not_beginsNested hnested] at hwhole ⊢
      obtain ⟨t, ht, hnumeral, heq⟩ := number_sound length s hwhole
      rw [heq]
      exact ⟨t, ht, .ofAtom (.number hnumeral), Nat.zero_le depth⟩

/-! ### Texts -/

/-- A text has a value exactly if it is read to its end and its tree has this value. -/
theorem evaluateDense_eq_ok_iff (s : List Char) (x : Float) :
    evaluateDense s = .ok x ↔ (expression s).1.eval = .ok x ∧ (expression s).2 = [] := by
  unfold evaluateDense
  cases heval : (expression s).1.eval with
  | error error => simp [heval, bind, Except.bind]
  | ok y =>
    cases hrest : (expression s).2 with
    | nil => simp [heval, hrest, bind, Except.bind, pure, Except.pure]
    | cons c r => simp [heval, hrest, bind, Except.bind, throw, throwThe, MonadExceptOf.throw]

/-- A text with a value has a tree in the lenient grammar, with this value and nested no deeper than
    it may be. -/
theorem exists_derives_of_evaluateDense {s : List Char} {x : Float}
    (h : evaluateDense s = .ok x) :
    ∃ e, Derives true .addSub s e ∧ e.nesting ≤ depthLimit ∧ e.eval = .ok x := by
  obtain ⟨heval, hrest⟩ := (evaluateDense_eq_ok_iff s x).mp h
  obtain ⟨t, ht, hover⟩ := expressionWith_sound (operand_sound s.length depthLimit) s
    (Expr.isWhole_of_eval heval)
  obtain ⟨hderives, hnesting⟩ := derives_of_expressionOver hover
  -- Nothing is left over, so that what is derived is the whole text.
  have hst : s = t := by
    have hall : s = t ++ (expression s).2 := ht
    rw [hall, hrest, List.append_nil]
  exact ⟨(expression s).1, hst ▸ hderives, hnesting, heval⟩

end Reckoner.Arithmetic
