import Reckoner.Proofs.Arithmetic.Grammar

/-!
# Chains of operands

A chain is an operand followed by operators with operands.  Dividing it level by level gives the
tree that the grammar gives to its text.

* `Grouped` — operands of one kind, grouped to the left around the operators of one level.
* `Spelled` — the text of operators with operands of one kind.
* `ExpressionOver` — an expression over operands of one kind: sums of products of powers of them.
* `expressionOver_treeOf` — the tree of a chain of operands is an expression over them.
* `ExpressionOver.exists_chain` — every expression over operands is the tree of a chain of them.
* `expressionOver_iff` — what the grammar derives are the expressions over its operands.
-/

namespace Reckoner.Arithmetic

/-- Which texts are operands of some kind, and what their trees are. -/
abbrev Operands := List Char → Expr → Prop

variable {P Q : Operands} {level : Operator → Bool}

/-! ### One level -/

/-- Operands grouped to the left around the operators of a level. -/
inductive Grouped (P : Operands) (level : Operator → Bool) : Operands where
  | one {s : List Char} {e : Expr} : P s e → Grouped P level s e
  | more {s sym t : List Char} {op : Operator} {e f : Expr} : Grouped P level s e →
      level op = true → Spells op sym → P t f →
      Grouped P level (s ++ (sym ++ t)) (.binary op e f)

/-- The text of operators with the operands that follow them. -/
inductive Spelled (P : Operands) : List (Operator × Expr) → List Char → Prop where
  | nil : Spelled P [] []
  | cons {sym t u : List Char} {op : Operator} {f : Expr} {rest : List (Operator × Expr)} :
      Spells op sym → P t f → Spelled P rest u →
      Spelled P ((op, f) :: rest) (sym ++ (t ++ u))

theorem Spelled.append {xs ys : List (Operator × Expr)} {u v : List Char} (hx : Spelled P xs u)
    (hy : Spelled P ys v) : Spelled P (xs ++ ys) (u ++ v) := by
  induction hx with
  | nil => exact hy
  | cons hop hP _ ih => simpa using Spelled.cons hop hP ih

/-- Dividing a chain around the operators of one level gives operands of the next level, and the
    text stays the same. -/
theorem spelled_link {rest : List (Operator × Expr)} {u : List Char} (hrest : Spelled P rest u)
    {s : List Char} {first : Expr} (hfirst : Grouped P level s first) :
    ∃ s' u', s ++ u = s' ++ u' ∧ Grouped P level s' (link level first rest).1 ∧
      Spelled (Grouped P level) (link level first rest).2 u' := by
  induction hrest generalizing s first with
  | nil => exact ⟨s, [], rfl, hfirst, .nil⟩
  | @cons sym t u op f rest hop hP _ ih =>
    by_cases hlevel : level op = true
    · -- The operand joins those before it.
      obtain ⟨s', u', htext, hs', hu'⟩ := ih (hfirst.more hlevel hop hP)
      refine ⟨s', u', by simpa using htext, ?_⟩
      simpa [link, hlevel] using ⟨hs', hu'⟩
    · -- The operator stays, and a new operand begins after it.
      obtain ⟨t', u', htext, ht', hu'⟩ := ih (.one hP)
      refine ⟨s, sym ++ (t' ++ u'), by rw [← htext], ?_⟩
      simpa [link, hlevel] using ⟨hfirst, Spelled.cons hop ht' hu'⟩

/-- Around the operators of its level, a chain becomes one operand; what comes after the first
    operator of another level is divided by itself. -/
theorem link_append {xs ys : List (Operator × Expr)} (hxs : ∀ x ∈ xs, level x.1 = true)
    {op : Operator} (hop : level op = false) (first f : Expr) :
    link level first (xs ++ (op, f) :: ys) =
      ((link level first xs).1, (op, (link level f ys).1) :: (link level f ys).2) := by
  induction xs generalizing first with
  | nil => simp [link, hop]
  | cons x xs ih =>
    obtain ⟨op', e⟩ := x
    have hop' : level op' = true := hxs (op', e) List.mem_cons_self
    have hrest := ih (fun y hy => hxs y (List.mem_cons_of_mem _ hy)) (.binary op' first e)
    simpa [link, hop'] using hrest

theorem link_append_singleton {xs : List (Operator × Expr)} (hxs : ∀ x ∈ xs, level x.1 = true)
    {op : Operator} (hop : level op = true) (first f : Expr) :
    link level first (xs ++ [(op, f)]) = (.binary op (link level first xs).1 f, []) := by
  induction xs generalizing first with
  | nil => simp [link, hop]
  | cons x xs ih =>
    obtain ⟨op', e⟩ := x
    have hop' : level op' = true := hxs (op', e) List.mem_cons_self
    have hrest := ih (fun y hy => hxs y (List.mem_cons_of_mem _ hy)) (.binary op' first e)
    simpa [link, hop'] using hrest

/-- Every operand of the next level is a chain around the operators of one level. -/
theorem Grouped.exists_chain {s : List Char} {e : Expr} (h : Grouped P level s e) :
    ∃ s₀ first rest u, s = s₀ ++ u ∧ P s₀ first ∧ Spelled P rest u ∧
      (∀ x ∈ rest, level x.1 = true) ∧ link level first rest = (e, []) := by
  induction h with
  | @one s e hP => exact ⟨s, e, [], [], by simp, hP, .nil, by simp, rfl⟩
  | @more s sym t op e f _ hlevel hop hP ih =>
    obtain ⟨s₀, first, rest, u, rfl, hfirst, hrest, hall, hlink⟩ := ih
    have hlast : Spelled P [(op, f)] (sym ++ t) := by simpa using Spelled.cons hop hP .nil
    refine ⟨s₀, first, rest ++ [(op, f)], u ++ (sym ++ t), by simp, hfirst, hrest.append hlast,
      ?_, ?_⟩
    · intro x hx
      obtain hx | hx := List.mem_append.mp hx
      · exact hall x hx
      · rw [List.mem_singleton.mp hx]
        exact hlevel
    · rw [link_append_singleton hall hlevel, hlink]

/-- **Undoing a division.** A chain of operands of the next level comes from a chain of operands,
    whose operators are those of the level and those of the first chain. -/
theorem exists_link_eq {rs : List (Operator × Expr)} {u : List Char}
    (hrs : Spelled (Grouped P level) rs u) (hout : ∀ x ∈ rs, level x.1 = false) {s : List Char}
    {e : Expr} (he : Grouped P level s e) :
    ∃ s₀ first rest u₀, s ++ u = s₀ ++ u₀ ∧ P s₀ first ∧ Spelled P rest u₀ ∧
      (∀ x ∈ rest, level x.1 = true ∨ ∃ y ∈ rs, y.1 = x.1) ∧
      link level first rest = (e, rs) := by
  induction hrs generalizing s e with
  | nil =>
    obtain ⟨s₀, first, rest, u, rfl, hfirst, hrest, hall, hlink⟩ := he.exists_chain
    exact ⟨s₀, first, rest, u, by simp, hfirst, hrest, fun x hx => .inl (hall x hx), hlink⟩
  | @cons sym t u op f rs hop hf _ ih =>
    -- The first operand comes from a chain of its own, and so does what follows the operator.
    obtain ⟨t₀, first', rest', u', htext, hfirst', hrest', hall', hlink'⟩ :=
      ih (fun x hx => hout x (List.mem_cons_of_mem _ hx)) hf
    obtain ⟨s₀, first, rest, v, rfl, hfirst, hrest, hall, hlink⟩ := he.exists_chain
    refine ⟨s₀, first, rest ++ (op, first') :: rest', v ++ (sym ++ (t₀ ++ u')), ?_, hfirst,
      hrest.append (.cons hop hfirst' hrest'), ?_, ?_⟩
    · simp [← htext]
    · intro x hx
      obtain hx | hx := List.mem_append.mp hx
      · exact .inl (hall x hx)
      · obtain rfl | hx := List.mem_cons.mp hx
        · exact .inr ⟨(op, f), List.mem_cons_self, rfl⟩
        · exact (hall' x hx).imp_right fun ⟨y, hy, heq⟩ => ⟨y, List.mem_cons_of_mem _ hy, heq⟩
    · rw [link_append hall (hout (op, f) List.mem_cons_self), hlink, hlink']

/-! ### All levels -/

/-- An expression over operands: a sum of products of powers of them. -/
def ExpressionOver (P : Operands) : Operands :=
  Grouped (Grouped (Grouped P Operator.isPower) Operator.isMultiplicative) Operator.isAdditive

/-- An operator that belongs to neither of the tighter levels is additive. -/
theorem Operator.isAdditive_of_not {op : Operator} (hpower : op.isPower = false)
    (hmul : op.isMultiplicative = false) : op.isAdditive = true := by
  cases op with
  | add | sub => rfl
  | mul | div | rem => simp [isMultiplicative] at hmul
  | pow => simp [isPower] at hpower

/-- An additive operator belongs to neither of the tighter levels. -/
theorem Operator.not_of_isAdditive {op : Operator} (h : op.isAdditive = true) :
    op.isMultiplicative = false ∧ op.isPower = false := by
  cases op with
  | add | sub => exact ⟨rfl, rfl⟩
  | mul | div | rem | pow => simp [isAdditive] at h

theorem Operator.not_isPower_of_isMultiplicative {op : Operator}
    (h : op.isMultiplicative = true) : op.isPower = false := by
  cases op with
  | mul | div | rem => rfl
  | add | sub | pow => simp [isMultiplicative] at h

/-- A chain around additive operators becomes one operand. -/
theorem snd_link_eq_nil {rest : List (Operator × Expr)} (hall : ∀ x ∈ rest, level x.1 = true)
    (first : Expr) : (link level first rest).2 = [] := by
  induction rest generalizing first with
  | nil => rfl
  | cons x rest ih =>
    obtain ⟨op, e⟩ := x
    have hop : level op = true := hall (op, e) List.mem_cons_self
    simpa [link, hop] using ih (fun y hy => hall y (List.mem_cons_of_mem _ hy)) (.binary op first e)

/-- What is left when a chain was divided are operators of other levels. -/
theorem mem_snd_link {rest : List (Operator × Expr)} {first : Expr} {x : Operator × Expr}
    (hx : x ∈ (link level first rest).2) : level x.1 = false ∧ ∃ y ∈ rest, y.1 = x.1 := by
  induction rest generalizing first with
  | nil => simp [link] at hx
  | cons z rest ih =>
    obtain ⟨op, e⟩ := z
    by_cases hop : level op = true
    · rw [link, if_pos hop] at hx
      obtain ⟨hlevel, y, hy, heq⟩ := ih hx
      exact ⟨hlevel, y, List.mem_cons_of_mem _ hy, heq⟩
    · rw [link, if_neg hop] at hx
      obtain rfl | hx := List.mem_cons.mp hx
      · exact ⟨by simpa using hop, (op, e), List.mem_cons_self, rfl⟩
      · obtain ⟨hlevel, y, hy, heq⟩ := ih hx
        exact ⟨hlevel, y, List.mem_cons_of_mem _ hy, heq⟩

/-- Nothing is left to be divided after the last level: an operator that was left twice is
    additive. -/
theorem snd_link_isAdditive {first first₁ first₂ : Expr}
    {rest rest₁ rest₂ : List (Operator × Expr)}
    (hlink₁ : link Operator.isPower first rest = (first₁, rest₁))
    (hlink₂ : link Operator.isMultiplicative first₁ rest₁ = (first₂, rest₂)) :
    (link Operator.isAdditive first₂ rest₂).2 = [] := by
  refine snd_link_eq_nil (fun x hx => ?_) first₂
  have hx : x ∈ (link Operator.isMultiplicative first₁ rest₁).2 := by rw [hlink₂]; exact hx
  obtain ⟨hmul, y, hy, heq⟩ := mem_snd_link hx
  have hy : y ∈ (link Operator.isPower first rest).2 := by rw [hlink₁]; exact hy
  exact Operator.isAdditive_of_not (heq ▸ (mem_snd_link hy).1) hmul

/-- The tree of a chain of operands is an expression over them, with the text of the chain. -/
theorem expressionOver_treeOf {s : List Char} {first : Expr} (hfirst : P s first)
    {rest : List (Operator × Expr)} {u : List Char} (hrest : Spelled P rest u) :
    ExpressionOver P (s ++ u) (treeOf first rest) := by
  -- The chain is divided three times, and each time what is left is divided further.
  have hone : Grouped P Operator.isPower s first := .one hfirst
  obtain ⟨s₁, u₁, htext₁, hfirst₁, hrest₁⟩ := spelled_link hrest hone
  cases hlink₁ : link Operator.isPower first rest with
  | mk first₁ rest₁ =>
    rw [hlink₁] at hfirst₁ hrest₁
    have hone₁ : Grouped (Grouped P Operator.isPower) Operator.isMultiplicative s₁ first₁ :=
      .one hfirst₁
    obtain ⟨s₂, u₂, htext₂, hfirst₂, hrest₂⟩ := spelled_link hrest₁ hone₁
    cases hlink₂ : link Operator.isMultiplicative first₁ rest₁ with
    | mk first₂ rest₂ =>
      rw [hlink₂] at hfirst₂ hrest₂
      have hone₂ : ExpressionOver P s₂ first₂ := .one hfirst₂
      obtain ⟨s₃, u₃, htext₃, hfirst₃, hrest₃⟩ := spelled_link hrest₂ hone₂
      rw [snd_link_isAdditive hlink₁ hlink₂] at hrest₃
      cases hrest₃
      have htree : treeOf first rest = (link Operator.isAdditive first₂ rest₂).1 := by
        simp only [treeOf, hlink₁, hlink₂]
      rw [htext₁, htext₂, htext₃, List.append_nil, htree]
      exact hfirst₃

/-- Every expression over operands is the tree of a chain of them. -/
theorem ExpressionOver.exists_chain {s : List Char} {e : Expr} (h : ExpressionOver P s e) :
    ∃ s₀ first rest u, s = s₀ ++ u ∧ P s₀ first ∧ Spelled P rest u ∧ treeOf first rest = e := by
  obtain ⟨s₂, first₂, rest₂, u₂, rfl, hfirst₂, hrest₂, hall₂, hlink₂⟩ := Grouped.exists_chain h
  have hadd : ∀ x ∈ rest₂, x.1.isMultiplicative = false ∧ x.1.isPower = false :=
    fun x hx => Operator.not_of_isAdditive (hall₂ x hx)
  -- The divisions are undone in the opposite order, the one around sums first.
  obtain ⟨s₁, first₁, rest₁, u₁, htext₁, hfirst₁, hrest₁, hall₁, hlink₁⟩ :=
    exists_link_eq hrest₂ (fun x hx => (hadd x hx).1) hfirst₂
  have hmul : ∀ x ∈ rest₁, x.1.isPower = false := by
    intro x hx
    obtain hx | ⟨y, hy, heq⟩ := hall₁ x hx
    · exact Operator.not_isPower_of_isMultiplicative hx
    · exact heq ▸ (hadd y hy).2
  obtain ⟨s₀, first, rest, u, htext, hfirst, hrest, -, hlink⟩ :=
    exists_link_eq hrest₁ hmul hfirst₁
  refine ⟨s₀, first, rest, u, htext₁.trans htext, hfirst, hrest, ?_⟩
  simp only [treeOf, hlink, hlink₁, hlink₂]

/-! ### The expressions of the grammar -/

/-- The operands of the grammar that are nested no deeper than a bound. -/
def operandsWithin (lenient : Bool) (bound : Nat) : Operands :=
  fun s e => Derives lenient .unary s e ∧ e.nesting ≤ bound

/-- What holds of operands, and of two trees around an operator if it holds of both, holds of
    grouped operands. -/
theorem Grouped.imp {s : List Char} {e : Expr} (h : Grouped P level s e)
    (hone : ∀ s e, P s e → Q s e)
    (hmore : ∀ s sym t op e f, Q s e → level op = true → Spells op sym → P t f →
      Q (s ++ (sym ++ t)) (.binary op e f)) : Q s e := by
  induction h with
  | one hP => exact hone _ _ hP
  | more _ hlevel hop hP ih => exact hmore _ _ _ _ _ _ ih hlevel hop hP

theorem derives_of_expressionOver {lenient : Bool} {bound : Nat} {s : List Char} {e : Expr}
    (h : ExpressionOver (operandsWithin lenient bound) s e) :
    Derives lenient .addSub s e ∧ e.nesting ≤ bound := by
  -- The levels are taken from the tightest one on, each over the one before it.
  have hpower : ∀ s e, Grouped (operandsWithin lenient bound) Operator.isPower s e →
      Derives lenient .power s e ∧ e.nesting ≤ bound := by
    intro s e h
    refine h.imp (Q := fun s e => Derives lenient .power s e ∧ e.nesting ≤ bound) ?_ ?_
    · exact fun s e h => ⟨.ofUnary h.1, h.2⟩
    · exact fun s sym t op e f hs hlevel hop ht =>
        ⟨.power hs.1 hlevel hop ht.1, Nat.max_le.mpr ⟨hs.2, ht.2⟩⟩
  have hmul : ∀ s e, Grouped (Grouped (operandsWithin lenient bound) Operator.isPower)
      Operator.isMultiplicative s e → Derives lenient .mulDiv s e ∧ e.nesting ≤ bound := by
    intro s e h
    refine h.imp (Q := fun s e => Derives lenient .mulDiv s e ∧ e.nesting ≤ bound) ?_ ?_
    · exact fun s e h => ⟨.ofPower (hpower s e h).1, (hpower s e h).2⟩
    · exact fun s sym t op e f hs hlevel hop ht =>
        ⟨.mulDiv hs.1 hlevel hop (hpower t f ht).1, Nat.max_le.mpr ⟨hs.2, (hpower t f ht).2⟩⟩
  refine h.imp (Q := fun s e => Derives lenient .addSub s e ∧ e.nesting ≤ bound) ?_ ?_
  · exact fun s e h => ⟨.ofMulDiv (hmul s e h).1, (hmul s e h).2⟩
  · exact fun s sym t op e f hs hlevel hop ht =>
      ⟨.addSub hs.1 hlevel hop (hmul t f ht).1, Nat.max_le.mpr ⟨hs.2, (hmul t f ht).2⟩⟩

/-- The operands grouped at a level of the grammar. -/
def groupedAt (lenient : Bool) (bound : Nat) : Level → Operands
  | .addSub => ExpressionOver (operandsWithin lenient bound)
  | .mulDiv =>
    Grouped (Grouped (operandsWithin lenient bound) Operator.isPower) Operator.isMultiplicative
  | .power => Grouped (operandsWithin lenient bound) Operator.isPower
  | .unary => operandsWithin lenient bound
  | .atom => fun s e => Derives lenient .atom s e ∧ e.nesting ≤ bound

theorem Derives.groupedAt {lenient : Bool} {bound : Nat} {l : Level} {s : List Char} {e : Expr}
    (h : Derives lenient l s e) (hbound : e.nesting ≤ bound) :
    groupedAt lenient bound l s e := by
  induction h with
  | ofMulDiv _ ih | ofPower _ ih | ofUnary _ ih => exact .one (ih hbound)
  | addSub _ hlevel hop _ ihs iht | mulDiv _ hlevel hop _ ihs iht | power _ hlevel hop _ ihs iht =>
    obtain ⟨he, hf⟩ := Nat.max_le.mp hbound
    exact .more (ihs he) hlevel hop (iht hf)
  | negative h => exact ⟨.negative h, hbound⟩
  | positive h => exact ⟨.positive h, hbound⟩
  | ofAtom h => exact ⟨.ofAtom h, hbound⟩
  | number hs => exact ⟨.number hs, hbound⟩
  | group h => exact ⟨.group h, hbound⟩
  | openGroup hl h => exact ⟨.openGroup hl h, hbound⟩

/-- What the grammar derives are the expressions over its operands. -/
theorem expressionOver_iff (lenient : Bool) (bound : Nat) (s : List Char) (e : Expr) :
    ExpressionOver (operandsWithin lenient bound) s e ↔
      Derives lenient .addSub s e ∧ e.nesting ≤ bound :=
  ⟨derives_of_expressionOver, fun h => h.1.groupedAt h.2⟩

end Reckoner.Arithmetic
