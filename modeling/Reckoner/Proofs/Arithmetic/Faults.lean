import Reckoner.Proofs.Arithmetic.Beginnings
import Reckoner.Proofs.Arithmetic.Closing

/-!
# The first wrong character

A text that cannot be read to its end is reported with the character that is in the way and its
position.  This is the first character that is wrong: everything before it begins an expression, and
nothing that goes on up to this character does.

* `Expr.fault?` — why reading had to stop in a tree, and `fault?_treeOf` for the tree of a chain.
* `AtOperand`, `AtEnd` — the places where an operand begins, and where one ends.
* `NoOperand`, `StopsIn` — where the reader finds no operand, and how it comes there.
* `Traced`, `Follows` — a reader goes over the text as the pass over its characters does.
* `operand_follows` — the reader of operands does, and with it that of expressions.
* `isLonePoint`, `wrongPosition` — the place of the character that is reported.
* `IsFirstWrong` — what makes a character of a text the first wrong one.
* `evaluateText_unexpected` — the character that is reported is the first wrong one.
-/

namespace Reckoner.Arithmetic

open Reckoner.Text

variable {level : Operator → Bool} {rd : OperandReader} {length : Nat} {st st₁ st₂ : Scan}
  {s t : List Char} {found : Option Char} {position : Nat}

/-! ### Trees that were not read to their end -/

/-- Why reading had to stop, where it first had to. -/
def Expr.fault? : Expr → Option SyntaxError
  | .number _ => none
  | .signed _ e | .group e _ => e.fault?
  | .binary _ e f => e.fault?.or f.fault?
  | .stopped error => some error

/-- Why reading had to stop in the operands of a chain, where it first had to. -/
def chainFault? (rest : List (Operator × Expr)) : Option SyntaxError :=
  rest.findSome? fun x => x.2.fault?

/-- A chain without operands has no fault. -/
@[simp] theorem chainFault?_nil : chainFault? [] = none := rfl

/-- The fault of a chain is that of its first operand, or else one behind it. -/
@[simp] theorem chainFault?_cons (x : Operator × Expr) (rest : List (Operator × Expr)) :
    chainFault? (x :: rest) = x.2.fault?.or (chainFault? rest) := by
  unfold chainFault?
  rw [List.findSome?_cons]
  cases x.2.fault? <;> rfl

/-- Where there is a value, reading did not have to stop. -/
theorem Expr.fault?_of_eval_eq_ok {e : Expr} {x : Float} (h : e.eval = .ok x) :
    e.fault? = none := by
  induction e generalizing x with
  | number => rfl
  | stopped error => cases h
  | group e closed ih => exact ih h
  | signed minus e ih =>
    obtain ⟨y, hy, -⟩ := eval_signed_eq_ok_iff.mp h
    exact ih hy
  | binary op e f ihe ihf =>
    obtain ⟨y, z, hy, hz, -⟩ := eval_binary_eq_ok_iff.mp h
    rw [fault?, ihe hy, ihf hz]
    rfl

/-- An evaluation that ends in a syntax error ends in the first one. -/
theorem Expr.fault?_of_eval_eq_error {e : Expr} {error : SyntaxError}
    (h : e.eval = .error (.syntactic error)) : e.fault? = some error := by
  induction e with
  | number => cases h
  | stopped error' =>
    cases h
    rfl
  | group e closed ih => exact ih h
  | signed minus e ih =>
    cases he : e.eval with
    | error error' =>
      simp only [eval, he, bind, Except.bind, Except.error.injEq] at h
      exact ih (by rw [he, h])
    | ok y => simp [eval, he, bind, Except.bind, pure, Except.pure] at h
  | binary op e f ihe ihf =>
    cases he : e.eval with
    | error error' =>
      simp only [eval, he, bind, Except.bind, Except.error.injEq] at h
      rw [fault?, ihe (by rw [he, h])]
      rfl
    | ok y =>
      rw [fault?, fault?_of_eval_eq_ok he, Option.none_or]
      cases hf : f.eval with
      | error error' =>
        simp only [eval, he, hf, bind, Except.bind, Except.error.injEq] at h
        exact ihf (by rw [hf, h])
      | ok z =>
        -- The operation itself ends in no syntax error.
        simp only [eval, he, hf, bind, Except.bind, applied] at h
        cases hop : op.apply y z <;> simp [hop, Except.mapError] at h

/-- Dividing a chain keeps the order of its operands. -/
theorem fault?_link (level : Operator → Bool) (first : Expr) (rest : List (Operator × Expr)) :
    (link level first rest).1.fault?.or (chainFault? (link level first rest).2) =
      first.fault?.or (chainFault? rest) := by
  induction rest generalizing first with
  | nil => rfl
  | cons x rest ih =>
    obtain ⟨op, e⟩ := x
    by_cases hop : level op = true
    · rw [link, if_pos hop, ih, Expr.fault?, chainFault?_cons, Option.or_assoc]
    · rw [link, if_neg hop]
      simp only [chainFault?_cons]
      rw [ih]

/-- **Reading stopped in the tree of a chain where it first stopped in its operands.** -/
theorem fault?_treeOf (first : Expr) (rest : List (Operator × Expr)) :
    (treeOf first rest).fault? = first.fault?.or (chainFault? rest) := by
  cases hlink₁ : link Operator.isPower first rest with
  | mk first₁ rest₁ =>
    cases hlink₂ : link Operator.isMultiplicative first₁ rest₁ with
    | mk first₂ rest₂ =>
      have h₁ := fault?_link Operator.isPower first rest
      have h₂ := fault?_link Operator.isMultiplicative first₁ rest₁
      have h₃ := fault?_link Operator.isAdditive first₂ rest₂
      -- Nothing is left of the chain when it is divided for the third time.
      rw [hlink₁] at h₁
      rw [hlink₂] at h₂
      rw [snd_link_isAdditive hlink₁ hlink₂, chainFault?_nil, Option.or_none] at h₃
      simp only [treeOf, hlink₁, hlink₂]
      rw [h₃, h₂, h₁]

/-! ### Places in a text -/

/-- A place where an operand begins.  A star there is not the second of two. -/
def AtOperand (st : Scan) (s : List Char) : Prop :=
  ∃ star, st.phase = .operand star ∧ (star = true → ∀ r, s ≠ '*' :: r)

/-- A place where an operand or expression ends that began at another place.  What follows cannot
    continue its last number, and it is refused if a parenthesis was left open. -/
structure AtEnd (st st' : Scan) (s : List Char) : Prop where
  isEnd : st'.phase.isEnd = true
  step_eq : ∀ c r, s = c :: r → st'.step c = Scan.behindOperand st'.opened c
  opened_le : st.opened ≤ st'.opened
  refused : st.opened < st'.opened → operator? s = none ∧ ∀ r, s ≠ ')' :: r

/-- No operand begins here.  What is found instead is looked for behind a lone point. -/
structure NoOperand (s : List Char) (found : Option Char) : Prop where
  not_beginsNested : ¬ BeginsNested s
  literal_eq : (takeLiteral s).1 = [] ∨ (takeLiteral s).1 = ['.']
  found_eq : found = (takeLiteral s).2.head?

/-- In a text is a place where an operand should begin and none does. -/
def StopsIn (length : Nat) (st : Scan) (s : List Char) (found : Option Char) (position : Nat) :
    Prop :=
  ∃ u r st', s = u ++ r ∧ st.pass u = some st' ∧ AtOperand st' r ∧ NoOperand r found ∧
    position = length - r.length

/-- What was read of a text was gone over as the pass over its characters does: up to its end, or to
    the place where no operand is found. -/
structure Traced (length : Nat) (st : Scan) (s : List Char) (result : Expr × List Char) : Prop where
  ends : result.1.fault? = none →
    ∃ u st', s = u ++ result.2 ∧ st.pass u = some st' ∧ AtEnd st st' result.2
  stops : ∀ {found position}, result.1.fault? = some (.unexpected found position) →
    StopsIn length st s found position

/-- A reader goes over every text as the pass over its characters does. -/
def Follows (length : Nat) (rd : OperandReader) : Prop :=
  ∀ {st s}, AtOperand st s → Traced length st s (rd s)

/-- In the beginning an operand is awaited, and no star stands before it. -/
theorem atOperand_start (s : List Char) : AtOperand Scan.start s :=
  ⟨false, rfl, fun h => nomatch h⟩

/-- Behind a sign or an opening parenthesis an operand begins, whatever follows. -/
theorem atOperand_of_phase (opened : Nat) (s : List Char) : AtOperand ⟨.operand false, opened⟩ s :=
  ⟨false, rfl, fun h => nomatch h⟩

/-- Where an operand is awaited, the next character begins one. -/
theorem AtOperand.step_eq {c : Char} (h : AtOperand st (c :: s)) :
    st.step c = Scan.beginOperand st.opened c := by
  obtain ⟨star, hphase, hstar⟩ := h
  unfold Scan.step
  rw [hphase]
  refine if_neg ?_
  rintro ⟨htrue, rfl⟩
  exact hstar htrue s rfl

/-- Where an operand is awaited, no text ends. -/
theorem AtOperand.isEnd_eq_false (h : AtOperand st s) : st.phase.isEnd = false := by
  obtain ⟨star, hphase, -⟩ := h
  rw [hphase]
  rfl

/-- A place in the rest of a text is a place in the text. -/
theorem StopsIn.append (h : StopsIn length st₁ t found position) (hpass : st.pass s = some st₁) :
    StopsIn length st (s ++ t) found position := by
  obtain ⟨u, r, st', rfl, hu, hrest⟩ := h
  refine ⟨s ++ u, r, st', (List.append_assoc s u r).symm, ?_, hrest⟩
  rw [Scan.pass_append_of_eq hpass, hu]

/-- An end may be seen from any place with as many open parentheses. -/
theorem AtEnd.congr (h : AtEnd st₁ st₂ s) (hopened : st₁.opened = st.opened) : AtEnd st st₂ s :=
  ⟨h.isEnd, h.step_eq, hopened ▸ h.opened_le, hopened ▸ h.refused⟩

/-! ### Chains -/

/-- **An operator behind an operand leads to the next operand**, and then nothing was left open. -/
theorem AtEnd.operator (h : AtEnd st st₁ s) {op : Operator} (hop : operator? s = some (op, t)) :
    ∃ sym st₂, s = sym ++ t ∧ st₁.pass sym = some st₂ ∧ st₂.opened = st.opened ∧
      AtOperand st₂ t := by
  obtain ⟨sym, hsym, rfl⟩ := spells_of_operator? hop
  have hopened : st₁.opened = st.opened := by
    by_contra hne
    have hrefused := (h.refused (lt_of_le_of_ne h.opened_le (Ne.symm hne))).1
    rw [hop] at hrefused
    cases hrefused
  refine ⟨sym, _, rfl, hsym.pass_eq h.isEnd, hopened, sym = ['*'], rfl, ?_⟩
  -- Behind a single star no second one follows, since both would have been taken together.
  intro hstar r hr
  rw [of_decide_eq_true hstar, hr] at hop
  have hpair : r = '*' :: r := congrArg Prod.snd (Option.some.inj hop)
  simpa using congrArg List.length hpair

/-- **A chain without a fault is passed**, and behind it the text may end. -/
theorem chain_ends (hrd : Follows length rd) (fuel : Nat) (h : AtEnd st st₁ s)
    (hfault : chainFault? (chain rd fuel s).1 = none) :
    ∃ u st', s = u ++ (chain rd fuel s).2 ∧ st₁.pass u = some st' ∧
      AtEnd st st' (chain rd fuel s).2 := by
  induction fuel generalizing st₁ s with
  | zero => exact ⟨[], st₁, rfl, rfl, h⟩
  | succ fuel ih =>
    cases hop : operator? s with
    | none =>
      rw [chain_of_operator?_eq_none hop]
      exact ⟨[], st₁, rfl, rfl, h⟩
    | some found =>
      obtain ⟨op, t⟩ := found
      obtain ⟨sym, st₂, rfl, hsym, hopened, hoperand⟩ := h.operator hop
      rw [chain, hop] at hfault ⊢
      -- The operator, its operand and the rest of the chain are gone over one after the other.
      obtain ⟨hfirst, hrest⟩ := Option.or_eq_none_iff.mp ((chainFault?_cons ..).symm.trans hfault)
      obtain ⟨u, st₃, hu, hpass, hend⟩ := (hrd hoperand).ends hfirst
      obtain ⟨v, st', hv, hpass', hend'⟩ := ih (hend.congr hopened) hrest
      refine ⟨sym ++ (u ++ v), st', ?_, ?_, hend'⟩
      · show sym ++ t = sym ++ (u ++ v) ++ (chain rd fuel (rd t).2).2
        rw [List.append_assoc, List.append_assoc, ← hv, ← hu]
      · rw [Scan.pass_append_of_eq hsym, Scan.pass_append_of_eq hpass, hpass']

/-- **A chain with a fault is passed up to it**, operand by operand. -/
theorem chain_stops (hrd : Follows length rd) (fuel : Nat) (h : AtEnd st st₁ s)
    (hfault : chainFault? (chain rd fuel s).1 = some (.unexpected found position)) :
    StopsIn length st₁ s found position := by
  induction fuel generalizing st₁ s with
  | zero => cases hfault
  | succ fuel ih =>
    cases hop : operator? s with
    | none =>
      rw [chain_of_operator?_eq_none hop] at hfault
      cases hfault
    | some first =>
      obtain ⟨op, t⟩ := first
      obtain ⟨sym, st₂, rfl, hsym, hopened, hoperand⟩ := h.operator hop
      rw [chain, hop] at hfault
      refine StopsIn.append ?_ hsym
      -- The fault is in the first operand, or that is passed and the fault is behind it.
      obtain hfirst | ⟨hfirst, hrest⟩ :=
        Option.or_eq_some_iff.mp ((chainFault?_cons ..).symm.trans hfault)
      · exact (hrd hoperand).stops hfirst
      · obtain ⟨u, st₃, hu, hpass, hend⟩ := (hrd hoperand).ends hfirst
        rw [hu]
        exact (ih (hend.congr hopened) hrest).append hpass

/-- **A reader of expressions follows the text if its reader of operands does.** -/
theorem expressionWith_follows (hrd : Follows length rd) :
    Follows length (expressionWith rd) := by
  have hfault : ∀ s, (expressionWith rd s).1.fault? =
      (rd s).1.fault?.or (chainFault? (chain rd (rd s).2.length (rd s).2).1) :=
    fun s => fault?_treeOf _ _
  intro st s hoperand
  constructor
  · intro hnone
    rw [hfault, Option.or_eq_none_iff] at hnone
    obtain ⟨u, st₁, hu, hpass, hend⟩ := (hrd hoperand).ends hnone.1
    obtain ⟨v, st', hv, hpass', hend'⟩ := chain_ends hrd _ hend hnone.2
    refine ⟨u ++ v, st', ?_, ?_, hend'⟩
    · show s = u ++ v ++ (chain rd (rd s).2.length (rd s).2).2
      rw [List.append_assoc, ← hv, ← hu]
    · rw [Scan.pass_append_of_eq hpass, hpass']
  · intro found position hsome
    rw [hfault, Option.or_eq_some_iff] at hsome
    -- The fault is in the first operand or in the chain behind it.
    obtain hfirst | ⟨hfirst, hrest⟩ := hsome
    · exact (hrd hoperand).stops hfirst
    · obtain ⟨u, st₁, hu, hpass, hend⟩ := (hrd hoperand).ends hfirst
      rw [hu]
      exact (chain_stops hrd _ hend hrest).append hpass

/-! ### Operands -/

/-- Behind the digits at the head of a text is no digit. -/
theorem isDigit_of_head?_dropWhile {c : Char} (h : (s.dropWhile Char.isDigit).head? = some c) :
    c.isDigit = false := by
  have hhead := List.head?_dropWhile_not Char.isDigit s
  rw [h] at hhead
  exact hhead

/-- What follows the literal that is taken does not continue it. -/
theorem ends_takeLiteral {c : Char} {r : List Char} (h : (takeLiteral s).2 = c :: r) :
    c.isDigit = false ∧ ('.' ∉ (takeLiteral s).1 → c ≠ '.') := by
  unfold takeLiteral at h ⊢
  split at h
  next rest hrest =>
    exact ⟨isDigit_of_head?_dropWhile (congrArg List.head? h),
      fun hpoint => absurd (by simp) hpoint⟩
  next hrest =>
    refine ⟨isDigit_of_head?_dropWhile (congrArg List.head? h), fun _ hc => ?_⟩
    subst hc
    exact hrest r h

/-- A number is read unless there is none. -/
theorem number_cases (length : Nat) (s : List Char) :
    (Numeral (takeLiteral s).1 ∧ number length s = (.number (takeLiteral s).1, (takeLiteral s).2)) ∨
      ((takeLiteral s).1 = [] ∨ (takeLiteral s).1 = ['.']) ∧ number length s =
        (.stopped (.unexpected (takeLiteral s).2.head? (length - s.length)), []) := by
  by_cases hnone : (takeLiteral s).1 = [] ∨ (takeLiteral s).1 = ['.']
  · exact .inr ⟨hnone, by simp [number, hnone]⟩
  · obtain ⟨-, hempty | hpoint | hnumeral⟩ := takeLiteral_sound s
    · exact absurd (.inl hempty) hnone
    · exact absurd (.inr hpoint) hnone
    · exact .inl ⟨hnumeral, by simp [number, hnone]⟩

/-- A number is gone over, and where there is none, no operand is found. -/
theorem number_traced (hnested : ¬ BeginsNested s) (hoperand : AtOperand st s) :
    Traced length st s (number length s) := by
  obtain ⟨hnumeral, hread⟩ | ⟨hnone, hread⟩ := number_cases length s
  · rw [hread]
    constructor
    · intro _
      obtain ⟨star, hphase, -⟩ := hoperand
      obtain ⟨phase, opened⟩ := st
      obtain rfl : phase = .operand star := hphase
      refine ⟨(takeLiteral s).1, _, (takeLiteral_sound s).1, hnumeral.pass_eq star opened,
        isEnd_numberPhase _, fun c r h => ?_, le_refl _, fun h => absurd h (lt_irrefl _)⟩
      -- The phase behind a literal shows whether a point may still follow.
      obtain ⟨hdigit, hpoint⟩ := ends_takeLiteral h
      unfold numberPhase
      split_ifs with hmem
      · simp [Scan.step, hdigit]
      · simp [Scan.step, hdigit, hpoint hmem]
    · intro found position hfault
      cases hfault
  · rw [hread]
    constructor
    · intro hfault
      cases hfault
    · intro found position hfault
      cases hfault
      -- What is no literal stops where it begins.
      exact ⟨[], s, st, rfl, rfl, hoperand, ⟨hnested, hnone, rfl⟩, rfl⟩

/-- An operand with a sign is gone over if what follows the sign is. -/
theorem signed_traced {depth : Nat} (ih : Follows length (operand length depth)) {c : Char}
    (hc : c = '-' ∨ c = '+') {minus : Bool}
    (hread : operand length (depth + 1) (c :: s) =
      (.signed minus (operand length depth s).1, (operand length depth s).2))
    (hoperand : AtOperand st (c :: s)) :
    Traced length st (c :: s) (operand length (depth + 1) (c :: s)) := by
  -- A sign changes nothing but the phase: the operand behind it is still to come.
  have hstep : st.pass [c] = some ⟨.operand false, st.opened⟩ := by
    rw [Scan.pass_singleton, hoperand.step_eq]
    obtain rfl | rfl := hc <;> rfl
  have hrest := ih (atOperand_of_phase st.opened s)
  rw [hread]
  constructor
  · intro hfault
    obtain ⟨u, st', hu, hpass, hend⟩ := hrest.ends hfault
    refine ⟨c :: u, st', congrArg (c :: ·) hu, ?_, hend.congr rfl⟩
    rw [← List.singleton_append, Scan.pass_append_of_eq hstep, hpass]
  · intro found position hfault
    exact (hrest.stops hfault).append hstep

/-- A parenthesis that is left open is no fault. -/
theorem fault?_close (body : Expr) (s : List Char) : (close body s).1.fault? = body.fault? := by
  obtain ⟨r, -, hclose⟩ | hclose := close_cases body s <;> rw [hclose] <;> rfl

/-- An expression in parentheses is gone over if what follows the opening one is. -/
theorem group_traced {depth : Nat} (ih : Follows length (operand length depth))
    (hoperand : AtOperand st ('(' :: s)) :
    Traced length st ('(' :: s) (operand length (depth + 5) ('(' :: s)) := by
  have hstep : st.pass ['('] = some ⟨.operand false, st.opened + 1⟩ := by
    rw [Scan.pass_singleton, hoperand.step_eq]
    rfl
  have hbody := expressionWith_follows ih (atOperand_of_phase (st.opened + 1) s)
  have hop := operator?_snd_expressionWith (operand_shortens length depth) s
  rw [operand_group]
  generalize expressionWith (operand length depth) s = body at hbody hop ⊢
  constructor
  · intro hfault
    rw [fault?_close] at hfault
    obtain ⟨u, st', hu, hpass, hend⟩ := hbody.ends hfault
    have hpass : st.pass ('(' :: u) = some st' := by
      rw [← List.singleton_append, Scan.pass_append_of_eq hstep, hpass]
    obtain ⟨r, hr, hclose⟩ | hclose := close_cases body.1 body.2
    · -- What is closed is the parenthesis itself, since none behind it was left open.
      have hopened : st'.opened = st.opened + 1 := by
        by_contra hne
        exact (hend.refused (lt_of_le_of_ne hend.opened_le (Ne.symm hne))).2 r hr
      have hcloser : st'.step ')' = some ⟨.closed, st.opened⟩ := by
        rw [hend.step_eq ')' r hr, hopened]
        rfl
      rw [hclose]
      refine ⟨'(' :: u ++ [')'], ⟨.closed, st.opened⟩, ?_, ?_, rfl, fun _ _ _ => rfl, le_refl _,
        fun h => absurd h (lt_irrefl _)⟩
      · simp [hu, hr]
      · rw [Scan.pass_append_of_eq hpass, Scan.pass_singleton, hcloser]
    · rw [hclose]
      refine ⟨'(' :: u, st', congrArg ('(' :: ·) hu, hpass, hend.isEnd, hend.step_eq,
        (Nat.le_succ _).trans hend.opened_le, fun _ => ⟨hop, fun r hr => ?_⟩⟩
      -- Otherwise it would have been closed.
      have hr : body.2 = ')' :: r := hr
      rw [hr] at hclose
      cases hclose
  · intro found position hfault
    rw [fault?_close] at hfault
    exact (hbody.stops hfault).append hstep

/-- What is nested too deeply is a fault wherever it begins. -/
theorem fault?_operand_tooDeep (length : Nat) {depth : Nat} {c : Char}
    (h : (c = '-' ∨ c = '+') ∧ depth = 0 ∨ c = '(' ∧ depth < 5) :
    (operand length depth (c :: s)).1.fault? = some .tooDeep := by
  obtain ⟨rfl | rfl, rfl⟩ | ⟨rfl, hdepth⟩ := h
  · rfl
  · rfl
  · rcases depth with _ | _ | _ | _ | _ | depth
    all_goals first | rfl | omega

/-- **The reader of operands follows the text.** -/
theorem operand_follows (length depth : Nat) : Follows length (operand length depth) := by
  -- A sign takes one level and a parenthesis five, so that the levels do not go down one by one.
  induction depth using Nat.strong_induction_on with
  | _ depth ih =>
    intro st s hoperand
    by_cases hnested : BeginsNested s
    · obtain ⟨c, hc, s, rfl⟩ := hnested
      simp only [List.mem_cons, List.not_mem_nil, or_false] at hc
      by_cases hdeep : (c = '-' ∨ c = '+') ∧ depth = 0 ∨ c = '(' ∧ depth < 5
      · -- What is nested too deeply is not read, and another fault is reported.
        have hfault := fault?_operand_tooDeep length (s := s) hdeep
        constructor
        · intro h
          rw [hfault] at h
          cases h
        · intro found position h
          rw [hfault] at h
          cases h
      · obtain rfl | rfl | rfl := hc
        · obtain ⟨depth, rfl⟩ : ∃ d, depth = d + 1 := ⟨depth - 1, by simp at hdeep; omega⟩
          exact signed_traced (ih depth (by omega)) (.inl rfl) (operand_minus ..) hoperand
        · obtain ⟨depth, rfl⟩ : ∃ d, depth = d + 1 := ⟨depth - 1, by simp at hdeep; omega⟩
          exact signed_traced (ih depth (by omega)) (.inr rfl) (operand_plus ..) hoperand
        · obtain ⟨depth, rfl⟩ : ∃ d, depth = d + 5 := ⟨depth - 5, by simp at hdeep; omega⟩
          exact group_traced (ih depth (by omega)) hoperand
    · rw [operand_of_not_beginsNested hnested]
      exact number_traced hnested hoperand

/-! ### What is left over -/

/-- The operators are found wherever they stand. -/
theorem operator?_ne_none {c : Char} (hc : c ∈ ['*', '+', '-', '/', '%', '^']) (r : List Char) :
    operator? (c :: r) ≠ none := by
  simp only [List.mem_cons, List.not_mem_nil, or_false] at hc
  obtain rfl | rfl | rfl | rfl | rfl | rfl := hc
  · by_cases hstar : ∃ t, r = '*' :: t
    · obtain ⟨t, rfl⟩ := hstar
      exact fun h => nomatch h
    · have hfound := Spells.star.operator?_append fun t ht => hstar ⟨t, ht⟩
      rw [List.singleton_append] at hfound
      rw [hfound]
      exact fun h => nomatch h
  all_goals exact fun h => nomatch h

/-- What follows an expression, and is no operator, cannot stand behind it: it closes nothing that
    is open. -/
theorem AtEnd.step_eq_none {c : Char} {r : List Char} (h : AtEnd Scan.start st (c :: r))
    (hop : operator? (c :: r) = none) : st.step c = none := by
  have hmark : c ∉ ['*', '+', '-', '/', '%', '^'] := fun hc => operator?_ne_none hc r hop
  rw [List.mem_cons, not_or] at hmark
  rw [h.step_eq c r rfl]
  unfold Scan.behindOperand
  rw [if_neg hmark.1, if_neg hmark.2, if_neg]
  rintro ⟨rfl, hopened⟩
  exact (h.refused hopened).2 r rfl

/-- Where no operand is found there is no digit. -/
theorem NoOperand.isDigit_eq_false {c : Char} {r : List Char} (h : NoOperand (c :: r) found) :
    c.isDigit = false := by
  by_contra hdigit
  rw [Bool.not_eq_false] at hdigit
  have hmem : c ∈ (takeLiteral (c :: r)).1 := by
    unfold takeLiteral
    rw [List.takeWhile_cons_of_pos hdigit]
    split <;> simp
  obtain hnil | hpoint := h.literal_eq
  · rw [hnil] at hmem
    cases hmem
  · rw [hpoint, List.mem_singleton] at hmem
    subst hmem
    cases hdigit

/-- Where no operand is found but a point, no digit follows it, and what follows it is reported. -/
theorem NoOperand.lone_point {r : List Char} (h : NoOperand ('.' :: r) found) :
    found = r.head? ∧ ∀ d, r.head? = some d → d.isDigit = false := by
  have hliteral := h.literal_eq
  have hfound := h.found_eq
  have htake : takeLiteral ('.' :: r) =
      ('.' :: r.takeWhile Char.isDigit, r.dropWhile Char.isDigit) := rfl
  rw [htake] at hliteral hfound
  have hnone : r.takeWhile Char.isDigit = [] := by simpa using hliteral
  have hrest : r.dropWhile Char.isDigit = r := by
    have hsplit := List.takeWhile_append_dropWhile (p := Char.isDigit) (l := r)
    rwa [hnone, List.nil_append] at hsplit
  rw [hrest] at hfound
  exact ⟨hfound, fun d hd => isDigit_of_head?_dropWhile (hrest.symm ▸ hd)⟩

/-- Where no operand is found and no point, the first character is reported, and no operand begins
    with it. -/
theorem NoOperand.beginOperand_eq_none {c : Char} {r : List Char} (h : NoOperand (c :: r) found)
    (hpoint : c ≠ '.') (opened : Nat) : found = some c ∧ Scan.beginOperand opened c = none := by
  have hdigit := h.isDigit_eq_false
  have hsign : ∀ d ∈ ['-', '+', '('], c ≠ d := by
    rintro d hd rfl
    exact h.not_beginsNested ⟨c, hd, r, rfl⟩
  constructor
  · rw [h.found_eq]
    unfold takeLiteral
    simp [hdigit, hpoint]
  · simp [Scan.beginOperand, hdigit, hpoint, hsign '-' (by decide), hsign '+' (by decide),
      hsign '(' (by decide)]

/-- **Where no operand is found, the pass over the text does not go on either**: at this character,
    or behind the lone point that begins here. -/
theorem NoOperand.step_eq_none {c : Char} {r : List Char} (h : NoOperand (c :: r) found)
    (hoperand : AtOperand st (c :: r)) :
    c ≠ '.' ∧ found = some c ∧ st.step c = none ∨
      c = '.' ∧ found = r.head? ∧ st.step c = some ⟨.point, st.opened⟩ ∧
        ∀ d, r.head? = some d → d.isDigit = false := by
  rw [hoperand.step_eq]
  by_cases hpoint : c = '.'
  · subst hpoint
    obtain ⟨hfound, hdigit⟩ := h.lone_point
    exact .inr ⟨rfl, hfound, rfl, hdigit⟩
  · exact .inl ⟨hpoint, h.beginOperand_eq_none hpoint st.opened⟩

/-! ### Texts -/

/-- Where reading a text ends in a syntax error at a character: either no operand is found there, or
    the text is read up to this character and it is left over. -/
theorem evaluateDense_unexpected
    (h : evaluateDense s = .error (.syntactic (.unexpected found position))) :
    StopsIn s.length Scan.start s found position ∨
      ∃ u c r st', s = u ++ c :: r ∧ Scan.start.pass u = some st' ∧ st'.phase.isEnd = true ∧
        st'.step c = none ∧ found = some c ∧ position = u.length := by
  have htraced : Traced s.length Scan.start s (expression s) :=
    expressionWith_follows (operand_follows s.length depthLimit) (atOperand_start s)
  have hop : operator? (expression s).2 = none :=
    operator?_snd_expressionWith (operand_shortens s.length depthLimit) s
  unfold evaluateDense at h
  generalize expression s = result at h htraced hop
  obtain ⟨e, rest⟩ := result
  -- The value comes before what is left over.
  cases heval : e.eval with
  | error error =>
    simp only [heval, bind, Except.bind, Except.error.injEq] at h
    subst h
    exact .inl (htraced.stops (Expr.fault?_of_eval_eq_error heval))
  | ok x =>
    obtain ⟨u, st', hu, hpass, hend⟩ := htraced.ends (Expr.fault?_of_eval_eq_ok heval)
    cases rest with
    | nil => simp [heval, bind, Except.bind, pure, Except.pure] at h
    | cons c r =>
      simp only [heval, bind, Except.bind, throw, throwThe, MonadExceptOf.throw,
        Except.error.injEq, EvalError.syntactic.injEq, SyntaxError.unexpected.injEq] at h
      obtain ⟨rfl, rfl⟩ := h
      refine .inr ⟨u, c, r, st', hu, hpass, hend.isEnd, hend.step_eq_none hop, rfl, ?_⟩
      rw [hu]
      simp

/-! ### The first wrong character -/

/-- Whether an operand has to begin behind a text: it is empty, or it ends with an operator, a sign
    or an opening parenthesis. -/
def wantsOperand (s : List Char) : Bool :=
  s.getLast?.all (· ∈ ['+', '-', '*', '/', '%', '^', '('])

/-- Whether a point that begins a number without digits stands at a position of a text. -/
def isLonePoint (s : List Char) (position : Nat) : Bool :=
  s[position]? = some '.' ∧ wantsOperand (s.take position) ∧ !s[position + 1]?.any Char.isDigit

/-- The place of the character that is reported for a position: behind a lone point, or at the
    position itself. -/
def wrongPosition (s : List Char) (position : Nat) : Nat :=
  if isLonePoint s position then position + 1 else position

/-- What is found at a position is the first wrong character of a text, or it is the end of a text
    that is not finished. -/
structure IsFirstWrong (s : List Char) (found : Option Char) (position : Nat) : Prop where
  /-- The text before the position can be continued. -/
  before : ∃ u, Accepted (s.take position ++ u)
  /-- This is the character that is found, or the end of the text. -/
  found_eq : s[wrongPosition s position]? = found
  /-- The text up to this character cannot be continued. -/
  wrong : ∀ c, found = some c → ∀ u, ¬ Accepted (s.take (wrongPosition s position + 1) ++ u)
  /-- At the end of the text something is missing. -/
  missing : found = none → wrongPosition s position = s.length ∧ ¬ Accepted s

/-- An operand has to begin behind the characters that say so, and behind no others. -/
theorem Scan.step_wantsOperand {st st' : Scan} {c : Char} (h : st.step c = some st') :
    wantsOperand [c] = true ↔ ∃ star, st'.phase = .operand star := by
  have hdigit : c.isDigit = true → wantsOperand [c] = false := by
    intro hc
    simp only [wantsOperand, List.getLast?_singleton, Option.all_some, decide_eq_false_iff_not,
      List.mem_cons, List.not_mem_nil, or_false]
    rintro (rfl | rfl | rfl | rfl | rfl | rfl | rfl) <;> cases hc
  obtain ⟨phase, opened⟩ := st
  cases phase <;> simp only [step, beginOperand, behindOperand] at h <;> split_ifs at h <;>
    cases h <;> simp_all [wantsOperand] <;> tauto

/-- Behind what was passed over an operand has to begin if that is what is remembered. -/
theorem wantsOperand_iff (h : Scan.start.pass s = some st) :
    wantsOperand s = true ↔ ∃ star, st.phase = .operand star := by
  induction s using List.reverseRecOn with
  | nil =>
    obtain rfl := Option.some.inj h
    exact iff_of_true rfl ⟨false, rfl⟩
  | append_singleton s c _ =>
    rw [Scan.pass_append, Option.bind_eq_some_iff] at h
    obtain ⟨st₁, -, hstep⟩ := h
    rw [Scan.pass_singleton] at hstep
    rw [← Scan.step_wantsOperand hstep]
    simp [wantsOperand]

/-- A character where the pass over the text does not go on is the first wrong one. -/
theorem isFirstWrong_of_step {u r : List Char} {c : Char} (hs : s = u ++ c :: r)
    (hpass : Scan.start.pass u = some st) (hstep : st.step c = none)
    (hposition : wrongPosition s position = u.length)
    (hbefore : ∃ v, Accepted (s.take position ++ v)) : IsFirstWrong s (some c) position := by
  have htake : s.take (u.length + 1) = u ++ [c] := by
    rw [hs, List.take_append]
    simp
  have hstuck : Scan.start.pass (u ++ [c]) = none := by
    rw [Scan.pass_append_of_eq hpass, Scan.pass_singleton, hstep]
  refine ⟨hbefore, ?_, fun _ _ v hv => ?_, fun h => nomatch h⟩
  · rw [hposition, hs]
    simp
  · rw [hposition, htake] at hv
    obtain ⟨st', hst'⟩ := exists_accepted_append_iff.mp ⟨v, hv⟩
    rw [hstuck] at hst'
    cases hst'

/-- A text whose end is no end of an operand is not finished. -/
theorem isFirstWrong_of_end (hpass : Scan.start.pass s = some st) (hend : st.phase.isEnd = false)
    (hposition : wrongPosition s position = s.length)
    (hbefore : ∃ v, Accepted (s.take position ++ v)) : IsFirstWrong s none position := by
  refine ⟨hbefore, by simp [hposition], fun _ h => (nomatch h), fun _ => ⟨hposition, fun h => ?_⟩⟩
  obtain ⟨st', hpass', hend'⟩ := accepted_iff_pass.mp h
  obtain rfl := Option.some.inj (hpass.symm.trans hpass')
  rw [hend] at hend'
  cases hend'

/-- Where no operand is found, the first wrong character is. -/
theorem StopsIn.isFirstWrong (h : StopsIn s.length Scan.start s found position) :
    IsFirstWrong s found position := by
  obtain ⟨u, r, st', rfl, hpass, hoperand, hnone, rfl⟩ := h
  have hposition : (u ++ r).length - r.length = u.length := by simp
  have hwants : wantsOperand u = true := by
    obtain ⟨star, hphase, -⟩ := hoperand
    exact (wantsOperand_iff hpass).mpr ⟨star, hphase⟩
  have hbefore : ∃ v, Accepted ((u ++ r).take u.length ++ v) := by
    rw [List.take_left']
    exact exists_accepted_append_iff.mpr ⟨st', hpass⟩
    rfl
  rw [hposition]
  cases r with
  | nil =>
    obtain rfl : found = none := hnone.found_eq
    rw [List.append_nil] at hbefore ⊢
    refine isFirstWrong_of_end hpass hoperand.isEnd_eq_false ?_ hbefore
    simp [wrongPosition, isLonePoint]
  | cons c r =>
    obtain ⟨hpoint, rfl, hstep⟩ | ⟨rfl, rfl, hstep, hdigit⟩ := hnone.step_eq_none hoperand
    · refine isFirstWrong_of_step rfl hpass hstep ?_ hbefore
      simp [wrongPosition, isLonePoint, hpoint]
    · -- What is reported stands behind the lone point.
      have hpass : Scan.start.pass (u ++ ['.']) = some ⟨.point, st'.opened⟩ := by
        rw [Scan.pass_append_of_eq hpass, Scan.pass_singleton, hstep]
      have hlone : wrongPosition (u ++ '.' :: r) u.length = u.length + 1 := by
        have hnext : (u ++ '.' :: r)[u.length + 1]? = r.head? := by
          rw [List.getElem?_append_right (by omega)]
          simp [List.head?_eq_getElem?]
        have hnodigit : r.head?.any Char.isDigit = false := by
          cases hr : r.head? with
          | none => rfl
          | some d => exact hdigit d hr
        simp [wrongPosition, isLonePoint, hwants, hnext, hnodigit]
      cases r with
      | nil =>
        refine isFirstWrong_of_end hpass rfl ?_ hbefore
        simpa using hlone
      | cons d r =>
        have hstuck : (Scan.mk .point st'.opened).step d = none := by
          simp [Scan.step, hdigit d rfl]
        refine isFirstWrong_of_step (r := r) (by simp) hpass hstuck ?_ hbefore
        simpa using hlone

/-- **The character that is reported is the first wrong one.** Where reading a text ends in a syntax
    error at a character, the text before the position can be continued so that it is accepted, and
    up to the character it cannot.  Where the end of the text is reported, something is missing
    there.  Blanks do not count. -/
theorem evaluateText_unexpected {text : String}
    (h : evaluateText text = .error (.syntactic (.unexpected found position))) :
    IsFirstWrong (dropBlanks text.toList) found position := by
  obtain hstops | ⟨u, c, r, st', hs, hpass, hend, hstep, rfl, rfl⟩ := evaluateDense_unexpected h
  · exact hstops.isFirstWrong
  · -- Behind an operand a point is no lone one.
    have hwants : wantsOperand u = false := by
      rw [Bool.eq_false_iff, Ne, wantsOperand_iff hpass]
      rintro ⟨star, hphase⟩
      rw [hphase] at hend
      cases hend
    refine isFirstWrong_of_step hs hpass hstep ?_ ?_
    · rw [hs]
      simp [wrongPosition, isLonePoint, hwants]
    · rw [hs, List.take_left' rfl]
      exact exists_accepted_append_iff.mpr ⟨st', hpass⟩

/-- Behind a lone point in parentheses the closing one is wrong, and the number before the point
    could be continued. -/
theorem evaluateText_lone_point :
    evaluateText "(1 + .) * 2" = .error (.syntactic (.unexpected (some ')') 3)) ∧
      IsFirstWrong ['(', '1', '+', '.', ')', '*', '2'] (some ')') 3 := by
  have herror : evaluateText "(1 + .) * 2" =
      .error (.syntactic (.unexpected (some ')') 3)) := rfl
  exact ⟨herror, evaluateText_unexpected herror⟩

end Reckoner.Arithmetic
