import Reckoner.Proofs.Arithmetic.Chain

/-!
# Beginnings of expressions

Whether a text is an expression, or at least the beginning of one, can be told from a single pass
over its characters.  The pass remembers what was read last and how many parentheses are open, and
it stops at the first character that no expression has at its place.

* `Accepted` — the text is an expression once its open parentheses are closed.
* `Phase`, `Scan` — what the pass remembers.
* `Scan.step`, `Scan.pass` — the pass over one character, and over a text.
* `Derives.pass_eq` — the pass goes over every expression.
* `Complete`, `Awaiting`, `Opened` — expressions, and texts that wait for an operand or for closing
  parentheses.
* `Passed.step`, `passed_over` — what the text that was passed over is.
* `accepted_iff_pass` — the accepted texts are those where the pass comes to an end of an operand.
* `exists_accepted_append_iff` — the beginnings of accepted texts are those that are passed over.
-/

namespace Reckoner.Arithmetic

/-- A text that is an expression, or that becomes one when closing parentheses are put behind it. -/
def Accepted (s : List Char) : Prop :=
  ∃ k e, Derives false .addSub (s ++ List.replicate k ')') e

/-! ### The pass over a text -/

/-- What was read last, as far as it decides what may follow. -/
inductive Phase where
  /-- Nothing, an operator, a sign or an opening parenthesis: an operand has to begin.  A star may
      also be the first of two. -/
  | operand (star : Bool)
  /-- A number without a point. -/
  | whole
  /-- A point without a digit before it. -/
  | point
  /-- A number with a point. -/
  | fraction
  /-- A closing parenthesis. -/
  | closed
deriving DecidableEq

/-- Whether an operand ends here. -/
def Phase.isEnd : Phase → Bool
  | .operand _ | .point => false
  | .whole | .fraction | .closed => true

/-- What the pass over a text remembers. -/
structure Scan where
  phase : Phase
  /-- How many parentheses are open. -/
  opened : Nat
deriving DecidableEq

namespace Scan

/-- What is remembered before the first character. -/
def start : Scan := ⟨.operand false, 0⟩

/-- The first character of an operand. -/
def beginOperand (opened : Nat) (c : Char) : Option Scan :=
  if c.isDigit then some ⟨.whole, opened⟩
  else if c = '.' then some ⟨.point, opened⟩
  else if c = '-' ∨ c = '+' then some ⟨.operand false, opened⟩
  else if c = '(' then some ⟨.operand false, opened + 1⟩
  else none

/-- A character behind an operand. -/
def behindOperand (opened : Nat) (c : Char) : Option Scan :=
  if c = '*' then some ⟨.operand true, opened⟩
  else if c ∈ ['+', '-', '/', '%', '^'] then some ⟨.operand false, opened⟩
  else if c = ')' ∧ 0 < opened then some ⟨.closed, opened - 1⟩
  else none

/-- The pass over one character, unless it cannot stand here. -/
def step (st : Scan) (c : Char) : Option Scan :=
  match st.phase with
  | .operand star =>
    if star = true ∧ c = '*' then some ⟨.operand false, st.opened⟩
    else beginOperand st.opened c
  | .whole =>
    if c.isDigit then some st
    else if c = '.' then some ⟨.fraction, st.opened⟩
    else behindOperand st.opened c
  | .point => if c.isDigit then some ⟨.fraction, st.opened⟩ else none
  | .fraction => if c.isDigit then some st else behindOperand st.opened c
  | .closed => behindOperand st.opened c

/-- The pass over a text, unless it has a character that cannot stand at its place. -/
def pass (st : Scan) : List Char → Option Scan
  | [] => some st
  | c :: s => (st.step c).bind (·.pass s)

/-- Nothing is passed in one step. -/
@[simp] theorem pass_nil (st : Scan) : st.pass [] = some st := rfl

/-- A text is passed character by character. -/
theorem pass_cons (st : Scan) (c : Char) (s : List Char) :
    st.pass (c :: s) = (st.step c).bind (·.pass s) := rfl

/-- A single character is passed in a single step. -/
@[simp] theorem pass_singleton (st : Scan) (c : Char) : st.pass [c] = st.step c := by
  cases h : st.step c <;> simp [pass_cons, h]

/-- What passes two texts passes one after the other. -/
theorem pass_append (st : Scan) (s t : List Char) :
    st.pass (s ++ t) = (st.pass s).bind (·.pass t) := by
  induction s generalizing st with
  | nil => rfl
  | cons c s ih =>
    rw [List.cons_append, pass_cons, pass_cons]
    cases st.step c with
    | none => rfl
    | some st' => exact ih st'

/-- Where the first text has been passed, the second one decides. -/
theorem pass_append_of_eq {st st' : Scan} {s : List Char} (h : st.pass s = some st')
    (t : List Char) : st.pass (s ++ t) = st'.pass t := by
  rw [pass_append, h, Option.bind_some]

/-- Behind an operand, what does not belong to a number ends it. -/
theorem step_of_isEnd {st : Scan} (hend : st.phase.isEnd = true) {c : Char}
    (hdigit : c.isDigit = false) (hpoint : c ≠ '.') : st.step c = behindOperand st.opened c := by
  obtain ⟨phase, opened⟩ := st
  cases phase with
  | operand | point => cases hend
  | whole | fraction | closed => simp [step, hdigit, hpoint]

/-- A closing parenthesis stands behind an operand. -/
theorem isEnd_of_step_closer {st st' : Scan} (h : st.step ')' = some st') :
    st.phase.isEnd = true := by
  obtain ⟨phase, opened⟩ := st
  cases phase with
  | operand | point => simp [step, beginOperand] at h
  | whole | fraction | closed => rfl

end Scan

/-! ### Expressions are passed over -/

/-- Digits change nothing where digits may stand already. -/
theorem AllDigits.pass_eq {s : List Char} (h : AllDigits s) {st : Scan}
    (hphase : st.phase = .whole ∨ st.phase = .fraction) : st.pass s = some st := by
  induction s with
  | nil => rfl
  | cons c s ih =>
    obtain ⟨hc, hs⟩ := List.forall_mem_cons.mp h
    have hstep : st.step c = some st := by
      unfold Scan.step
      obtain hphase | hphase := hphase <;> simp [hphase, hc]
    rw [Scan.pass_cons, hstep]
    exact ih hs

/-- The first of the digits of a number. -/
theorem Scan.step_digit {star : Bool} {opened : Nat} {c : Char} (h : c.isDigit = true) :
    (Scan.mk (.operand star) opened).step c = some ⟨.whole, opened⟩ := by
  have hstar : c ≠ '*' := by
    rintro rfl
    exact absurd h (by decide)
  simp [step, beginOperand, h, hstar]

/-- The digits of a number, where there is one at least. -/
theorem AllDigits.pass_operand {s : List Char} (h : AllDigits s) (hne : s ≠ []) (star : Bool)
    (opened : Nat) : Scan.pass ⟨.operand star, opened⟩ s = some ⟨.whole, opened⟩ := by
  obtain ⟨c, s, rfl⟩ := List.exists_cons_of_ne_nil hne
  obtain ⟨hc, hs⟩ := List.forall_mem_cons.mp h
  rw [Scan.pass_cons, Scan.step_digit hc]
  exact AllDigits.pass_eq hs (.inl rfl)

/-- What is read last of a number. -/
def numberPhase (s : List Char) : Phase := if '.' ∈ s then .fraction else .whole

/-- An operand may end where a literal does. -/
theorem isEnd_numberPhase (s : List Char) : (numberPhase s).isEnd = true := by
  unfold numberPhase
  split_ifs <;> rfl

/-- **A number is passed over.** -/
theorem Numeral.pass_eq {s : List Char} (h : Numeral s) (star : Bool) (opened : Nat) :
    Scan.pass ⟨.operand star, opened⟩ s = some ⟨numberPhase s, opened⟩ := by
  cases h with
  | whole hs hne =>
    have hpoint : '.' ∉ s := fun hmem => absurd (hs '.' hmem) (by decide)
    rw [numberPhase, if_neg hpoint]
    exact hs.pass_operand hne star opened
  | @pointed s t hs ht hne =>
    rw [numberPhase, if_pos (by simp)]
    by_cases hnil : s = []
    · -- The point comes first, and then a digit has to follow.
      subst hnil
      obtain ⟨c, t, rfl⟩ := List.exists_cons_of_ne_nil (hne.resolve_left (not_not_intro rfl))
      obtain ⟨hc, ht⟩ := List.forall_mem_cons.mp ht
      have hpoint : (Scan.mk (.operand star) opened).step '.' = some ⟨.point, opened⟩ := by
        simp [Scan.step, Scan.beginOperand]
      have hdigit : (Scan.mk .point opened).step c = some ⟨.fraction, opened⟩ := by
        simp [Scan.step, hc]
      rw [List.nil_append, Scan.pass_cons, hpoint, Option.bind_some, Scan.pass_cons, hdigit]
      exact AllDigits.pass_eq ht (.inr rfl)
    · rw [Scan.pass_append_of_eq (hs.pass_operand hnil star opened)]
      exact AllDigits.pass_eq ht (.inr rfl)

/-- **An operator is passed over** behind an operand. -/
theorem Spells.pass_eq {op : Operator} {sym : List Char} (h : Spells op sym) {st : Scan}
    (hend : st.phase.isEnd = true) :
    st.pass sym = some ⟨.operand (sym = ['*']), st.opened⟩ := by
  have hfirst : ∀ c : Char, c.isDigit = false → c ≠ '.' →
      st.step c = Scan.behindOperand st.opened c := fun c => Scan.step_of_isEnd hend
  cases h with
  | stars =>
    rw [Scan.pass_cons, hfirst '*' rfl (by decide)]
    rfl
  | plus | minus | star | slash | percent | caret =>
    rw [Scan.pass_singleton, hfirst _ rfl (by decide)]
    rfl

/-- **Every expression is passed over**, and behind it no parenthesis of its own is open. -/
theorem Derives.pass_eq {l : Level} {s : List Char} {e : Expr} (h : Derives false l s e)
    (star : Bool) (opened : Nat) :
    ∃ phase, phase.isEnd = true ∧
      Scan.pass ⟨.operand star, opened⟩ s = some ⟨phase, opened⟩ := by
  induction h generalizing star opened with
  | ofMulDiv _ ih | ofPower _ ih | ofUnary _ ih | ofAtom _ ih => exact ih star opened
  | @addSub s sym t _ _ _ _ _ hop _ ihs iht | @mulDiv s sym t _ _ _ _ _ hop _ ihs iht
  | @power s sym t _ _ _ _ _ hop _ ihs iht =>
    obtain ⟨phase, hend, hs⟩ := ihs star opened
    obtain ⟨phase', hend', ht⟩ := iht (sym = ['*']) opened
    -- The operand behind the operator is read as if it came first, with a star in front of it or
    -- not.
    refine ⟨phase', hend', ?_⟩
    rw [Scan.pass_append_of_eq hs, Scan.pass_append_of_eq (hop.pass_eq hend)]
    exact ht
  | negative _ ih | positive _ ih =>
    obtain ⟨phase, hend, hs⟩ := ih false opened
    refine ⟨phase, hend, ?_⟩
    rw [Scan.pass_cons, ← hs]
    simp [Scan.step, Scan.beginOperand]
  | @number s hs => exact ⟨_, isEnd_numberPhase s, hs.pass_eq star opened⟩
  | @group s e _ ih =>
    obtain ⟨phase, hend, hs⟩ := ih false (opened + 1)
    refine ⟨.closed, rfl, ?_⟩
    have hopen : (Scan.mk (.operand star) opened).step '(' = some ⟨.operand false, opened + 1⟩ := by
      simp [Scan.step, Scan.beginOperand]
    rw [Scan.pass_cons, hopen, Option.bind_some, Scan.pass_append_of_eq hs, Scan.pass_singleton,
      Scan.step_of_isEnd hend rfl (by decide)]
    simp [Scan.behindOperand]
  | openGroup hl => cases hl

/-- An accepted text is passed over up to the end of an operand. -/
theorem Accepted.pass_eq {s : List Char} (h : Accepted s) :
    ∃ st, Scan.start.pass s = some st ∧ st.phase.isEnd = true := by
  obtain ⟨k, e, hderives⟩ := h
  obtain ⟨phase, hend, hpass⟩ := hderives.pass_eq false 0
  rw [Scan.pass_append, Option.bind_eq_some_iff] at hpass
  obtain ⟨st, hst, hclosers⟩ := hpass
  refine ⟨st, hst, ?_⟩
  -- Where parentheses have to be closed, the first closing one stands behind an operand.
  cases k with
  | zero =>
    obtain rfl := Option.some.inj hclosers
    exact hend
  | succ k =>
    rw [List.replicate_succ, Scan.pass_cons, Option.bind_eq_some_iff] at hclosers
    obtain ⟨st', hstep, -⟩ := hclosers
    exact Scan.isEnd_of_step_closer hstep

/-! ### What is passed over begins an expression -/

/-- A text that is an expression. -/
def Complete (s : List Char) : Prop := ∃ e, Derives false .addSub s e

/-- A text that becomes an expression with any operand behind it. -/
def Awaiting (s : List Char) : Prop := ∀ t e, Derives false .unary t e → Complete (s ++ t)

/-- A text with a number of opening parentheses in it, each of them where an operand may begin. -/
inductive Opened : Nat → List Char → Prop where
  | nil : Opened 0 []
  | paren {n : Nat} {s t : List Char} : Opened n s → Awaiting t → Opened (n + 1) (s ++ t ++ ['('])

/-- In the beginning an operand is awaited. -/
theorem awaiting_nil : Awaiting [] :=
  fun _ _ ht => ⟨_, .ofMulDiv (.ofPower (.ofUnary ht))⟩

/-- The signs before an operand belong to it. -/
theorem Awaiting.sign {s : List Char} (h : Awaiting s) {c : Char} (hc : c = '-' ∨ c = '+') :
    Awaiting (s ++ [c]) := by
  intro t e ht
  rw [List.append_assoc, List.singleton_append]
  obtain rfl | rfl := hc
  · exact h ('-' :: t) _ (.negative ht)
  · exact h ('+' :: t) _ (.positive ht)

/-- An operand that is awaited makes the text complete. -/
theorem Awaiting.atom {s : List Char} (h : Awaiting s) {t : List Char} {e : Expr}
    (ht : Derives false .atom t e) : Complete (s ++ t) :=
  h t e (.ofAtom ht)

/-- So does a literal. -/
theorem Awaiting.numeral {s t : List Char} (h : Awaiting s) (ht : Numeral t) : Complete (s ++ t) :=
  h.atom (.number ht)

/-- **Behind an expression, any operator waits for an operand**, however tight it binds. -/
theorem Complete.operator {s : List Char} (h : Complete s) {op : Operator} {sym : List Char}
    (hop : Spells op sym) : Awaiting (s ++ sym) := by
  obtain ⟨e, he⟩ := h
  intro t f ht
  -- The operand is put behind the chain of operands, and the chain is divided anew.
  obtain ⟨s₀, first, rest, u, rfl, hfirst, hrest, -⟩ :=
    ((expressionOver_iff false (max e.nesting f.nesting) s e).mpr
      ⟨he, Nat.le_max_left ..⟩).exists_chain
  have hlast : Spelled (operandsWithin false (max e.nesting f.nesting)) [(op, f)] (sym ++ t) := by
    simpa using Spelled.cons hop ⟨ht, Nat.le_max_right e.nesting f.nesting⟩ .nil
  have hpass := expressionOver_treeOf hfirst (hrest.append hlast)
  exact ⟨_, by simpa using (derives_of_expressionOver hpass).1⟩

/-- **Everything that is open can be closed** behind an expression. -/
theorem Opened.complete {n : Nat} {s : List Char} (h : Opened n s) {t : List Char}
    (ht : Complete t) : Complete (s ++ t ++ List.replicate n ')') := by
  induction h generalizing t with
  | nil => simpa using ht
  | @paren n s u _ hu ih =>
    -- The last parenthesis is closed first.
    obtain ⟨e, he⟩ := ht
    have hgroup : Complete (u ++ ('(' :: (t ++ [')']))) := hu.atom (.group he)
    simpa [List.replicate_succ] using ih hgroup

/-- What the text behind the last open parenthesis is, by what was read last. -/
def Phase.Describes : Phase → List Char → Prop
  | .operand star, s => Awaiting s ∧ (star = true → ∃ t, s = t ++ ['*'] ∧ Complete t)
  | .whole, s => ∃ t ds, s = t ++ ds ∧ Awaiting t ∧ AllDigits ds ∧ ds ≠ []
  | .point, s => ∃ t, s = t ++ ['.'] ∧ Awaiting t
  | .fraction, s => ∃ t ds fs, s = t ++ (ds ++ '.' :: fs) ∧ Awaiting t ∧ AllDigits ds ∧
      AllDigits fs ∧ (ds ≠ [] ∨ fs ≠ [])
  | .closed, s => Complete s

/-- What a text is that was passed over. -/
def Passed (s : List Char) (st : Scan) : Prop :=
  ∃ t u, s = t ++ u ∧ Opened st.opened t ∧ st.phase.Describes u

/-- At the end of an operand there is an expression. -/
theorem Phase.Describes.complete {phase : Phase} {s : List Char} (h : phase.Describes s)
    (hend : phase.isEnd = true) : Complete s := by
  cases phase with
  | operand | point => cases hend
  | whole =>
    obtain ⟨t, ds, rfl, ht, hds, hne⟩ := h
    exact ht.numeral (.whole hds hne)
  | fraction =>
    obtain ⟨t, ds, fs, rfl, ht, hds, hfs, hne⟩ := h
    exact ht.numeral (.pointed hds hfs hne)
  | closed => exact h

/-- The state before the first character stands for nothing. -/
theorem passed_start : Passed [] Scan.start :=
  ⟨[], [], rfl, .nil, awaiting_nil, fun h => nomatch h⟩

/-- The first character of an operand keeps the description. -/
theorem passed_beginOperand {t u : List Char} {opened : Nat} {c : Char} {st : Scan}
    (ht : Opened opened t) (hu : Awaiting u) (h : Scan.beginOperand opened c = some st) :
    Passed (t ++ u ++ [c]) st := by
  unfold Scan.beginOperand at h
  split_ifs at h with hdigit hpoint hsign hparen <;> cases h
  · exact ⟨t, u ++ [c], by simp, ht, u, [c], rfl, hu, List.forall_mem_singleton.mpr hdigit,
      List.cons_ne_nil _ _⟩
  · exact ⟨t, u ++ [c], by simp, ht, u, by rw [hpoint], hu⟩
  · exact ⟨t, u ++ [c], by simp, ht, hu.sign hsign, fun h => nomatch h⟩
  · exact ⟨t ++ u ++ ['('], [], by simp [hparen], .paren ht hu, awaiting_nil,
      fun h => nomatch h⟩

/-- A character behind an operand keeps the description. -/
theorem passed_behindOperand {t u : List Char} {opened : Nat} {c : Char} {st : Scan}
    (ht : Opened opened t) (hu : Complete u) (h : Scan.behindOperand opened c = some st) :
    Passed (t ++ u ++ [c]) st := by
  unfold Scan.behindOperand at h
  split_ifs at h with hstar hop hcloser <;> cases h
  · exact ⟨t, u ++ [c], by simp, ht, hstar ▸ hu.operator .star,
      fun _ => ⟨u, by rw [hstar], hu⟩⟩
  · refine ⟨t, u ++ [c], by simp, ht, ?_, fun h => nomatch h⟩
    simp only [List.mem_cons, List.not_mem_nil, or_false] at hop
    obtain rfl | rfl | rfl | rfl | rfl := hop
    · exact hu.operator .plus
    · exact hu.operator .minus
    · exact hu.operator .slash
    · exact hu.operator .percent
    · exact hu.operator .caret
  · -- The parenthesis closes the last one that is open.
    obtain ⟨rfl, hpos⟩ := hcloser
    obtain ⟨e, he⟩ := hu
    cases ht with
    | nil => cases hpos
    | @paren n s v hs hv =>
      exact ⟨s, v ++ ('(' :: (u ++ [')'])), by simp, hs, hv.atom (.group he)⟩

/-- **One more character** keeps the description. -/
theorem Passed.step {s : List Char} {st st' : Scan} {c : Char} (h : Passed s st)
    (hstep : st.step c = some st') : Passed (s ++ [c]) st' := by
  obtain ⟨t, u, rfl, ht, hu⟩ := h
  obtain ⟨phase, opened⟩ := st
  unfold Scan.step at hstep
  -- Only what is behind the last open parenthesis grows, unless a parenthesis is opened or closed.
  cases phase with
  | operand star =>
    dsimp only at hstep
    split_ifs at hstep with hstars
    · -- The second of two stars.
      cases hstep
      obtain ⟨v, rfl, hv⟩ := hu.2 hstars.1
      refine ⟨t, v ++ ['*', '*'], by simp [hstars.2], ht, hv.operator .stars, fun h => nomatch h⟩
    · exact passed_beginOperand ht hu.1 hstep
  | whole =>
    have hu : Phase.whole.Describes u := hu
    have hcomplete := hu.complete rfl
    obtain ⟨v, ds, rfl, hv, hds, hne⟩ := hu
    dsimp only at hstep
    split_ifs at hstep with hdigit hpoint
    · cases hstep
      exact ⟨t, v ++ ds ++ [c], by simp, ht, v, ds ++ [c], by simp, hv,
        List.forall_mem_append.mpr ⟨hds, List.forall_mem_singleton.mpr hdigit⟩, by simp⟩
    · cases hstep
      exact ⟨t, v ++ ds ++ [c], by simp, ht, v, ds, [], by simp [hpoint], hv, hds,
        List.forall_mem_nil _, .inl hne⟩
    · exact passed_behindOperand ht hcomplete hstep
  | point =>
    obtain ⟨v, rfl, hv⟩ := hu
    dsimp only at hstep
    split_ifs at hstep with hdigit
    cases hstep
    exact ⟨t, v ++ ['.'] ++ [c], by simp, ht, v, [], [c], by simp, hv, List.forall_mem_nil _,
      List.forall_mem_singleton.mpr hdigit, .inr (List.cons_ne_nil _ _)⟩
  | fraction =>
    have hu : Phase.fraction.Describes u := hu
    have hcomplete := hu.complete rfl
    obtain ⟨v, ds, fs, rfl, hv, hds, hfs, hne⟩ := hu
    dsimp only at hstep
    split_ifs at hstep with hdigit
    · cases hstep
      exact ⟨t, v ++ (ds ++ '.' :: fs) ++ [c], by simp, ht, v, ds, fs ++ [c], by simp, hv, hds,
        List.forall_mem_append.mpr ⟨hfs, List.forall_mem_singleton.mpr hdigit⟩, .inr (by simp)⟩
    · exact passed_behindOperand ht hcomplete hstep
  | closed => exact passed_behindOperand ht hu hstep

/-- **What a text is that was passed over**, after any number of characters. -/
theorem passed_over {s t : List Char} {st st' : Scan} (h : Passed s st)
    (hpass : st.pass t = some st') : Passed (s ++ t) st' := by
  induction t generalizing s st with
  | nil =>
    obtain rfl := Option.some.inj hpass
    simpa using h
  | cons c t ih =>
    rw [Scan.pass_cons, Option.bind_eq_some_iff] at hpass
    obtain ⟨st₁, hstep, hpass⟩ := hpass
    simpa using ih (h.step hstep) hpass

/-- At the end of an operand, what was passed over is accepted. -/
theorem Passed.accepted {s : List Char} {st : Scan} (h : Passed s st)
    (hend : st.phase.isEnd = true) : Accepted s := by
  obtain ⟨t, u, rfl, ht, hu⟩ := h
  exact ⟨st.opened, ht.complete (hu.complete hend)⟩

/-- What was passed over can always be continued, at the latest with a zero. -/
theorem Passed.exists_accepted {s : List Char} {st : Scan} (h : Passed s st) :
    ∃ u, Accepted (s ++ u) := by
  by_cases hend : st.phase.isEnd = true
  · exact ⟨[], by simpa using h.accepted hend⟩
  · have hzero : ∃ st', st.step '0' = some st' ∧ st'.phase.isEnd = true := by
      obtain ⟨phase, opened⟩ := st
      cases phase with
      | operand star => exact ⟨_, Scan.step_digit rfl, rfl⟩
      | point => exact ⟨⟨.fraction, opened⟩, rfl, rfl⟩
      | whole | fraction | closed => exact absurd rfl hend
    obtain ⟨st', hstep, hend'⟩ := hzero
    exact ⟨['0'], (h.step hstep).accepted hend'⟩

/-! ### Accepted texts and their beginnings -/

/-- **The accepted texts** are those that are passed over up to the end of an operand. -/
theorem accepted_iff_pass {s : List Char} :
    Accepted s ↔ ∃ st, Scan.start.pass s = some st ∧ st.phase.isEnd = true := by
  refine ⟨Accepted.pass_eq, ?_⟩
  rintro ⟨st, hpass, hend⟩
  exact (passed_over passed_start hpass).accepted hend

/-- **The beginnings of accepted texts** are those that are passed over. -/
theorem exists_accepted_append_iff {s : List Char} :
    (∃ u, Accepted (s ++ u)) ↔ ∃ st, Scan.start.pass s = some st := by
  constructor
  · rintro ⟨u, hu⟩
    obtain ⟨st, hpass, -⟩ := hu.pass_eq
    rw [Scan.pass_append, Option.bind_eq_some_iff] at hpass
    obtain ⟨st', hst', -⟩ := hpass
    exact ⟨st', hst'⟩
  · rintro ⟨st, hpass⟩
    exact (passed_over passed_start hpass).exists_accepted

end Reckoner.Arithmetic
