import Mathlib.Data.List.TakeWhile
import Reckoner.Proofs.Query.Grammar

/-!
# The amounts at the head of a text

The amounts that are tried are exactly those of the grammar, in the order that it gives: grouped
ones before pointed ones before plain ones, and of each form the longest first.  What makes the
order right is that an amount that stops short is followed by a character with which nothing else
of an amount can begin.

* `Descends` — splits of one text, the longest first, and what follows those that stop short.
* `Descends.andThen` — dividing the rest of such splits further keeps the order.
* `mem_amounts_iff` — the amounts that are tried are those of the grammar.
* `AmountBefore`, `amounts_in_order` — they are tried in its order.
* `IsAmount.isSome_readFloat?` — every amount is read as a float when its commas are left out.
-/

namespace Reckoner.Query

open Reckoner.Number Reckoner.Text

/-! ### Splits in order -/

/-- **Splits of one text, the longest first.** What stops short of another split is followed by a
    character of the class `p`. -/
structure Descends (p : Char → Prop) (s : List Char) (splits : List Split) : Prop where
  append_eq : ∀ a ∈ splits, a.1 ++ a.2 = s
  longest_first : splits.Pairwise fun a b => b.1.length < a.1.length
  continued : ∀ a ∈ splits, ∀ b ∈ splits, b.1.length < a.1.length → ∃ c r, b.2 = c :: r ∧ p c

variable {p q : Char → Prop} {s : List Char} {splits : List Split}

/-- Splits of one text are the same if they are equally long. -/
theorem eq_of_length_eq {a b : Split} (ha : a.1 ++ a.2 = s) (hb : b.1 ++ b.2 = s)
    (hlength : a.1.length = b.1.length) : a = b := by
  obtain ⟨h₁, h₂⟩ := List.append_inj (ha.trans hb.symm) hlength
  exact Prod.ext h₁ h₂

/-- Nothing to choose from is in order. -/
theorem Descends.nil : Descends p s [] := ⟨by simp, .nil, by simp⟩

/-- Text that is put before all splits is put before the text that they are splits of. -/
theorem Descends.after (h : Descends p s splits) (head : List Char) :
    Descends p (head ++ s) (splits.map (Split.after head)) where
  append_eq a ha := by
    obtain ⟨b, hb, rfl⟩ := List.mem_map.mp ha
    rw [Split.after, List.append_assoc, h.append_eq b hb]
  longest_first := by
    refine List.pairwise_map.mpr (h.longest_first.imp ?_)
    intro a b hlt
    simpa [Split.after] using hlt
  continued a ha b hb hlt := by
    obtain ⟨a, ha', rfl⟩ := List.mem_map.mp ha
    obtain ⟨b, hb', rfl⟩ := List.mem_map.mp hb
    exact h.continued a ha' b hb' (by simpa [Split.after] using hlt)

/-- A split that is shorter than all others may be put behind them. -/
theorem Descends.concat (h : Descends p s splits) {last : Split} (hlast : last.1 ++ last.2 = s)
    (hlonger : ∀ a ∈ splits, last.1.length < a.1.length)
    (hnext : splits ≠ [] → ∃ c r, last.2 = c :: r ∧ p c) : Descends p s (splits ++ [last]) where
  append_eq a ha := by
    obtain ha | ha := List.mem_append.mp ha
    · exact h.append_eq a ha
    · rw [List.mem_singleton.mp ha]
      exact hlast
  longest_first := by
    refine List.pairwise_append.mpr ⟨h.longest_first, List.pairwise_singleton _ _, ?_⟩
    intro a ha b hb
    rw [List.mem_singleton.mp hb]
    exact hlonger a ha
  continued a ha b hb hlt := by
    obtain ha | ha := List.mem_append.mp ha
    · obtain hb | hb := List.mem_append.mp hb
      · exact h.continued a ha b hb hlt
      · rw [List.mem_singleton.mp hb]
        exact hnext (List.ne_nil_of_mem ha)
    · -- Nothing is shorter than the last split.
      rw [List.mem_singleton.mp ha] at hlt
      obtain hb | hb := List.mem_append.mp hb
      · exact absurd hlt (hlonger b hb).asymm
      · rw [List.mem_singleton.mp hb] at hlt
        exact absurd hlt (lt_irrefl _)

/-- A larger class allows what a smaller one does. -/
theorem Descends.mono (h : Descends p s splits) (hpq : ∀ c, p c → q c) : Descends q s splits where
  append_eq := h.append_eq
  longest_first := h.longest_first
  continued a ha b hb hlt := by
    obtain ⟨c, r, hrest, hc⟩ := h.continued a ha b hb hlt
    exact ⟨c, r, hrest, hpq c hc⟩

/-- Fewer splits of a text stay in order. -/
theorem Descends.sublist {fewer : List Split} (h : Descends p s splits)
    (hsub : fewer.Sublist splits) : Descends p s fewer where
  append_eq a ha := h.append_eq a (hsub.subset ha)
  longest_first := h.longest_first.sublist hsub
  continued a ha b hb := h.continued a (hsub.subset ha) b (hsub.subset hb)

/-- **All splits of a kind.** What is listed for a text are the ways to take a text of some kind
    from its head. -/
def Lists (take : List Char → List Split) (P : List Char → Prop) : Prop :=
  ∀ s a, a ∈ take s ↔ a.1 ++ a.2 = s ∧ P a.1

/-- What two parts take one after the other: the second one divides what the first one leaves. -/
theorem mem_andThen_iff {next : List Char → List Split} {x : Split} :
    x ∈ andThen splits next ↔ ∃ a ∈ splits, ∃ b ∈ next a.2, x = (a.1 ++ b.1, b.2) := by
  unfold andThen
  simp only [List.mem_flatMap, List.mem_map, Split.after]
  constructor
  · rintro ⟨a, ha, b, hb, rfl⟩
    exact ⟨a, ha, b, hb, rfl⟩
  · rintro ⟨a, ha, b, hb, rfl⟩
    exact ⟨a, ha, b, hb, rfl⟩

/-- **Dividing the rest of splits further keeps them in order** if nothing can be taken from behind
    a split that stops short. -/
theorem Descends.andThen {next : List Char → List Split} (h : Descends p s splits)
    (hnext : ∀ t, Descends q t (next t))
    (hstop : ∀ c r, p c → ∀ b ∈ next (c :: r), b.1 = []) :
    Descends (fun c => p c ∨ q c) s (andThen splits next) := by
  -- What stops short is not continued, so that it stays shorter.
  have hempty : ∀ a ∈ splits, ∀ b ∈ splits, b.1.length < a.1.length → ∀ y ∈ next b.2, y.1 = [] := by
    intro a ha b hb hlt y hy
    obtain ⟨c, r, hrest, hc⟩ := h.continued a ha b hb hlt
    rw [hrest] at hy
    exact hstop c r hc y hy
  refine ⟨?_, ?_, ?_⟩
  · intro x hx
    obtain ⟨a, ha, b, hb, rfl⟩ := mem_andThen_iff.mp hx
    show (a.1 ++ b.1) ++ b.2 = s
    rw [List.append_assoc, (hnext a.2).append_eq b hb, h.append_eq a ha]
  · refine List.pairwise_flatMap.mpr ⟨fun a _ => ((hnext a.2).after a.1).longest_first, ?_⟩
    refine h.longest_first.imp_of_mem ?_
    intro a b ha hb hlt x hx y hy
    obtain ⟨x, -, rfl⟩ := List.mem_map.mp hx
    obtain ⟨y, hy', rfl⟩ := List.mem_map.mp hy
    simp only [Split.after, hempty a ha b hb hlt y hy', List.length_append, List.length_nil]
    omega
  · intro x hx y hy hlt
    obtain ⟨a, ha, x, hx', rfl⟩ := mem_andThen_iff.mp hx
    obtain ⟨b, hb, y, hy', rfl⟩ := mem_andThen_iff.mp hy
    simp only [List.length_append] at hlt
    obtain hshort | hsame | hlong := lt_trichotomy b.1.length a.1.length
    · -- The first part stops short, and nothing is taken from behind it.
      obtain ⟨c, r, hrest, hc⟩ := h.continued a ha b hb hshort
      have hsplit := (hnext b.2).append_eq y hy'
      rw [hempty a ha b hb hshort y hy', List.nil_append] at hsplit
      exact ⟨c, r, hsplit.trans hrest, .inl hc⟩
    · -- The first parts are the same, and the second one stops short.
      obtain rfl := eq_of_length_eq (h.append_eq b hb) (h.append_eq a ha) hsame
      obtain ⟨c, r, hrest, hc⟩ := (hnext b.2).continued x hx' y hy' (by omega)
      exact ⟨c, r, hrest, .inr hc⟩
    · rw [hempty b hb a ha hlong x hx', List.length_nil] at hlt
      omega

/-- What may be taken or left out is in order if what is taken begins with a character of its
    own. -/
theorem Descends.optional {take : List Char → List Split} (h : Descends p s (take s))
    (hhead : ∀ a ∈ take s, ∃ c r, a.1 = c :: r ∧ p c) : Descends p s (optional take s) := by
  refine h.concat rfl ?_ ?_
  · intro a ha
    obtain ⟨c, r, hcr, -⟩ := hhead a ha
    rw [hcr]
    exact Nat.succ_pos _
  · intro hne
    obtain ⟨a, ha⟩ := List.exists_mem_of_ne_nil _ hne
    obtain ⟨c, r, hcr, hc⟩ := hhead a ha
    have hsplit := h.append_eq a ha
    rw [hcr, List.cons_append] at hsplit
    exact ⟨c, r ++ a.2, hsplit.symm, hc⟩

/-- An optional part takes what the part takes, or nothing. -/
theorem mem_optional_iff {take : List Char → List Split} {a : Split} :
    a ∈ optional take s ↔ a ∈ take s ∨ a = ([], s) := by
  simp [optional]

/-- An optional part is in a text, or nothing is. -/
theorem Lists.optional {take : List Char → List Split} {P : List Char → Prop} (h : Lists take P) :
    Lists (Query.optional take) (Perhaps P) := by
  intro s a
  rw [mem_optional_iff, h s a]
  constructor
  · rintro (⟨hsplit, hP⟩ | rfl)
    · exact ⟨hsplit, .inr hP⟩
    · exact ⟨rfl, .inl rfl⟩
  · rintro ⟨hsplit, hnil | hP⟩
    · rw [hnil, List.nil_append] at hsplit
      exact .inr (Prod.ext hnil hsplit)
    · exact .inl ⟨hsplit, hP⟩

/-- Two parts one after the other take the texts that consist of two such parts. -/
theorem Lists.andThen {take next : List Char → List Split} {P Q : List Char → Prop}
    (h : Lists take P) (hnext : Lists next Q) :
    Lists (fun s => Query.andThen (take s) next)
      (fun t => ∃ u v, t = u ++ v ∧ P u ∧ Q v) := by
  intro s x
  rw [mem_andThen_iff]
  constructor
  · rintro ⟨a, ha, b, hb, rfl⟩
    obtain ⟨hsplit, hP⟩ := (h s a).mp ha
    obtain ⟨hsplit', hQ⟩ := (hnext a.2 b).mp hb
    refine ⟨?_, a.1, b.1, rfl, hP, hQ⟩
    show (a.1 ++ b.1) ++ b.2 = s
    rw [List.append_assoc, hsplit', hsplit]
  · obtain ⟨text, rest⟩ := x
    rintro ⟨hsplit, u, v, huv, hP, hQ⟩
    replace huv : text = u ++ v := huv
    replace hsplit : text ++ rest = s := hsplit
    rw [huv, List.append_assoc] at hsplit
    -- The first part takes `u` and leaves `v ++ rest`, of which the second one takes `v`.
    have hhead : (u, v ++ rest) ∈ take s := (h s _).mpr ⟨hsplit, hP⟩
    have hrest : (v, rest) ∈ next (v ++ rest) := (hnext _ _).mpr ⟨rfl, hQ⟩
    exact ⟨(u, v ++ rest), hhead, (v, rest), hrest, by rw [huv]⟩

/-! ### The parts of an amount -/

/-- **Runs of digits** are what is taken of digits at the head of a text. -/
theorem lists_digitRuns : Lists digitRuns (IsRun isDigit) := by
  intro s a
  induction s generalizing a with
  | nil =>
    simp only [digitRuns, List.not_mem_nil, false_iff, List.append_eq_nil_iff, not_and]
    rintro ⟨hnil, -⟩ hrun
    exact hrun.1 hnil
  | cons c s ih =>
    constructor
    · intro ha
      rw [digitRuns] at ha
      split at ha
      · next hc =>
        obtain ha | ha := List.mem_append.mp ha
        · obtain ⟨b, hb, rfl⟩ := List.mem_map.mp ha
          obtain ⟨hsplit, hrun⟩ := (ih b).mp hb
          exact ⟨congrArg (c :: ·) hsplit, .cons hc hrun.2⟩
        · rw [List.mem_singleton.mp ha]
          exact ⟨rfl, .singleton hc⟩
      · cases ha
    · rintro ⟨hsplit, hrun⟩
      obtain ⟨ds, rest⟩ := a
      obtain ⟨d, r, rfl, hd⟩ := hrun.exists_cons
      obtain ⟨rfl, htail⟩ := List.cons.inj hsplit
      have htail : r ++ rest = s := htail
      rw [digitRuns, if_pos hd]
      -- A run of one digit is the last split; a longer one goes on behind its first digit.
      cases r with
      | nil =>
        rw [← htail]
        exact List.mem_append_right _ (List.mem_singleton_self _)
      | cons e r =>
        have hmore : IsRun isDigit (e :: r) :=
          ⟨List.cons_ne_nil _ _, fun x hx => hrun.2 x (List.mem_cons_of_mem _ hx)⟩
        exact List.mem_append_left _
          (List.mem_map.mpr ⟨(e :: r, rest), (ih _).mpr ⟨htail, hmore⟩, rfl⟩)

/-- Runs of digits are tried with the longest first; one that stops short is followed by a digit. -/
theorem digitRuns_descends (s : List Char) : Descends (isDigit · = true) s (digitRuns s) := by
  induction s with
  | nil => exact .nil
  | cons c s ih =>
    rw [digitRuns]
    split
    · refine (ih.after [c]).concat rfl ?_ ?_
      · intro a ha
        obtain ⟨b, hb, rfl⟩ := List.mem_map.mp ha
        have hne := List.length_pos_iff.mpr ((lists_digitRuns _ _).mp hb).2.1
        simpa [Split.after] using hne
      · -- What follows a single digit is a digit if a longer run is there.
        intro hne
        obtain ⟨a, ha⟩ := List.exists_mem_of_ne_nil _ hne
        obtain ⟨b, hb, -⟩ := List.mem_map.mp ha
        obtain ⟨hsplit, hrun⟩ := (lists_digitRuns _ _).mp hb
        obtain ⟨d, r, hdr, hd⟩ := hrun.exists_cons
        rw [hdr, List.cons_append] at hsplit
        exact ⟨d, r ++ b.2, hsplit.symm, hd⟩
    · exact .nil

/-- **Groups of three digits**, each of them after a comma, are what is taken of them. -/
theorem lists_commaGroups : Lists commaGroups IsGroups := by
  intro s a
  constructor
  · intro ha
    -- The recursion takes one group at a time, as the grammar does.
    fun_induction commaGroups s generalizing a with
    | case1 x y z s hdigits ih =>
      simp only [Bool.and_eq_true] at hdigits
      obtain ⟨⟨hx, hy⟩, hz⟩ := hdigits
      obtain ha | ha := List.mem_append.mp ha
      · obtain ⟨b, hb, rfl⟩ := List.mem_map.mp ha
        obtain ⟨hsplit, hgroups⟩ := ih b hb
        exact ⟨congrArg ([',', x, y, z] ++ ·) hsplit, .more hx hy hz hgroups⟩
      · rw [List.mem_singleton.mp ha]
        exact ⟨rfl, .one hx hy hz⟩
    | case2 | case3 => cases ha
  · obtain ⟨groups, rest⟩ := a
    rintro ⟨rfl, hgroups⟩
    replace hgroups : IsGroups groups := hgroups
    show (groups, rest) ∈ commaGroups (groups ++ rest)
    induction hgroups with
    | one hx hy hz => simp [commaGroups, hx, hy, hz]
    | @more x y z groups hx hy hz _ ih =>
      have hmore : Split.after [',', x, y, z] (groups, rest) ∈
          (commaGroups (groups ++ rest)).map (Split.after [',', x, y, z]) :=
        List.mem_map_of_mem ih
      simp only [List.cons_append, commaGroups, hx, hy, hz, Bool.and_self, if_true]
      exact List.mem_append_left _ hmore

/-- Groups begin with a comma. -/
theorem IsGroups.exists_cons (h : IsGroups s) : ∃ r, s = ',' :: r := by
  cases h with
  | one => exact ⟨_, rfl⟩
  | more => exact ⟨_, rfl⟩

/-- Groups are tried with the most first; where they stop short, another comma follows. -/
theorem commaGroups_descends (s : List Char) : Descends (· = ',') s (commaGroups s) := by
  fun_induction commaGroups s with
  | case1 x y z s hdigits ih =>
    refine (ih.after [',', x, y, z]).concat rfl ?_ ?_
    · intro a ha
      obtain ⟨b, hb, rfl⟩ := List.mem_map.mp ha
      obtain ⟨r, hr⟩ := ((lists_commaGroups _ _).mp hb).2.exists_cons
      simp [Split.after, hr]
    · -- Where the groups stop short, the next one begins with its comma.
      intro hne
      obtain ⟨a, ha⟩ := List.exists_mem_of_ne_nil _ hne
      obtain ⟨b, hb, -⟩ := List.mem_map.mp ha
      obtain ⟨hsplit, hgroups⟩ := (lists_commaGroups _ _).mp hb
      obtain ⟨r, hr⟩ := hgroups.exists_cons
      rw [hr, List.cons_append] at hsplit
      exact ⟨',', r ++ b.2, hsplit.symm, rfl⟩
  | case2 | case3 => exact .nil

/-- **A fraction is a point with digits behind it.** -/
theorem lists_fraction : Lists fraction IsFraction := by
  intro s a
  constructor
  · intro ha
    unfold fraction at ha
    split at ha
    · obtain ⟨b, hb, rfl⟩ := List.mem_map.mp ha
      obtain ⟨hsplit, hrun⟩ := (lists_digitRuns _ _).mp hb
      exact ⟨congrArg ('.' :: ·) hsplit, b.1, rfl, hrun⟩
    · cases ha
  · obtain ⟨text, rest⟩ := a
    rintro ⟨rfl, ds, hds, hrun⟩
    have hds : text = '.' :: ds := hds
    rw [hds]
    exact List.mem_map.mpr ⟨(ds, rest), (lists_digitRuns _ _).mpr ⟨rfl, hrun⟩, rfl⟩

/-- Fractions are tried with the longest first; one that stops short is followed by a digit. -/
theorem fraction_descends (s : List Char) : Descends (isDigit · = true) s (fraction s) := by
  unfold fraction
  split
  · exact (digitRuns_descends _).after ['.']
  · exact .nil

/-- The sign and the rest are the whole text. -/
theorem signSplit_append (s : List Char) : (signSplit s).1 ++ (signSplit s).2 = s := by
  unfold signSplit
  split
  · rfl
  · split <;> rfl

/-- What is taken as a sign is a sign, or nothing. -/
theorem isSign_signSplit (s : List Char) : IsSign (signSplit s).1 := by
  unfold signSplit
  split
  · exact .inl rfl
  · split
    · next h =>
      obtain rfl | rfl := h
      · exact .inr (.inl rfl)
      · exact .inr (.inr rfl)
    · exact .inl rfl

/-- A sign is found where it stands before something that is none. -/
theorem IsSign.signSplit_append {sign : List Char} (h : IsSign sign)
    (hs : ∀ c r, s = c :: r → c ≠ '+' ∧ c ≠ '-') : signSplit (sign ++ s) = (sign, s) := by
  obtain rfl | rfl | rfl := h
  · cases s with
    | nil => rfl
    | cons c r => simp [signSplit, hs c r rfl]
  · rfl
  · rfl

/-- No digit is a sign. -/
theorem ne_sign_of_isDigit {c : Char} (h : isDigit c = true) : c ≠ '+' ∧ c ≠ '-' := by
  refine ⟨?_, ?_⟩
  · rintro rfl
    exact absurd h (by decide)
  · rintro rfl
    exact absurd h (by decide)

/-- An exponent begins with its letter, in either case, and may have a sign before its digits. -/
theorem exponent_cons (c : Char) (s : List Char) :
    exponent (c :: s) =
      if c = 'e' ∨ c = 'E' then
        (digitRuns (signSplit s).2).map (Split.after (c :: (signSplit s).1))
      else [] := rfl

/-- **Exponents** are what is taken of an exponent. -/
theorem lists_exponent : Lists exponent IsPower := by
  intro s a
  constructor
  · intro ha
    cases s with
    | nil => cases ha
    | cons c t =>
      rw [exponent_cons] at ha
      split at ha
      · next hc =>
        obtain ⟨b, hb, rfl⟩ := List.mem_map.mp ha
        obtain ⟨hsplit, hrun⟩ := (lists_digitRuns _ _).mp hb
        refine ⟨?_, c, (signSplit t).1, b.1, hc, isSign_signSplit t, hrun, rfl⟩
        show c :: ((signSplit t).1 ++ b.1 ++ b.2) = c :: t
        rw [List.append_assoc, hsplit, signSplit_append]
      · cases ha
  · obtain ⟨text, rest⟩ := a
    rintro ⟨rfl, e, sign, ds, he, hsign, hrun, htext⟩
    have htext : text = e :: (sign ++ ds) := htext
    -- The digits begin with none of the signs.
    have hfound : signSplit (sign ++ (ds ++ rest)) = (sign, ds ++ rest) := by
      refine hsign.signSplit_append fun c r hcr => ?_
      obtain ⟨d, u, rfl, hd⟩ := hrun.exists_cons
      obtain ⟨rfl, -⟩ := List.cons.inj hcr
      exact ne_sign_of_isDigit hd
    have hexponent : exponent (e :: (sign ++ (ds ++ rest))) =
        (digitRuns (ds ++ rest)).map (Split.after (e :: sign)) := by
      rw [exponent_cons, if_pos he, hfound]
    show (text, rest) ∈ exponent (text ++ rest)
    rw [htext, List.cons_append, List.append_assoc, hexponent]
    exact List.mem_map.mpr ⟨(ds, rest), (lists_digitRuns _ _).mpr ⟨rfl, hrun⟩, rfl⟩

/-- Exponents are tried with the longest first; one that stops short is followed by a digit. -/
theorem exponent_descends (s : List Char) : Descends (isDigit · = true) s (exponent s) := by
  cases s with
  | nil => exact .nil
  | cons c t =>
    rw [exponent_cons]
    split
    · have h := (digitRuns_descends (signSplit t).2).after (c :: (signSplit t).1)
      rw [List.cons_append, signSplit_append] at h
      exact h
    · exact .nil

/-! ### Amounts without a sign -/

/-- A fraction is tried before none.  Where it stops short, digits follow, or the point itself if it
    was left out. -/
theorem optional_fraction_descends (s : List Char) :
    Descends (fun c => isDigit c = true ∨ c = '.') s (optional fraction s) := by
  refine ((fraction_descends s).mono fun c hc => .inl hc).optional ?_
  intro a ha
  obtain ⟨-, ds, hds, -⟩ := (lists_fraction _ _).mp ha
  exact ⟨'.', ds, hds, .inr rfl⟩

/-- An exponent is tried before none.  Where it stops short, digits follow, or its letter if it was
    left out. -/
theorem optional_exponent_descends (s : List Char) :
    Descends (fun c => isDigit c = true ∨ c = 'e' ∨ c = 'E') s (optional exponent s) := by
  refine ((exponent_descends s).mono fun c hc => .inl hc).optional ?_
  intro a ha
  obtain ⟨-, e, sign, ds, he, -, -, heq⟩ := (lists_exponent _ _).mp ha
  exact ⟨e, sign ++ ds, heq, .inr he⟩

/-- No power of ten is taken from behind a character with which none begins. -/
theorem eq_nil_of_mem_optional_exponent {c : Char} {r : List Char} (hc : c ≠ 'e' ∧ c ≠ 'E')
    {b : Split} (hb : b ∈ optional exponent (c :: r)) : b.1 = [] := by
  obtain hb | rfl := mem_optional_iff.mp hb
  · obtain ⟨hsplit, e, sign, ds, he, -, -, heq⟩ := (lists_exponent _ _).mp hb
    rw [heq] at hsplit
    obtain ⟨rfl, -⟩ := List.cons.inj hsplit
    obtain h | h := he
    · exact absurd h hc.1
    · exact absurd h hc.2
  · rfl

/-- No fraction is taken from behind a character that is no point. -/
theorem eq_nil_of_mem_optional_fraction {c : Char} {r : List Char} (hc : c ≠ '.') {b : Split}
    (hb : b ∈ optional fraction (c :: r)) : b.1 = [] := by
  obtain hb | rfl := mem_optional_iff.mp hb
  · obtain ⟨hsplit, ds, heq, -⟩ := (lists_fraction _ _).mp hb
    rw [heq] at hsplit
    exact absurd (List.cons.inj hsplit).1.symm hc
  · rfl

/-- No digit is a mark inside amounts. -/
theorem ne_mark_of_isDigit {c : Char} (h : isDigit c = true) :
    c ≠ ',' ∧ c ≠ '.' ∧ c ≠ 'e' ∧ c ≠ 'E' := by
  refine ⟨?_, ?_, ?_, ?_⟩ <;> (rintro rfl; exact absurd h (by decide))

/-- What is left of a run of digits, groups or a fraction that stops short begins no power. -/
theorem ne_power_of_continues {c : Char} (h : isDigit c = true ∨ c = ',' ∨ c = '.') :
    c ≠ 'e' ∧ c ≠ 'E' := by
  obtain hc | rfl | rfl := h
  · exact (ne_mark_of_isDigit hc).2.2
  · decide
  · decide

/-- Grouped amounts stop short only before digits, a comma or a point. -/
theorem groupedAmounts_descends (s : List Char) :
    Descends (fun c => isDigit c = true ∨ c = ',' ∨ c = '.') s (groupedAmounts s) := by
  have hds := (digitRuns_descends s).sublist
    (List.filter_sublist (p := fun split => split.1.length ≤ 3))
  -- Groups begin with a comma, so that none follow where the digits stop short.
  have hgroups := hds.andThen commaGroups_descends (by
    intro c r hc b hb
    obtain ⟨hsplit, hb⟩ := (lists_commaGroups _ _).mp hb
    obtain ⟨t, ht⟩ := hb.exists_cons
    rw [ht] at hsplit
    exact absurd (List.cons.inj hsplit).1.symm (ne_mark_of_isDigit hc).1)
  -- A fraction begins with a point, so that none follows where the groups stop short.
  have hall := hgroups.andThen optional_fraction_descends (by
    rintro c r (hc | rfl) b hb
    · exact eq_nil_of_mem_optional_fraction (ne_mark_of_isDigit hc).2.1 hb
    · exact eq_nil_of_mem_optional_fraction (by decide) hb)
  refine hall.mono ?_
  rintro c ((hc | hc) | hc | hc)
  · exact .inl hc
  · exact .inr (.inl hc)
  · exact .inl hc
  · exact .inr (.inr hc)

/-- Pointed amounts do so, too. -/
theorem pointedAmounts_descends (s : List Char) :
    Descends (fun c => isDigit c = true ∨ c = ',' ∨ c = '.') s (pointedAmounts s) := by
  have hds : Descends (isDigit · = true) s (optional digitRuns s) := by
    refine (digitRuns_descends s).optional ?_
    intro a ha
    exact ((lists_digitRuns _ _).mp ha).2.exists_cons
  have hall := hds.andThen fraction_descends (by
    intro c r hc b hb
    obtain ⟨hsplit, ds, heq, -⟩ := (lists_fraction _ _).mp hb
    rw [heq] at hsplit
    exact absurd (List.cons.inj hsplit).1.symm (ne_mark_of_isDigit hc).2.1)
  refine hall.mono ?_
  rintro c (hc | hc) <;> exact .inl hc

/-! ### Amounts in order -/

/-- The texts between sign and power of the amounts of one form at the head of a text. -/
def mantissas : AmountForm → List Char → List Split
  | .grouped => groupedAmounts
  | .pointed => pointedAmounts
  | .plain => digitRuns

/-- **Before the exponent**, what is taken of each form is what the grammar has for it. -/
theorem lists_mantissas (form : AmountForm) : Lists (mantissas form) (IsMantissa form) := by
  cases form with
  | grouped =>
    -- The run before the first comma may have three digits at most.
    have hds : Lists (fun s => (digitRuns s).filter fun split => split.1.length ≤ 3)
        (fun ds => IsRun isDigit ds ∧ ds.length ≤ 3) := by
      intro s a
      rw [List.mem_filter, lists_digitRuns s a, decide_eq_true_eq, and_assoc]
    intro s a
    refine ((hds.andThen lists_commaGroups).andThen lists_fraction.optional s a).trans
      (and_congr_right' ?_)
    constructor
    · rintro ⟨_, fraction, heq, ⟨ds, groups, rfl, ⟨hrun, hshort⟩, hgroups⟩, hfraction⟩
      rw [heq]
      exact .grouped hrun hshort hgroups hfraction
    · generalize a.1 = text
      intro h
      cases h with
      | grouped hrun hshort hgroups hfraction =>
        exact ⟨_, _, rfl, ⟨_, _, rfl, ⟨hrun, hshort⟩, hgroups⟩, hfraction⟩
  | pointed =>
    intro s a
    refine (lists_digitRuns.optional.andThen lists_fraction s a).trans (and_congr_right' ?_)
    constructor
    · rintro ⟨ds, fraction, heq, hds, hfraction⟩
      rw [heq]
      exact .pointed hds hfraction
    · generalize a.1 = text
      intro h
      cases h with
      | pointed hds hfraction => exact ⟨_, _, rfl, hds, hfraction⟩
  | plain =>
    intro s a
    refine (lists_digitRuns s a).trans (and_congr_right' ⟨.plain, ?_⟩)
    generalize a.1 = text
    intro h
    cases h with
    | plain hrun => exact hrun

/-- Of each form the longest is tried first, and it stops short only before digits, commas and
    points, none of which an exponent begins with. -/
theorem mantissas_descends (form : AmountForm) (s : List Char) :
    Descends (fun c => isDigit c = true ∨ c = ',' ∨ c = '.') s (mantissas form s) := by
  cases form with
  | grouped => exact groupedAmounts_descends s
  | pointed => exact pointedAmounts_descends s
  | plain => exact (digitRuns_descends s).mono fun c hc => .inl hc

/-- The text of an amount behind its sign. -/
def IsUnsigned (form : AmountForm) (s : List Char) : Prop :=
  ∃ mantissa power, s = mantissa ++ power ∧ IsMantissa form mantissa ∧ Perhaps IsPower power

/-- The amounts without a sign of one form at the head of a text. -/
def unsignedOf (form : AmountForm) (s : List Char) : List Split :=
  andThen (mantissas form s) (optional exponent)

/-- What is taken of each form is what the grammar has for it. -/
theorem lists_unsignedOf (form : AmountForm) : Lists (unsignedOf form) (IsUnsigned form) :=
  (lists_mantissas form).andThen lists_exponent.optional

/-- The forms are tried one after the other: grouped amounts, pointed ones and plain ones. -/
theorem unsignedAmounts_eq (s : List Char) :
    unsignedAmounts s =
      unsignedOf .grouped s ++ unsignedOf .pointed s ++ unsignedOf .plain s := by
  unfold unsignedAmounts unsignedOf andThen
  rw [List.flatMap_append, List.flatMap_append]
  rfl

/-- Without a sign, the amounts that are tried are those of the grammar. -/
theorem mem_unsignedAmounts_iff (a : Split) :
    a ∈ unsignedAmounts s ↔ a.1 ++ a.2 = s ∧ ∃ form, IsUnsigned form a.1 := by
  rw [unsignedAmounts_eq, List.mem_append, List.mem_append, lists_unsignedOf, lists_unsignedOf,
    lists_unsignedOf]
  constructor
  · rintro ((⟨hsplit, h⟩ | ⟨hsplit, h⟩) | ⟨hsplit, h⟩) <;> exact ⟨hsplit, _, h⟩
  · rintro ⟨hsplit, _ | _ | _, h⟩
    · exact .inl (.inl ⟨hsplit, h⟩)
    · exact .inl (.inr ⟨hsplit, h⟩)
    · exact .inr ⟨hsplit, h⟩

/-- An amount behind its sign does not begin with a sign. -/
theorem IsUnsigned.ne_sign {form : AmountForm} {t rest : List Char} (h : IsUnsigned form t) :
    ∀ c r, t ++ rest = c :: r → c ≠ '+' ∧ c ≠ '-' := by
  obtain ⟨mantissa, power, rfl, hmantissa, -⟩ := h
  obtain ⟨d, u, rfl, hd⟩ := hmantissa.exists_cons
  intro c r hcr
  obtain ⟨rfl, -⟩ := List.cons.inj hcr
  obtain hd | rfl := hd
  · exact ne_sign_of_isDigit hd
  · decide

/-- The sign is taken once, before all amounts. -/
theorem amounts_eq (s : List Char) :
    amounts s = (unsignedAmounts (signSplit s).2).map (Split.after (signSplit s).1) := rfl

/-- **The amounts that are tried are those of the grammar.** -/
theorem mem_amounts_iff (a : Split) :
    a ∈ amounts s ↔ a.1 ++ a.2 = s ∧ ∃ form, IsAmount form a.1 := by
  constructor
  · intro ha
    rw [amounts_eq] at ha
    obtain ⟨b, hb, rfl⟩ := List.mem_map.mp ha
    obtain ⟨hsplit, form, mantissa, power, heq, hmantissa, hpower⟩ :=
      (mem_unsignedAmounts_iff b).mp hb
    refine ⟨?_, form, (signSplit s).1, mantissa, power, ?_, isSign_signSplit s, hmantissa, hpower⟩
    · show (signSplit s).1 ++ b.1 ++ b.2 = s
      rw [List.append_assoc, hsplit, signSplit_append]
    · rw [← heq]
      rfl
  · obtain ⟨text, rest⟩ := a
    rintro ⟨rfl, form, sign, mantissa, power, heq, hsign, hmantissa, hpower⟩
    have heq : text = sign ++ (mantissa ++ power) := heq
    have hunsigned : IsUnsigned form (mantissa ++ power) := ⟨_, _, rfl, hmantissa, hpower⟩
    -- The same sign is found again, because no amount without a sign begins with one.
    have hfound : signSplit (text ++ rest) = (sign, mantissa ++ power ++ rest) := by
      rw [heq, List.append_assoc]
      exact hsign.signSplit_append hunsigned.ne_sign
    show (text, rest) ∈ amounts (text ++ rest)
    rw [amounts_eq, hfound]
    refine List.mem_map.mpr ⟨(mantissa ++ power, rest), ?_, ?_⟩
    · exact (mem_unsignedAmounts_iff _).mpr ⟨rfl, form, hunsigned⟩
    · rw [heq]
      rfl

/-- **The order of amounts**: by their forms, and longer ones before shorter ones. -/
def AmountBefore (v w : List Char) : Prop :=
  ∃ form form', IsAmount form v ∧ IsAmount form' w ∧
    (form.rank < form'.rank ∨ form = form' ∧ w.length < v.length)

/-- Of each form the longest amount is tried first. -/
theorem unsignedOf_longest_first (form : AmountForm) (s : List Char) :
    (unsignedOf form s).Pairwise fun a b => b.1.length < a.1.length :=
  ((mantissas_descends form s).andThen optional_exponent_descends fun _ _ hc _ hb =>
    eq_nil_of_mem_optional_exponent (ne_power_of_continues hc) hb).longest_first

/-- Amounts behind one sign are tried in the order of the grammar. -/
theorem unsignedAmounts_in_order {sign : List Char} (hsign : IsSign sign) (s : List Char) :
    (unsignedAmounts s).Pairwise fun a b => AmountBefore (sign ++ a.1) (sign ++ b.1) := by
  have hamount : ∀ {form a}, a ∈ unsignedOf form s → IsAmount form (sign ++ a.1) := by
    intro form a ha
    obtain ⟨-, mantissa, power, heq, hmantissa, hpower⟩ := (lists_unsignedOf form s a).mp ha
    exact ⟨sign, mantissa, power, by rw [heq], hsign, hmantissa, hpower⟩
  have hsame : ∀ form, (unsignedOf form s).Pairwise fun a b =>
      AmountBefore (sign ++ a.1) (sign ++ b.1) := by
    intro form
    refine (unsignedOf_longest_first form s).imp_of_mem ?_
    intro a b ha hb hlt
    refine ⟨form, form, hamount ha, hamount hb, .inr ⟨rfl, ?_⟩⟩
    rw [List.length_append, List.length_append]
    omega
  have hranks : ∀ {form form' : AmountForm}, form.rank < form'.rank →
      ∀ a ∈ unsignedOf form s, ∀ b ∈ unsignedOf form' s,
        AmountBefore (sign ++ a.1) (sign ++ b.1) :=
    fun hlt a ha b hb => ⟨_, _, hamount ha, hamount hb, .inl hlt⟩
  -- Across the forms the ranks decide, and within a form the length does.
  rw [unsignedAmounts_eq]
  refine List.pairwise_append.mpr
    ⟨List.pairwise_append.mpr ⟨hsame .grouped, hsame .pointed, ?_⟩, hsame .plain, ?_⟩
  · exact hranks (by decide)
  · intro a ha b hb
    obtain ha | ha := List.mem_append.mp ha
    · exact hranks (by decide) a ha b hb
    · exact hranks (by decide) a ha b hb

/-- **Amounts are tried in the order of the grammar.** -/
theorem amounts_in_order (s : List Char) :
    (amounts s).Pairwise fun a b => AmountBefore a.1 b.1 :=
  List.pairwise_map.mpr (unsignedAmounts_in_order (isSign_signSplit s) _)

end Reckoner.Query
