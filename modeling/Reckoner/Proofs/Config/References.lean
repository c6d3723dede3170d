import Mathlib.Data.List.TakeWhile
import Reckoner.Config.Reference
import Reckoner.Proofs.Config.Keys

/-!
# What references are expanded to

No reference overlaps another one, since a dollar sign stands only at its head.  So every text is,
from left to right, a row of references with other texts between them, and these texts stay as they
are when the references are expanded.  What a reference is expanded to is not looked at again.

* `HasReference` — texts in which a reference stands.
* `Template` — references with other texts before, between and behind them.
* `Template.expand_text` — the references of a template are expanded, and nothing else is.
* `Template.exists_text_eq` — every text is that of a template.
* `Json.ExpandsTo` — a value becomes another one in which texts are expanded, and nothing else.
* `Json.expandsTo_expand`, `Json.IsPlain.expand_eq` — so does a value that is expanded, and one
  without references stays as it is.
* `expand_once` — **references are expanded once, and only in texts.**
-/

namespace Reckoner

open Reckoner.Text

variable {s name rest : List Char}

/-! ### References -/

/-- A name that a reference can have. -/
structure IsName (name : List Char) : Prop where
  ne_nil : name ≠ []
  isWordChar : ∀ c ∈ name, isWordChar c = true

/-- The reference to a variable. -/
def referenceTo (name : List Char) : List Char := '$' :: '\x7b' :: (name ++ ['\x7d'])

/-- **A text in which a reference stands.** -/
def HasReference (s : List Char) : Prop :=
  ∃ before name behind, IsName name ∧ s = before ++ (referenceTo name ++ behind)

/-- There is no reference in nothing. -/
theorem not_hasReference_nil : ¬ HasReference [] := by
  rintro ⟨before, name, behind, -, heq⟩
  simp [referenceTo] at heq

/-- Without a dollar sign there is no reference. -/
theorem not_hasReference_of_not_mem (h : '$' ∉ s) : ¬ HasReference s := by
  rintro ⟨before, name, behind, -, rfl⟩
  exact h (by simp [referenceTo])

/-- A reference is still there behind another character. -/
theorem HasReference.cons (h : HasReference s) (c : Char) : HasReference (c :: s) := by
  obtain ⟨before, name, behind, hname, rfl⟩ := h
  exact ⟨c :: before, name, behind, hname, rfl⟩

/-- Behind a dollar sign a reference is read exactly if it stands there. -/
theorem reference?_eq_some_iff :
    reference? s = some (name, rest) ↔ IsName name ∧ s = '\x7b' :: (name ++ '\x7d' :: rest) := by
  constructor
  · intro h
    unfold reference? at h
    split at h
    · next s =>
      split at h
      · next heq =>
        split at h
        · cases h
        · next hne =>
          cases h
          -- The name is the longest run of word characters, so that the brace is behind it.
          have hword : ∀ c ∈ s.takeWhile isWordChar, isWordChar c = true := fun c hc =>
            List.mem_takeWhile_imp hc
          refine ⟨⟨fun hnil => hne (by rw [hnil]; rfl), hword⟩, ?_⟩
          rw [← heq, List.takeWhile_append_dropWhile]
      · cases h
    · cases h
  · rintro ⟨hname, rfl⟩
    have hclose : isWordChar '\x7d' = false := by decide
    have htake : (name ++ '\x7d' :: rest).takeWhile isWordChar = name := by
      rw [List.takeWhile_append_of_pos hname.isWordChar,
        List.takeWhile_cons_of_neg (by simp [hclose]), List.append_nil]
    have hdrop : (name ++ '\x7d' :: rest).dropWhile isWordChar = '\x7d' :: rest := by
      rw [List.dropWhile_append_of_pos hname.isWordChar,
        List.dropWhile_cons_of_neg (by simp [hclose])]
    simp [reference?, htake, hdrop, hname.ne_nil]

/-- A reference begins with the first character or later. -/
theorem HasReference.of_cons {c : Char} (h : HasReference (c :: s)) :
    HasReference s ∨ c = '$' ∧ ∃ name rest, reference? s = some (name, rest) := by
  obtain ⟨before, name, behind, hname, heq⟩ := h
  cases before with
  | nil =>
    obtain ⟨rfl, hs⟩ := List.cons_eq_cons.mp heq
    exact .inr ⟨rfl, name, behind, reference?_eq_some_iff.mpr ⟨hname, by rw [hs]; simp⟩⟩
  | cons d before =>
    obtain ⟨-, rfl⟩ := List.cons_eq_cons.mp heq
    exact .inl ⟨before, name, behind, hname, rfl⟩

/-! ### Expanding from left to right -/

section Expand

variable (env : Entries String)

/-- Every character but the dollar sign is kept. -/
theorem expand_cons_of_ne {c : Char} (hc : c ≠ '$') (s : List Char) :
    expand env (c :: s) = c :: expand env s := by
  rw [expand, if_neg hc]

/-- So is a dollar sign at which no reference begins. -/
theorem expand_cons_of_none (h : reference? s = none) :
    expand env ('$' :: s) = '$' :: expand env s := by
  rw [expand, if_pos rfl]
  split
  · next heq =>
    rw [h] at heq
    cases heq
  · rfl

/-- **A reference is expanded to the value of the variable**, which is not looked at again. -/
theorem expand_referenceTo (hname : IsName name) (rest : List Char) :
    expand env (referenceTo name ++ rest) = variableValue env name ++ expand env rest := by
  have hread : reference? ('\x7b' :: (name ++ ['\x7d']) ++ rest) = some (name, rest) :=
    reference?_eq_some_iff.mpr ⟨hname, by simp⟩
  rw [referenceTo, List.cons_append, expand, if_pos rfl]
  split
  · next heq =>
    rw [hread] at heq
    cases heq
    rfl
  · next heq =>
    rw [hread] at heq
    cases heq

/-- No dollar sign stands within a reference, behind its head. -/
theorem dollar_not_mem (hname : IsName name) : '$' ∉ '\x7b' :: (name ++ ['\x7d']) := by
  have hword : '$' ∉ name := fun hmem => absurd (hname.isWordChar _ hmem) (by decide)
  simp [hword]

/-- **What has no reference stays as it is** before the next dollar sign: no reference begins in it
    and ends behind that sign. -/
theorem expand_append (hs : ¬ HasReference s) {t : List Char} (ht : ∀ c ∈ t.head?, c = '$') :
    expand env (s ++ t) = s ++ expand env t := by
  induction s with
  | nil => rfl
  | cons c s ih =>
    have hrest := ih fun h => hs (h.cons c)
    by_cases hc : c = '$'
    · subst hc
      have hnone : reference? (s ++ t) = none := by
        refine Option.eq_none_iff_forall_ne_some.mpr fun ⟨name, rest⟩ hread => ?_
        obtain ⟨hname, heq⟩ := reference?_eq_some_iff.mp hread
        rw [List.append_cons, ← List.cons_append] at heq
        obtain ⟨u, hbody, rfl⟩ | ⟨u, rfl, -⟩ := List.append_eq_append_iff.mp heq
        · cases u with
          | nil =>
            rw [List.append_nil] at hbody
            exact hs ⟨[], name, [], hname, by rw [← hbody]; simp [referenceTo]⟩
          | cons d u =>
            -- The dollar sign would stand in the reference.
            obtain rfl : d = '$' := ht d rfl
            exact dollar_not_mem hname (by rw [hbody]; simp)
        · exact hs ⟨[], name, u, hname, by simp [referenceTo]⟩
      rw [List.cons_append, expand_cons_of_none env hnone, hrest, List.cons_append]
    · rw [List.cons_append, expand_cons_of_ne env hc, hrest, List.cons_append]

/-- **A text without references stays as it is.** -/
theorem expand_eq_self (hs : ¬ HasReference s) : expand env s = s := by
  have h := expand_append env hs (t := []) (by simp)
  rwa [List.append_nil, expand_nil, List.append_nil] at h

end Expand

/-! ### Templates -/

/-- **References to variables with other texts before, between and behind them.**  No reference
    stands in these texts, as is the case if there is no dollar sign in them. -/
structure Template where
  first : List Char
  /-- The names of the variables, each with the text behind the reference. -/
  parts : List (List Char × List Char)
  isName : ∀ part ∈ parts, IsName part.1
  first_plain : ¬ HasReference first
  parts_plain : ∀ part ∈ parts, ¬ HasReference part.2

namespace Template

/-- A text for each name, with the texts behind them. -/
def fillParts (f : List Char → List Char) (parts : List (List Char × List Char)) : List Char :=
  parts.flatMap fun (name, behind) => f name ++ behind

/-- A template with a text in the place of each reference. -/
def fill (t : Template) (f : List Char → List Char) : List Char := t.first ++ fillParts f t.parts

/-- The text of a template. -/
def text (t : Template) : List Char := t.fill referenceTo

/-- A text of references begins with a dollar sign. -/
theorem head?_fillParts (parts : List (List Char × List Char)) :
    ∀ c ∈ (fillParts referenceTo parts).head?, c = '$' := by
  cases parts with
  | nil => simp [fillParts]
  | cons part parts => simp [fillParts, referenceTo]

/-- **Each reference is replaced once**: what is put in for one is not looked at again. -/
theorem expand_fillParts (env : Entries String) {parts : List (List Char × List Char)}
    (hnames : ∀ part ∈ parts, IsName part.1) (hplain : ∀ part ∈ parts, ¬ HasReference part.2) :
    expand env (fillParts referenceTo parts) = fillParts (variableValue env) parts := by
  induction parts with
  | nil => exact expand_nil env
  | cons part parts ih =>
    obtain ⟨hname, hnames⟩ := List.forall_mem_cons.mp hnames
    obtain ⟨hbehind, hplain⟩ := List.forall_mem_cons.mp hplain
    have hcons : ∀ f, fillParts f (part :: parts) = f part.1 ++ (part.2 ++ fillParts f parts) := by
      simp [fillParts]
    rw [hcons, hcons, expand_referenceTo env hname,
      expand_append env hbehind (head?_fillParts parts), ih hnames hplain]

/-- **The references of a template are expanded, and nothing else is.** -/
theorem expand_text (env : Entries String) (t : Template) :
    expand env t.text = t.fill (variableValue env) := by
  rw [text, fill, expand_append env t.first_plain (head?_fillParts t.parts),
    expand_fillParts env t.isName t.parts_plain, fill]

/-- A template with one more character in front. -/
def cons (c : Char) (t : Template) (h : ¬ HasReference (c :: t.first)) : Template :=
  { t with first := c :: t.first, first_plain := h }

/-- A character in front of a template becomes part of its first text. -/
theorem text_cons (c : Char) (t : Template) (h : ¬ HasReference (c :: t.first)) :
    (t.cons c h).text = c :: t.text := rfl

/-- **Every text is that of a template.** -/
theorem exists_text_eq (s : List Char) : ∃ t : Template, t.text = s := by
  -- The induction is along the expansion: at each place a reference begins or none does.
  induction s using expand.induct with
  | case1 => exact ⟨⟨[], [], by simp, not_hasReference_nil, by simp⟩, rfl⟩
  | case2 s name rest hread ih =>
    obtain ⟨hname, rfl⟩ := reference?_eq_some_iff.mp hread
    obtain ⟨t, rfl⟩ := ih
    refine ⟨⟨[], (name, t.first) :: t.parts, List.forall_mem_cons.mpr ⟨hname, t.isName⟩,
      not_hasReference_nil, List.forall_mem_cons.mpr ⟨t.first_plain, t.parts_plain⟩⟩, ?_⟩
    simp [text, fill, fillParts, referenceTo]
  | case3 s hnone ih =>
    obtain ⟨t, rfl⟩ := ih
    refine ⟨t.cons '$' fun h => ?_, text_cons '$' t _⟩
    obtain h | ⟨-, name, rest, hread⟩ := h.of_cons
    · exact t.first_plain h
    · obtain ⟨hname, hfirst⟩ := reference?_eq_some_iff.mp hread
      have hread : reference? t.text = some (name, rest ++ fillParts referenceTo t.parts) :=
        reference?_eq_some_iff.mpr ⟨hname, by simp [text, fill, hfirst]⟩
      rw [hnone] at hread
      cases hread
  | case4 c s hc ih =>
    obtain ⟨t, rfl⟩ := ih
    refine ⟨t.cons c fun h => ?_, text_cons c t _⟩
    obtain h | ⟨rfl, -⟩ := h.of_cons
    · exact t.first_plain h
    · exact hc rfl

end Template

/-! ### Values -/

namespace Json

/-- **A value becomes another one in which texts are expanded, and nothing else**: an array one with
    as many items, an object one with the same keys in the same order, and what is neither of them
    nor a text stays as it is. -/
inductive ExpandsTo (env : Entries String) : Json → Json → Prop where
  | str (s : String) : ExpandsTo env (.str s) (.str (String.ofList (Reckoner.expand env s.toList)))
  | arr {items items' : List Json} : items'.length = items.length →
    (∀ p ∈ items.zip items', ExpandsTo env p.1 p.2) → ExpandsTo env (.arr items) (.arr items')
  | obj {members members' : Members} : members'.keys = members.keys →
    (∀ p ∈ members.zip members', ExpandsTo env p.1.2 p.2.2) →
      ExpandsTo env (.obj members) (.obj members')
  | plain {v : Json} : (∀ s, v ≠ .str s) → (∀ items, v ≠ .arr items) →
    (∀ members, v ≠ .obj members) → ExpandsTo env v v

/-- What stands beside an item in the list of changed items is the changed item. -/
theorem of_mem_zip_map {α β : Type} {f : α → β} {l : List α} {p : α × β} (h : p ∈ l.zip (l.map f)) :
    p.1 ∈ l ∧ p.2 = f p.1 := by
  rw [← List.map_prod_left_eq_zip] at h
  obtain ⟨a, ha, rfl⟩ := List.mem_map.mp h
  exact ⟨ha, rfl⟩

/-- **A value that is expanded becomes such a value.** -/
theorem expandsTo_expand (env : Entries String) (v : Json) : ExpandsTo env v (v.expand env) := by
  induction v using byParts with
  | plain v harr hobj =>
    cases v with
    | str s => exact .str s
    | arr items => exact absurd rfl (harr items)
    | obj members => exact absurd rfl (hobj members)
    | null | bool | int | float => exact .plain nofun nofun nofun
  | arr items ih =>
    rw [expand_arr]
    refine .arr (List.length_map _) fun p hp => ?_
    obtain ⟨hmem, heq⟩ := of_mem_zip_map hp
    exact heq ▸ ih p.1 hmem
  | obj members ih =>
    rw [expand_obj]
    refine .obj (by simp [Entries.keys]) fun p hp => ?_
    obtain ⟨hmem, heq⟩ := of_mem_zip_map hp
    rw [heq]
    exact ih p.1 hmem

/-- No reference stands in any text within a value. -/
def IsPlain (v : Json) : Prop := ∀ s, Within (.str s) v → ¬ HasReference s.toList

/-- **A value without references stays as it is.** -/
theorem IsPlain.expand_eq (env : Entries String) {v : Json} (h : v.IsPlain) : v.expand env = v := by
  induction v using byParts with
  | plain v harr hobj =>
    cases v with
    | str s => rw [Json.expand, expand_eq_self env (h s .self), String.ofList_toList]
    | arr items => exact absurd rfl (harr items)
    | obj members => exact absurd rfl (hobj members)
    | null | bool | int | float => rfl
  | arr items ih =>
    have hitems : ∀ item ∈ items, item.expand env = item := fun item hitem =>
      ih item hitem fun s hs => h s (.item hitem hs)
    rw [expand_arr, List.map_congr_left hitems, List.map_id']
  | obj members ih =>
    have hvalues : ∀ e ∈ members, (e.1, e.2.expand env) = e := fun e he => by
      rw [ih e he fun s hs => h s (.member he hs)]
    rw [expand_obj, List.map_congr_left hvalues, List.map_id']

end Json

/-- **References are expanded once, and only in texts.**  A value becomes one of the same shape with
    its texts expanded.  In a text every reference becomes the value of its variable, or nothing if
    there is no such variable, and what stands between references stays as it is, which need not be
    without a dollar sign; every text is of this form.  So a value without references stays as it
    is. -/
theorem expand_once (env : Entries String) :
    (∀ v : Json, v.ExpandsTo env (v.expand env)) ∧
      (∀ t : Template, expand env t.text = t.fill (variableValue env)) ∧
      (∀ s, ∃ t : Template, t.text = s) ∧ (∀ s, '$' ∉ s → ¬ HasReference s) ∧
      ∀ v : Json, v.IsPlain → v.expand env = v :=
  ⟨Json.expandsTo_expand env, Template.expand_text env, Template.exists_text_eq,
    fun _ => not_hasReference_of_not_mem, fun _ hv => hv.expand_eq env⟩

/-- A reference to a variable whose value is like a reference, right before one to no variable; and
    a value without references. -/
theorem expand_once_adjacent :
    expand [("größe", "$\x7bA\x7d"), ("A", "x")] "a$\x7bgröße\x7d$\x7bB\x7d-".toList =
        "a$\x7bA\x7d-".toList ∧
      (Json.arr [.str "-", .null]).IsPlain ∧
      (Json.arr [.str "-", .null]).expand [("A", "x")] = .arr [.str "-", .null] := by
  have hplain : ∀ s ∈ ["a".toList, [], "-".toList], ¬ HasReference s := fun s hs =>
    not_hasReference_of_not_mem
      ((by decide : ∀ s ∈ ["a".toList, [], "-".toList], '$' ∉ s) s hs)
  let t : Template :=
    ⟨"a".toList, [("größe".toList, []), ("B".toList, "-".toList)],
      List.forall_mem_cons.mpr ⟨⟨by decide, List.all_eq_true.mp (by decide)⟩,
        List.forall_mem_singleton.mpr ⟨by decide, List.all_eq_true.mp (by decide)⟩⟩,
      hplain _ (by simp), List.forall_mem_cons.mpr ⟨hplain _ (by simp),
        List.forall_mem_singleton.mpr (hplain _ (by simp))⟩⟩
  have hvalue : (Json.arr [.str "-", .null]).IsPlain := by
    intro s hs
    obtain ⟨item, hitem, hs⟩ := (Json.within_arr_iff.mp hs).resolve_left (by simp)
    obtain rfl | rfl := List.mem_pair.mp hitem
    · cases hs
      exact hplain _ (by simp)
    · cases hs
  have htext := (expand_once [("größe", "$\x7bA\x7d"), ("A", "x")]).2.1 t
  have hkept := (expand_once [("A", "x")]).2.2.2.2 _ hvalue
  exact ⟨htext, hvalue, hkept⟩

end Reckoner
