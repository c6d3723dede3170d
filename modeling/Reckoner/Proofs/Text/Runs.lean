import Reckoner.Proofs.Query.Phrases

/-!
# Texts as runs

A text is a row of maximal runs of a class of characters, with characters of other kinds between
them.  What is changed run by run can be cut at any character outside the class, and what is changed
between the runs leaves them as they are.

* `runs` — the runs of a text, from the first one on.
* `byRuns` — induction on a text run by run.
* `mapRuns_append_cons` — changed runs, on either side of a character of another kind.
* `mapRuns_induction` — induction on a text along its changed runs.
* `mapRuns_eq_self`, `forall_mem_runs_mapRuns` — texts whose runs are left as they are.
* `runs_append_mapRuns`, `runs_trim` — changes between the runs.
* `squeeze_squeeze`, `squeeze_trim` — single spaces, once and for all.
-/

namespace Reckoner.Text

open Reckoner.Query

/-- The maximal runs of characters of a class in a text, from the first one on. -/
def runs (p : Char → Bool) (s : List Char) : List (List Char) :=
  (s.splitOnP fun c => !p c).filter (· ≠ [])

section Runs

variable {p : Char → Bool} {f : List Char → List Char} {c : Char}

/-! ### Cutting texts -/

/-- **Induction run by run**: a text is a run, or a run and a character of another kind before a
    text.  The runs may be empty. -/
@[elab_as_elim]
theorem byRuns (p : Char → Bool) {motive : List Char → Prop}
    (run : ∀ w, (∀ c ∈ w, p c = true) → motive w)
    (cut : ∀ w c s, (∀ d ∈ w, p d = true) → p c = false → motive s → motive (w ++ c :: s))
    (s : List Char) : motive s := by
  -- Along the text, the run `w` before it is collected until it is cut.
  suffices h : ∀ w, (∀ c ∈ w, p c = true) → motive (w ++ s) from h [] (by simp)
  induction s with
  | nil =>
    intro w hw
    rw [List.append_nil]
    exact run w hw
  | cons c s ih =>
    intro w hw
    cases hc : p c with
    | false => exact cut w c s hw hc (ih [] (by simp))
    | true =>
      rw [List.append_cons]
      exact ih (w ++ [c]) (List.forall_mem_append.mpr ⟨hw, by simpa using hc⟩)

/-- There are no runs in nothing. -/
@[simp] theorem runs_nil (p : Char → Bool) : runs p [] = [] := by
  rw [runs, List.splitOnP_nil]
  rfl

/-- **Runs on either side of a character of another kind.** -/
theorem runs_append_cons (hc : p c = false) (s t : List Char) :
    runs p (s ++ c :: t) = runs p s ++ runs p t := by
  rw [runs, List.splitOnP_append_cons s t (by simp [hc]), List.filter_append]
  rfl

/-- A character of another kind at the head begins no run. -/
theorem runs_cons (hc : p c = false) (s : List Char) : runs p (c :: s) = runs p s := by
  rw [← List.nil_append (c :: s), runs_append_cons hc, runs_nil, List.nil_append]

/-- A text of one run. -/
theorem runs_of_forall {w : List Char} (hw : ∀ c ∈ w, p c = true) (hne : w ≠ []) :
    runs p w = [w] := by
  rw [runs, List.splitOnP_eq_singleton fun c hc => by simp [hw c hc]]
  exact List.filter_cons_of_pos (by simpa using hne)

/-- A text without a run. -/
theorem runs_of_none {gap : List Char} (hgap : ∀ c ∈ gap, p c = false) : runs p gap = [] := by
  induction gap with
  | nil => exact runs_nil p
  | cons c gap ih =>
    obtain ⟨hc, hgap⟩ := List.forall_mem_cons.mp hgap
    rw [runs_cons hc, ih hgap]

/-- **Runs on either side of a gap.** -/
theorem runs_append_gap {gap : List Char} (hgap : ∀ c ∈ gap, p c = false) (hne : gap ≠ [])
    (s t : List Char) : runs p (s ++ (gap ++ t)) = runs p s ++ runs p t := by
  induction gap generalizing s with
  | nil => exact absurd rfl hne
  | cons c gap ih =>
    obtain ⟨hc, hgap⟩ := List.forall_mem_cons.mp hgap
    rw [List.cons_append, runs_append_cons hc]
    by_cases hnil : gap = []
    · rw [hnil, List.nil_append]
    · rw [← List.nil_append (gap ++ t), ih hgap hnil [], runs_nil, List.nil_append]

/-- A run is a part of the text, made of characters of the class. -/
theorem of_mem_runs {s w : List Char} (h : w ∈ runs p s) : (∀ c ∈ w, p c = true) ∧ w <:+: s := by
  have hrun : ∀ {v : List Char}, (∀ c ∈ v, p c = true) → w ∈ runs p v → w = v := by
    intro v hv h
    by_cases hne : v = []
    · rw [hne, runs_nil] at h
      cases h
    · rwa [runs_of_forall hv hne, List.mem_singleton] at h
  -- The runs behind the first one are found in the rest of the text.
  induction s using byRuns p with
  | run v hv =>
    obtain rfl := hrun hv h
    exact ⟨hv, List.infix_rfl⟩
  | cut v c s hv hc ih =>
    rw [runs_append_cons hc, List.mem_append] at h
    obtain h | h := h
    · obtain rfl := hrun hv h
      exact ⟨hv, (List.prefix_append w _).isInfix⟩
    · obtain ⟨hall, hpart⟩ := ih h
      exact ⟨hall, (hpart.trans (List.suffix_cons c s).isInfix).trans
        (List.suffix_append v _).isInfix⟩

/-- Runs before a text that begins with no such character. -/
theorem runs_append_of_head? {t : List Char} (ht : ∀ c ∈ t.head?, p c = false) (s : List Char) :
    runs p (s ++ t) = runs p s ++ runs p t := by
  cases t with
  | nil => simp
  | cons c t =>
    have hc : p c = false := ht c rfl
    rw [runs_append_cons hc, runs_cons hc]

/-- **One more character of the class at the end** belongs to the last run or is one. -/
theorem of_mem_runs_concat (hc : p c = true) {s w : List Char} (h : w ∈ runs p (s ++ [c])) :
    w ∈ runs p s ∨ ∃ v, w = v ++ [c] := by
  induction s using byRuns p with
  | run v hv =>
    have hall : ∀ d ∈ v ++ [c], p d = true :=
      List.forall_mem_append.mpr ⟨hv, List.forall_mem_singleton.mpr hc⟩
    rw [runs_of_forall hall (by simp), List.mem_singleton] at h
    exact .inr ⟨v, h⟩
  | cut v d s hv hd ih =>
    rw [List.append_assoc, List.cons_append, runs_append_cons hd, List.mem_append] at h
    rw [runs_append_cons hd, List.mem_append]
    obtain h | h := h
    · exact .inl (.inl h)
    · exact (ih h).imp_left .inr

/-! ### Changed runs -/

/-- A run that is under way ends at a character of another kind. -/
theorem mapRunsFrom_append_cons (hc : p c = false) (run s t : List Char) :
    mapRunsFrom p f run (s ++ c :: t) = mapRunsFrom p f run s ++ c :: mapRuns p f t := by
  induction s generalizing run with
  | nil =>
    rw [List.nil_append, mapRunsFrom.eq_2, if_neg (by simp [hc]), mapRunsFrom]
    rfl
  | cons d s ih =>
    rw [List.cons_append, mapRunsFrom, mapRunsFrom]
    split_ifs with hd
    · exact ih (d :: run)
    · rw [ih [], List.append_assoc, List.cons_append]

/-- **Changed runs on either side of a character of another kind.** -/
theorem mapRuns_append_cons (hc : p c = false) (s t : List Char) :
    mapRuns p f (s ++ c :: t) = mapRuns p f s ++ c :: mapRuns p f t :=
  mapRunsFrom_append_cons hc [] s t

/-- A character of another kind at the head is left as it is. -/
theorem mapRuns_cons_of_not (hc : p c = false) (s : List Char) :
    mapRuns p f (c :: s) = c :: mapRuns p f s :=
  mapRuns_append_cons hc [] s

/-- Changed runs behind a text that ends with no such character. -/
theorem mapRuns_append_of_getLast? {s : List Char} (hs : ∀ c ∈ s.getLast?, p c = false)
    (t : List Char) : mapRuns p f (s ++ t) = mapRuns p f s ++ mapRuns p f t := by
  obtain rfl | ⟨s, c, rfl⟩ := List.eq_nil_or_concat' s
  · rfl
  · have hc : p c = false := hs c List.getLast?_concat
    rw [← List.append_cons, mapRuns_append_cons hc, mapRuns_append_cons hc, mapRuns_nil,
      ← List.append_cons]

/-- A run that is the whole text. -/
theorem mapRuns_of_forall {w : List Char} (hw : ∀ c ∈ w, p c = true) (hne : w ≠ []) :
    mapRuns p f w = f w := by
  -- Characters of the class are collected in reverse, and the end of the text changes them.
  have hrun : ∀ run, mapRunsFrom p f run w = changedRun f (w.reverse ++ run) := by
    clear hne
    induction w with
    | nil => exact fun run => rfl
    | cons c w ih =>
      intro run
      obtain ⟨hc, hw⟩ := List.forall_mem_cons.mp hw
      rw [mapRunsFrom, if_pos hc, ih hw, List.reverse_cons, List.append_assoc]
      rfl
  rw [mapRuns, hrun, List.append_nil]
  cases hrev : w.reverse with
  | nil => exact absurd (List.reverse_eq_nil_iff.mp hrev) hne
  | cons d run => rw [changedRun, ← hrev, List.reverse_reverse]

/-- **Induction along changed runs**: what holds of the empty text, of every run with what it is
    changed to, and of two texts with a character of another kind between them, holds of a text with
    what it is changed to. -/
theorem mapRuns_induction {motive : List Char → List Char → Prop} (nil : motive [] [])
    (run : ∀ w, w ≠ [] → (∀ c ∈ w, p c = true) → motive w (f w))
    (cut : ∀ c, p c = false → ∀ w w' s s', motive w w' → motive s s' →
      motive (w ++ c :: s) (w' ++ c :: s')) (s : List Char) : motive s (mapRuns p f s) := by
  -- A run may be empty, and then nothing is changed.
  have hrun : ∀ {w}, (∀ c ∈ w, p c = true) → motive w (mapRuns p f w) := by
    intro w hw
    by_cases hne : w = []
    · rw [hne, mapRuns_nil]
      exact nil
    · rw [mapRuns_of_forall hw hne]
      exact run w hne hw
  induction s using byRuns p with
  | run w hw => exact hrun hw
  | cut w c s hw hc ih =>
    rw [mapRuns_append_cons hc]
    exact cut c hc w _ s _ (hrun hw) ih

/-- **A text whose runs are left as they are is left as it is.** -/
theorem mapRuns_eq_self {s : List Char} (h : ∀ w ∈ runs p s, f w = w) : mapRuns p f s = s := by
  refine mapRuns_induction (motive := fun s s' => (∀ w ∈ runs p s, f w = w) → s' = s)
    (fun _ => rfl) (fun w hne hw hfix => ?_) (fun c hc w w' s s' ihw ihs hfix => ?_) s h
  · rw [runs_of_forall hw hne, List.forall_mem_singleton] at hfix
    exact hfix
  · rw [runs_append_cons hc, List.forall_mem_append] at hfix
    rw [ihw hfix.1, ihs hfix.2]

/-- **The runs of a text with changed runs** are those of what the runs are changed to. -/
theorem forall_mem_runs_mapRuns {Q : List Char → Prop}
    (hf : ∀ w, w ≠ [] → (∀ c ∈ w, p c = true) → ∀ v ∈ runs p (f w), Q v) (s : List Char) :
    ∀ v ∈ runs p (mapRuns p f s), Q v := by
  refine mapRuns_induction (motive := fun _ s' => ∀ v ∈ runs p s', Q v) (by simp) hf
    (fun c hc w w' s s' ihw ihs => ?_) s
  rw [runs_append_cons hc, List.forall_mem_append]
  exact ⟨ihw, ihs⟩

/-- **The characters of a text with changed runs** are its own and those of the changed runs. -/
theorem forall_mem_mapRuns {P : Char → Prop} {s : List Char} (hs : ∀ c ∈ s, P c)
    (hf : ∀ w, (∀ c ∈ w, P c) → ∀ c ∈ f w, P c) : ∀ c ∈ mapRuns p f s, P c := by
  refine mapRuns_induction (motive := fun s s' => (∀ c ∈ s, P c) → ∀ c ∈ s', P c)
    (fun h => h) (fun w _ _ => hf w) (fun c _ w w' s s' ihw ihs hall => ?_) s hs
  obtain ⟨hw, hrest⟩ := List.forall_mem_append.mp hall
  obtain ⟨hc, hs⟩ := List.forall_mem_cons.mp hrest
  exact List.forall_mem_append.mpr ⟨ihw hw, List.forall_mem_cons.mpr ⟨hc, ihs hs⟩⟩

/-- A text is as long as it was at most if its runs are. -/
theorem length_mapRuns_le (hf : ∀ w, w ≠ [] → (f w).length ≤ w.length) (s : List Char) :
    (mapRuns p f s).length ≤ s.length := by
  refine mapRuns_induction (motive := fun s s' => s'.length ≤ s.length) (Nat.le_refl _)
    (fun w hne _ => hf w hne) (fun c _ w w' s s' ihw ihs => ?_) s
  simp only [List.length_append, List.length_cons]
  omega

/-! ### Changes between the runs -/

/-- A text whose characters are left as they are is left as it is. -/
theorem map_eq_self {g : Char → Char} {s : List Char} (h : ∀ c ∈ s, g c = c) : s.map g = s :=
  (List.map_congr_left h).trans (List.map_id s)

/-- **What is changed between the runs** leaves them as they are, as long as something stays
    there. -/
theorem runs_append_mapRuns {q : Char → Bool} (hq : ∀ c, q c = true → p c = false)
    (hf : ∀ w, w ≠ [] → (∀ c ∈ w, q c = true) → f w ≠ [] ∧ ∀ c ∈ f w, p c = false)
    (s t : List Char) : runs p (s ++ mapRuns q f t) = runs p (s ++ t) := by
  -- A run may begin before the changed text and go on in it, or in it and go on behind it.
  have hall := mapRuns_induction (p := q) (f := f)
    (motive := fun t t' => ∀ s u, runs p (s ++ (t' ++ u)) = runs p (s ++ (t ++ u)))
    (fun _ _ => rfl) (fun w hne hw s u => ?_) (fun c _ w w' t t' ihw iht s u => ?_) t s []
  · rwa [List.append_nil, List.append_nil] at hall
  · obtain ⟨hchanged, hnone⟩ := hf w hne hw
    rw [runs_append_gap hnone hchanged, runs_append_gap (fun c hc => hq c (hw c hc)) hne]
  · simp only [List.append_assoc, List.cons_append]
    rw [ihw, ← List.append_assoc, List.append_cons, iht, ← List.append_cons, List.append_assoc]

/-- **Changes between the runs** leave them as they are, if no run of the other class is lost and
    none becomes part of a run. -/
theorem runs_mapRuns {q : Char → Bool} (hq : ∀ c, q c = true → p c = false)
    (hf : ∀ w, w ≠ [] → (∀ c ∈ w, q c = true) → f w ≠ [] ∧ ∀ c ∈ f w, p c = false)
    (s : List Char) : runs p (mapRuns q f s) = runs p s :=
  runs_append_mapRuns hq hf [] s

/-- What is changed outside the runs, character by character. -/
theorem runs_map {g : Char → Char} (hclass : ∀ c, p (g c) = p c)
    (hfix : ∀ c, p c = true → g c = c) (s : List Char) : runs p (s.map g) = runs p s := by
  have hrun : ∀ {w : List Char}, (∀ c ∈ w, p c = true) → w.map g = w := fun hw =>
    map_eq_self fun c hc => hfix c (hw c hc)
  induction s using byRuns p with
  | run w hw => rw [hrun hw]
  | cut w c s hw hc ih =>
    rw [List.map_append, List.map_cons, runs_append_cons (by rw [hclass, hc]), hrun hw, ih,
      runs_append_cons hc]

end Runs

/-! ### Blanks at the ends -/

/-- Of nothing but blanks nothing is left. -/
theorem trimStart_of_blanks {s : List Char} (hs : ∀ c ∈ s, isBlank c = true) : trimStart s = [] :=
  List.dropWhile_eq_nil_iff.mpr hs

/-- Neither is anything left from the end. -/
theorem trimEnd_of_blanks {s : List Char} (hs : ∀ c ∈ s, isBlank c = true) : trimEnd s = [] :=
  List.rdropWhile_eq_nil_iff.mpr hs

/-- A text is the rest and the blanks at its end. -/
theorem exists_blanks_behind (s : List Char) :
    ∃ blanks, trimEnd s ++ blanks = s ∧ ∀ c ∈ blanks, isBlank c = true :=
  ⟨s.rtakeWhile isBlank, List.rdropWhile_append_rtakeWhile, fun _ hc => List.mem_rtakeWhile_imp hc⟩

section Cut

variable {c : Char} (hc : isBlank c = false)

include hc

/-- Trimming the head does not reach behind a character that is no blank. -/
theorem trimStart_append_cons (s t : List Char) :
    trimStart (s ++ c :: t) = trimStart s ++ c :: t := by
  rw [trimStart, List.dropWhile_append]
  split_ifs with hnil
  · rw [trimStart, List.isEmpty_iff.mp hnil, List.dropWhile_cons_of_neg (by simp [hc])]
    rfl
  · rfl

/-- Trimming the end does not reach before one. -/
theorem trimEnd_append_cons (s t : List Char) : trimEnd (s ++ c :: t) = s ++ c :: trimEnd t := by
  have hrev := trimStart_append_cons hc t.reverse s.reverse
  unfold trimStart at hrev
  rw [trimEnd, List.reverse_append, List.reverse_cons, List.append_assoc, List.singleton_append,
    hrev]
  simp [trimEnd]

/-- So such a character at the head stays there. -/
theorem trimEnd_cons (s : List Char) : trimEnd (c :: s) = c :: trimEnd s :=
  trimEnd_append_cons hc [] s

/-- With such a character at the head only the end is trimmed. -/
theorem trim_cons (s : List Char) : trim (c :: s) = c :: trimEnd s := by
  rw [trim, trimStart_cons_of_not_blank hc, trimEnd_cons hc]

/-- The ends of a text on either side of a character that is no blank. -/
theorem trim_append_cons (s t : List Char) :
    trim (s ++ c :: t) = trimStart s ++ c :: trimEnd t := by
  rw [trim, trimStart_append_cons hc, trimEnd_append_cons hc]

end Cut

/-- It does not matter which end is trimmed first. -/
theorem trimStart_trimEnd (s : List Char) : trimStart (trimEnd s) = trim s := by
  by_cases h : ∀ c ∈ s, isBlank c = true
  · rw [trim, trimStart_of_blanks h, trimEnd_of_blanks h]
    rfl
  · push Not at h
    obtain ⟨c, hc, hblank⟩ := h
    obtain ⟨u, t, rfl⟩ := List.append_of_mem hc
    have hblank := Bool.eq_false_iff.mpr hblank
    rw [trim_append_cons hblank, trimEnd_append_cons hblank, trimStart_append_cons hblank]

/-- **What is trimmed is not trimmed again.** -/
theorem trim_trim (s : List Char) : trim (trim s) = trim s := by
  have hstart : trimStart (trim s) = trim s := by
    rw [← trimStart_trimEnd, trimStart, trimStart, List.dropWhile_idempotent]
  have hend : trimEnd (trim s) = trim s := List.rdropWhile_idempotent isBlank (trimStart s)
  rw [trim, hstart, hend]

/-- Blanks at the ends of a text are no runs of a class of other characters. -/
theorem runs_trim {p : Char → Bool} (hp : ∀ c, isBlank c = true → p c = false) (s : List Char) :
    runs p (trim s) = runs p s := by
  have hstart : ∀ t, runs p (trimStart t) = runs p t := by
    intro t
    induction t using byRuns isBlank with
    | run w hw => rw [trimStart_of_blanks hw, runs_nil, runs_of_none fun c hc => hp c (hw c hc)]
    | cut w c t hw hc _ =>
      by_cases hne : w = []
      · rw [hne, List.nil_append, trimStart_cons_of_not_blank hc]
      · -- Blanks in front of a text are between its runs.
        have hgap := runs_append_gap (fun c h => hp c (hw c h)) hne [] (c :: t)
        rw [List.nil_append, runs_nil, List.nil_append] at hgap
        rw [trimStart_append_cons hc, trimStart_of_blanks hw, hgap, List.nil_append]
  obtain ⟨blanks, hs, hblanks⟩ := exists_blanks_behind (trimStart s)
  have hnone : ∀ c ∈ blanks, p c = false := fun c hc => hp c (hblanks c hc)
  have hhead : ∀ c ∈ blanks.head?, p c = false := fun c hc => hnone c (List.mem_of_mem_head? hc)
  rw [trim, ← hstart s]
  conv_rhs => rw [← hs, runs_append_of_head? hhead, runs_of_none hnone, List.append_nil]

/-! ### Single spaces -/

/-- Squeezed blanks are blanks. -/
theorem isBlank_of_mem_squeeze {s : List Char} (hs : ∀ c ∈ s, isBlank c = true) :
    ∀ c ∈ squeeze s, isBlank c = true := by
  by_cases hne : s = []
  · simp [hne]
  · rw [squeeze, mapRuns_of_forall hs hne]
    simp [show isBlank ' ' = true by decide]

/-- A character that is no blank cuts what is squeezed. -/
theorem squeeze_append_cons {c : Char} (hc : isBlank c = false) (s t : List Char) :
    squeeze (s ++ c :: t) = squeeze s ++ c :: squeeze t :=
  mapRuns_append_cons hc s t

/-- **Single spaces stay single spaces.** -/
theorem squeeze_squeeze (s : List Char) : squeeze (squeeze s) = squeeze s := by
  have hspace : runs isBlank [' '] = [[' ']] := runs_of_forall (by simp; decide) (by simp)
  have hrun := forall_mem_runs_mapRuns (p := isBlank) (f := fun _ => [' '])
    (Q := fun w => [' '] = w) (fun _ _ _ => by simp [hspace]) s
  exact mapRuns_eq_self hrun

/-- It does not matter whether the head is trimmed before or after blanks are squeezed. -/
theorem squeeze_trimStart (s : List Char) : squeeze (trimStart s) = trimStart (squeeze s) := by
  induction s using byRuns isBlank with
  | run w hw =>
    rw [trimStart_of_blanks hw, trimStart_of_blanks (isBlank_of_mem_squeeze hw), squeeze_nil]
  | cut w c s hw hc _ =>
    have hhead := squeeze_append_cons hc [] s
    rw [squeeze_append_cons hc, trimStart_append_cons hc, trimStart_append_cons hc,
      trimStart_of_blanks hw, trimStart_of_blanks (isBlank_of_mem_squeeze hw), hhead, squeeze_nil]

/-- Nor does it for the end. -/
theorem squeeze_trimEnd (s : List Char) : squeeze (trimEnd s) = trimEnd (squeeze s) := by
  obtain ⟨blanks, hs, hblanks⟩ := exists_blanks_behind s
  have hend := endsInText_trimEnd s
  generalize trimEnd s = t at hs hend ⊢
  subst hs
  have hnone := trimEnd_of_blanks (isBlank_of_mem_squeeze hblanks)
  obtain rfl | ⟨t, c, rfl⟩ := List.eq_nil_or_concat' t
  · rw [List.nil_append, hnone, squeeze_nil]
  · have hc : isBlank c = false := hend c List.getLast?_concat
    rw [← List.append_cons, squeeze_append_cons hc, squeeze_append_cons hc, trimEnd_append_cons hc,
      hnone, squeeze_nil]

/-- **Single spaces between the ends of a text.** -/
theorem squeeze_trim (s : List Char) : squeeze (trim s) = trim (squeeze s) := by
  rw [trim, squeeze_trimEnd, squeeze_trimStart, trim]

end Reckoner.Text
