import Mathlib.Data.List.TakeWhile
import Mathlib.Tactic.IntervalCases
import Reckoner.Proofs.Number.Finite
import Reckoner.Proofs.Number.Wholes

/-!
# Words are read back

The words of a number are read by their own tables, which give every word its value.  A number is
read from its highest scale on, and every scale divides what is left into the groups above it and
below it.

    number := "Zero" | "Negative"? groups
    groups := (chunk "Billion")? (chunk "Million")? (chunk "Thousand")? chunk?   (not empty)
    chunk  := unit "Hundred" tens? | tens
    tens   := unit | teen | ten unit?

* `readTens?`, `readChunk?`, `readGroups?`, `readWords?` — the number that words stand for.
* `readChunk?_chunkWords` — a number below one thousand is read back.
* `groupWords_succ` — the words of the highest group of digits come first.
* `Spelt`, `Spelt.scaled` — words that are read as a number, and one scale more above them.
* `spelt_groupWords`, `readWords?_wholeWords` — a whole number is read back from its words.
* `spelled_readsBack` — what is spelled is read as the number that is shown.
-/

namespace Reckoner.Number

/-! ### Reading words -/

/-- The values of the ones. -/
def unitValues : List (String × Nat) :=
  [("One", 1), ("Two", 2), ("Three", 3), ("Four", 4), ("Five", 5), ("Six", 6), ("Seven", 7),
   ("Eight", 8), ("Nine", 9)]

/-- The values of the teens. -/
def teenValues : List (String × Nat) :=
  [("Ten", 10), ("Eleven", 11), ("Twelve", 12), ("Thirteen", 13), ("Fourteen", 14),
   ("Fifteen", 15), ("Sixteen", 16), ("Seventeen", 17), ("Eighteen", 18), ("Nineteen", 19)]

/-- The values of the tens. -/
def tenValues : List (String × Nat) :=
  [("Twenty", 20), ("Thirty", 30), ("Forty", 40), ("Fifty", 50), ("Sixty", 60), ("Seventy", 70),
   ("Eighty", 80), ("Ninety", 90)]

/-- The values of the scales, the highest first. -/
def scaleValues : List (String × Nat) :=
  [("Billion", 1000000000), ("Million", 1000000), ("Thousand", 1000)]

/-- The number below one hundred that words stand for: ones, teens, or tens perhaps with ones. -/
def readTens? : List String → Option Nat
  | [w] => (unitValues ++ teenValues ++ tenValues).lookup w
  | [w, v] => (tenValues.lookup w).bind fun ten => (unitValues.lookup v).map (ten + ·)
  | _ => none

/-- The number below one thousand that words stand for. -/
def readChunk? : List String → Option Nat
  | w :: h :: rest =>
    if h = "Hundred" then
      (unitValues.lookup w).bind fun unit =>
        if rest = [] then some (100 * unit) else (readTens? rest).map (100 * unit + ·)
    else readTens? (w :: h :: rest)
  | words => readTens? words

/-- The number that words with the given scales stand for.  Before a scale stands the number of its
    groups, and behind it what has lower scales only. -/
def readGroups? : (scales : List (String × Nat)) → List String → Option Nat
  | [], words => readChunk? words
  | (scale, size) :: lower, words =>
    match words.dropWhile (· ≠ scale) with
    | [] => readGroups? lower words
    | _ :: rest =>
      (readChunk? (words.takeWhile (· ≠ scale))).bind fun chunk =>
        if rest = [] then some (size * chunk) else (readGroups? lower rest).map (size * chunk + ·)

/-- The words of a text, which are divided by single spaces. -/
def splitWords (text : String) : List String := (text.toList.splitOn ' ').map String.ofList

/-- The whole number that a text in words stands for. -/
def readWords? (text : String) : Option Int :=
  match splitWords text with
  | [] => none
  | w :: words =>
    if w = "Zero" ∧ words = [] then some 0
    else if w = "Negative" then (readGroups? scaleValues words).map fun n => -(n : Int)
    else (readGroups? scaleValues (w :: words)).map (↑)

/-! ### Numbers below one thousand -/

/-- The words of numbers below one hundred. -/
theorem read?_underHundred : ∀ n < 100, 0 < n →
    underHundred n ≠ [] ∧ readTens? (underHundred n) = some n ∧
      readChunk? (underHundred n) = some n := by decide

theorem lookup_smallWords : ∀ n < 10, 0 < n →
    unitValues.lookup (smallWords.getD n "") = some n := by decide

/-- **A number below one thousand is read back.** -/
theorem readChunk?_chunkWords {n : Nat} (hpos : 0 < n) (hlt : n < 1000) :
    readChunk? (chunkWords n) = some n := by
  unfold chunkWords
  split_ifs with hsmall
  · exact (read?_underHundred n hsmall hpos).2.2
  · rw [readChunk?, if_pos rfl, lookup_smallWords (n / 100) (by omega) (by omega), Option.bind_some]
    by_cases hrest : n % 100 = 0
    · rw [hrest, if_pos (by rfl)]
      exact congrArg some (by omega)
    · obtain ⟨hne, htens, -⟩ := read?_underHundred (n % 100) (by omega) (by omega)
      rw [if_neg hne, htens, Option.map_some]
      exact congrArg some (by omega)

theorem chunkWords_ne_nil {n : Nat} (hpos : 0 < n) : chunkWords n ≠ [] := by
  unfold chunkWords
  split_ifs with hsmall
  · exact (read?_underHundred n hsmall hpos).1
  · exact List.cons_ne_nil _ _

/-! ### Groups of digits -/

/-- **The words of the highest group of digits come first.** -/
theorem groupWords_succ (j scale n : Nat) :
    groupWords (j + 1) scale n =
      scaledWords (n / 1000 ^ j % 1000) (scale + j) ++ groupWords j scale (n % 1000 ^ j) := by
  induction j generalizing scale n with
  | zero => simp [groupWords]
  | succ j ih =>
    -- The group below the highest is cut off the same way in the number and in its remainder.
    have hhigh : n / 1000 / 1000 ^ j = n / 1000 ^ (j + 1) := by
      rw [Nat.div_div_eq_div_mul, ← Nat.pow_succ']
    have hmiddle : n % 1000 ^ (j + 1) / 1000 = n / 1000 % 1000 ^ j := by
      rw [Nat.pow_succ', Nat.mod_mul_right_div_self]
    have hlow : n % 1000 ^ (j + 1) % 1000 = n % 1000 := by
      rw [Nat.pow_succ', Nat.mod_mul_right_mod]
    calc groupWords (j + 2) scale n
        = groupWords (j + 1) (scale + 1) (n / 1000) ++ scaledWords (n % 1000) scale := rfl
      _ = scaledWords (n / 1000 ^ (j + 1) % 1000) (scale + (j + 1)) ++
            (groupWords j (scale + 1) (n / 1000 % 1000 ^ j) ++ scaledWords (n % 1000) scale) := by
          rw [ih, hhigh, List.append_assoc, Nat.add_assoc, Nat.add_comm 1 j]
      _ = scaledWords (n / 1000 ^ (j + 1) % 1000) (scale + (j + 1)) ++
            groupWords (j + 1) scale (n % 1000 ^ (j + 1)) := by
          rw [groupWords, hmiddle, hlow]

/-- The words of numbers below one thousand. -/
def chunkLexicon : List String := "Hundred" :: (smallWords ++ tensWords)

/-- What is looked up beyond a table is the empty word, which the tables have, too. -/
theorem getD_mem_of_mem {table : List String} (h : "" ∈ table) (k : Nat) :
    table.getD k "" ∈ table := by
  rw [List.getD_eq_getElem?_getD]
  cases hk : table[k]? with
  | none => exact h
  | some w => exact List.mem_of_getElem? hk

theorem getD_smallWords_mem (k : Nat) : smallWords.getD k "" ∈ chunkLexicon :=
  List.mem_cons_of_mem _ (List.mem_append_left _ (getD_mem_of_mem (by decide) k))

theorem getD_tensWords_mem (k : Nat) : tensWords.getD k "" ∈ chunkLexicon :=
  List.mem_cons_of_mem _ (List.mem_append_right _ (getD_mem_of_mem (by decide) k))

theorem mem_chunkLexicon_of_mem_underHundred {n : Nat} {w : String} (h : w ∈ underHundred n) :
    w ∈ chunkLexicon := by
  unfold underHundred at h
  split_ifs at h <;> simp only [List.mem_cons, List.not_mem_nil, or_false] at h
  · exact h ▸ getD_smallWords_mem n
  · exact h ▸ getD_tensWords_mem _
  · obtain rfl | rfl := h
    · exact getD_tensWords_mem _
    · exact getD_smallWords_mem _

theorem mem_chunkLexicon_of_mem {n : Nat} {w : String} (h : w ∈ chunkWords n) :
    w ∈ chunkLexicon := by
  unfold chunkWords at h
  split_ifs at h
  · exact mem_chunkLexicon_of_mem_underHundred h
  · obtain rfl | rfl | h := List.mem_cons.mp h |>.imp_right List.mem_cons.mp
    · exact getD_smallWords_mem _
    · exact List.mem_cons_self
    · exact mem_chunkLexicon_of_mem_underHundred h

/-- Words with the given scales that are read as a number.  Zero has none. -/
structure Spelt (scales : List (String × Nat)) (words : List String) (n : Nat) : Prop where
  eq_nil : n = 0 → words = []
  ne_nil : 0 < n → words ≠ []
  read_eq : 0 < n → readGroups? scales words = some n
  known : ∀ w ∈ words, w ∈ chunkLexicon ∨ w ∈ scales.map Prod.fst

/-- The words of the lowest group of digits. -/
theorem spelt_scaledWords {n : Nat} (hlt : n < 1000) : Spelt [] (scaledWords n 0) n := by
  unfold scaledWords
  simp only [if_true, List.append_nil]
  refine ⟨fun hzero => if_pos hzero, fun hpos => ?_, fun hpos => ?_, fun w hw => ?_⟩
  · rw [if_neg hpos.ne']
    exact chunkWords_ne_nil hpos
  · rw [if_neg hpos.ne']
    exact readChunk?_chunkWords hpos hlt
  · split_ifs at hw
    · cases hw
    · exact .inl (mem_chunkLexicon_of_mem hw)

/-- Words without a scale are read by the lower ones. -/
theorem readGroups?_of_not_mem {lower : List (String × Nat)} {words : List String} {scale : String}
    {size : Nat} (h : scale ∉ words) :
    readGroups? ((scale, size) :: lower) words = readGroups? lower words := by
  have hdrop : words.dropWhile (· ≠ scale) = [] := by
    rw [List.dropWhile_eq_nil_iff]
    rintro w hw
    exact decide_eq_true (ne_of_mem_of_not_mem hw h)
  rw [readGroups?, hdrop]

/-- A scale divides words into its group before it and what has lower scales behind it. -/
theorem readGroups?_append {lower : List (String × Nat)} {chunk words : List String}
    {scale : String} {size : Nat} (h : scale ∉ chunk) :
    readGroups? ((scale, size) :: lower) (chunk ++ scale :: words) =
      (readChunk? chunk).bind fun c =>
        if words = [] then some (size * c) else (readGroups? lower words).map (size * c + ·) := by
  have hbefore : ∀ w ∈ chunk, decide (w ≠ scale) = true :=
    fun w hw => decide_eq_true (ne_of_mem_of_not_mem hw h)
  have hdrop : (chunk ++ scale :: words).dropWhile (· ≠ scale) = scale :: words := by
    rw [List.dropWhile_append_of_pos hbefore, List.dropWhile_cons_of_neg (by simp)]
  have htake : (chunk ++ scale :: words).takeWhile (· ≠ scale) = chunk := by
    rw [List.takeWhile_append_of_pos hbefore, List.takeWhile_cons_of_neg (by simp),
      List.append_nil]
  rw [readGroups?, hdrop]
  simp only [htake]

/-- **One scale more**: the words of a group of digits and its scale stand before words with lower
    scales. -/
theorem Spelt.scaled {lower : List (String × Nat)} {words : List String} {n c k size : Nat}
    (h : Spelt lower words n) (hc : c < 1000) (hk : k ≠ 0) (hsize : 0 < size)
    (hscale : scaleWords.getD k "" ∉ chunkLexicon ++ lower.map Prod.fst) :
    Spelt ((scaleWords.getD k "", size) :: lower) (scaledWords c k ++ words) (size * c + n) := by
  unfold scaledWords
  rw [if_neg hk]
  generalize scaleWords.getD k "" = scale at hscale ⊢
  -- The scale is neither in its group nor among the words with lower scales.
  rw [List.mem_append, not_or] at hscale
  have hlower : scale ∉ words := fun hmem => (h.known scale hmem).elim hscale.1 hscale.2
  have hchunk : scale ∉ chunkWords c := fun hmem => hscale.1 (mem_chunkLexicon_of_mem hmem)
  have hknown : ∀ w ∈ words, w ∈ chunkLexicon ∨ w ∈ ((scale, size) :: lower).map Prod.fst :=
    fun w hw => (h.known w hw).imp_right (List.mem_cons_of_mem _)
  by_cases hzero : c = 0
  · subst hzero
    simp only [if_true, List.nil_append, Nat.mul_zero, Nat.zero_add]
    exact ⟨h.eq_nil, h.ne_nil, fun hpos => (readGroups?_of_not_mem hlower).trans (h.read_eq hpos),
      hknown⟩
  · have hpos : 0 < c := Nat.pos_of_ne_zero hzero
    have hvalue : 0 < size * c := Nat.mul_pos hsize hpos
    have hwords : chunkWords c ++ [scale] ++ words = chunkWords c ++ scale :: words := by
      rw [List.append_assoc, List.singleton_append]
    rw [if_neg hzero, hwords]
    refine ⟨fun h => by omega, fun _ => by simp, fun _ => ?_, ?_⟩
    · rw [readGroups?_append hchunk, readChunk?_chunkWords hpos hc, Option.bind_some]
      obtain rfl | hn := Nat.eq_zero_or_pos n
      · rw [if_pos (h.eq_nil rfl), Nat.add_zero]
      · rw [if_neg (h.ne_nil hn), h.read_eq hn, Option.map_some]
    · refine List.forall_mem_append.mpr ⟨fun w hw => .inl (mem_chunkLexicon_of_mem hw), ?_⟩
      exact List.forall_mem_cons.mpr ⟨.inr List.mem_cons_self, hknown⟩

/-- The scales up to a power of one thousand, the highest first. -/
theorem drop_scaleValues {j : Nat} (hj : j < 3) :
    scaleValues.drop (2 - j) =
      (scaleWords.getD (j + 1) "", 1000 ^ (j + 1)) :: scaleValues.drop (3 - j) := by
  interval_cases j <;> rfl

/-- **The words of groups of digits are read back.** -/
theorem spelt_groupWords {j n : Nat} (hj : j ≤ 3) (hn : n < 1000 ^ (j + 1)) :
    Spelt (scaleValues.drop (3 - j)) (groupWords (j + 1) 0 n) n := by
  induction j generalizing n with
  | zero =>
    have hn : n < 1000 := hn
    rw [groupWords_succ, pow_zero, Nat.div_one, Nat.mod_eq_of_lt hn]
    simpa [groupWords, scaleValues] using spelt_scaledWords hn
  | succ j ih =>
    have hpow : 0 < 1000 ^ (j + 1) := Nat.pow_pos (by decide)
    have hhigh : n / 1000 ^ (j + 1) < 1000 := by
      rw [Nat.div_lt_iff_lt_mul hpow, ← Nat.pow_succ']
      exact hn
    have hscale : ∀ j < 3, scaleWords.getD (j + 1) "" ∉
        chunkLexicon ++ (scaleValues.drop (3 - j)).map Prod.fst := by decide
    -- The words of the lower groups are read before the highest one is put in front of them.
    have hlow := ih (n := n % 1000 ^ (j + 1)) (by omega) (Nat.mod_lt n hpow)
    have hnext := hlow.scaled hhigh (Nat.succ_ne_zero j) hpow (hscale j (by omega))
    rw [Nat.div_add_mod] at hnext
    rw [groupWords_succ, Nat.mod_eq_of_lt hhigh, Nat.zero_add,
      show 3 - (j + 1) = 2 - j by omega, drop_scaleValues (by omega)]
    exact hnext

/-! ### Whole numbers -/

/-- The words of groups of digits have no space in them, and they are no other words. -/
theorem Spelt.ne_of_mem {words : List String} {n : Nat} (h : Spelt scaleValues words n) :
    ∀ w ∈ words, w ≠ "Zero" ∧ w ≠ "Negative" ∧ ' ' ∉ w.toList := by
  have hlisted : ∀ w ∈ chunkLexicon ++ scaleValues.map Prod.fst,
      w ≠ "Zero" ∧ w ≠ "Negative" ∧ ' ' ∉ w.toList := by decide
  exact fun w hw => hlisted w (List.mem_append.mpr (h.known w hw))

/-- **Words are found again in the text that they are joined to.** -/
theorem splitWords_joinWords {words : List String} (hne : words ≠ [])
    (hspace : ∀ w ∈ words, ' ' ∉ w.toList) : splitWords (joinWords words) = words := by
  have hjoin : (joinWords words).toList = [' '].intercalate (words.map String.toList) :=
    String.toList_intercalate
  have hsplit : (joinWords words).toList.splitOn ' ' = words.map String.toList := by
    rw [hjoin]
    refine List.splitOn_intercalate ' ' (fun l hl => ?_) (mt List.map_eq_nil_iff.mp hne)
    obtain ⟨w, hw, rfl⟩ := List.mem_map.mp hl
    exact hspace w hw
  rw [splitWords, hsplit, List.map_map]
  exact List.map_id'' (fun w => String.ofList_toList) words

/-- **A whole number is read back from its words.** -/
theorem readWords?_wholeWords {n : Int} (h : n.natAbs ≤ wordsLimit) :
    readWords? (joinWords (wholeWords n)) = some n := by
  have hlimit : wordsLimit < 1000 ^ (3 + 1) := by decide
  have hspelt : Spelt scaleValues (groupWords 4 0 n.natAbs) n.natAbs :=
    spelt_groupWords (le_refl 3) (by omega)
  have hwords := hspelt.ne_of_mem
  unfold wholeWords
  rw [if_neg (Nat.not_lt.mpr h)]
  split_ifs with hzero hneg
  · subst hzero
    decide
  · have hpos : 0 < n.natAbs := by omega
    have hspace : ∀ w ∈ "Negative" :: groupWords 4 0 n.natAbs, ' ' ∉ w.toList :=
      List.forall_mem_cons.mpr ⟨by decide, fun w hw => (hwords w hw).2.2⟩
    rw [readWords?, List.singleton_append, splitWords_joinWords (List.cons_ne_nil _ _) hspace]
    simp only [hspelt.read_eq hpos]
    show some (-(n.natAbs : Int)) = some n
    exact congrArg some (by omega)
  · have hpos : 0 < n.natAbs := by omega
    have hne := hspelt.ne_nil hpos
    have hread := hspelt.read_eq hpos
    rw [readWords?, List.nil_append, splitWords_joinWords hne fun w hw => (hwords w hw).2.2]
    cases hcons : groupWords 4 0 n.natAbs with
    | nil => exact absurd hcons hne
    | cons w words =>
      rw [hcons] at hwords hread
      -- The first word is not mistaken for zero or for the sign.
      obtain ⟨hzero, hnegative, -⟩ := hwords w List.mem_cons_self
      simp only [hzero, hnegative, false_and, if_false, hread, Option.map_some]
      exact congrArg some (by omega)

/-! ### What is shown -/

/-- A float that is near a whole number is finite. -/
theorem isFinite_of_nearWhole? {x : Float} {n : Int} (h : nearWhole? x = some n) :
    x.isFinite = true := by
  obtain ⟨b, hb, -⟩ := nearWhole?_eq_some h
  unfold Binary.ofFloat? at hb
  show x.toModel.unpack.isFinite = true
  cases hx : x.toModel.unpack with
  | finite | zero => rfl
  | infinity | notANumber =>
    rw [hx] at hb
    cases hb

/-- A whole number that is spelled is shown in its digits. -/
theorem display_whole {n : Int} (h : n.natAbs ≤ wordsLimit) :
    display (.whole n) = .ok (String.ofList (groupedInt n)) := by
  have hlimits : wordsLimit < 2 ^ 53 ∧ wordsLimit < wholeLimit := by decide
  have hinf : ¬ (Float.ofInt n).isInf = true := by
    rw [isInf_eq_false_of_isFinite (isFinite_ofInt (by omega))]
    decide
  have hsmall : n.natAbs < wholeLimit := by omega
  exact (if_neg hinf).trans (if_pos hsmall)

/-- A float that is near such a number is shown in its digits. -/
theorem display_real {x : Float} {n : Int} (hnear : nearWhole? x = some n)
    (h : n.natAbs ≤ wordsLimit) : display (.real x) = .ok (String.ofList (groupedInt n)) := by
  have hlimits : wordsLimit < wholeLimit := by decide
  rw [display_of_isFinite (isFinite_of_nearWhole? hnear), showFloat,
    floatText_of_nearWhole? hnear (by omega)]

/-- **What is spelled is read back as the number that is shown**, whether it was a whole number or a
    float.  All whole numbers up to the billions are spelled, and no two of them in the same way. -/
theorem spelled_readsBack :
    (∀ q : Quantity, spelled q ≠ "" →
      ∃ n, readWords? (spelled q) = some n ∧ display q = .ok (String.ofList (groupedInt n))) ∧
    (∀ n : Int, n.natAbs ≤ 999999999999 → spelled (.whole n) ≠ "") ∧
    ∀ n k : Int, spelled (.whole n) ≠ "" → spelled (.whole n) = spelled (.whole k) → n = k := by
  refine ⟨fun q hq => ?_, fun n hn => joinWords_wholeWords_ne_empty.mpr hn, fun n k hn heq => ?_⟩
  · cases q with
    | whole n =>
      have hn := joinWords_wholeWords_ne_empty.mp hq
      exact ⟨n, readWords?_wholeWords hn, display_whole hn⟩
    | real x =>
      obtain ⟨hsome, -⟩ := (spelledFloat_ne_empty_iff x).mp hq
      obtain ⟨n, hnear⟩ := Option.isSome_iff_exists.mp hsome
      have hspelled : spelled (.real x) = joinWords (wholeWords n) := spelledFloat_eq hnear
      have hn := joinWords_wholeWords_ne_empty.mp (hspelled ▸ hq)
      exact ⟨n, hspelled ▸ readWords?_wholeWords hn, display_real hnear hn⟩
  · -- What reads one label back reads the other, so two numbers with one label are equal.
    have hk : spelled (.whole k) ≠ "" := heq ▸ hn
    have hread := readWords?_wholeWords (joinWords_wholeWords_ne_empty.mp hn)
    rw [show joinWords (wholeWords n) = joinWords (wholeWords k) from heq,
      readWords?_wholeWords (joinWords_wholeWords_ne_empty.mp hk)] at hread
    exact (Option.some.inj hread).symm

/-- The words of one number read back, those of the highest number that has words, and two numbers
    whose words sound alike. -/
theorem spelled_readsBack_negative :
    (spelled (.whole (-1002012)) ≠ "" ∧
      ∃ n, readWords? (spelled (.whole (-1002012))) = some n ∧
        display (.whole (-1002012)) = .ok (String.ofList (groupedInt n))) ∧
    ((999999999999 : Int).natAbs ≤ 999999999999 ∧ spelled (.whole 999999999999) ≠ "") ∧
    spelled (.whole 14) ≠ "" ∧ spelled (.whole 14) ≠ spelled (.whole 40) := by
  obtain ⟨hread, hspelled, hinjective⟩ := spelled_readsBack
  have hne : spelled (.whole (-1002012)) ≠ "" := by decide
  have hlimit : (999999999999 : Int).natAbs ≤ 999999999999 := by decide
  have hfourteen : spelled (.whole 14) ≠ "" := by decide
  refine ⟨⟨hne, hread _ hne⟩, ⟨hlimit, hspelled _ hlimit⟩, hfourteen, fun heq => ?_⟩
  exact absurd (hinjective 14 40 hfourteen heq) (by decide)

example : readWords? "Negative One Million Two Thousand Twelve" = some (-1002012) := by decide

example : readWords? "One Million  Two" = none := by decide

end Reckoner.Number
