import Mathlib.Data.List.Basic

/-!
# Characters of one byte

A text whose bytes are all below 128 has one character for every byte.  The characters of a text are
then read off its bytes, which takes far less than decoding them where a closed text is evaluated.

* `bytesOf`, `bytesOf_ofList_cons` — the bytes of a text, one character after the other.
* `utf8EncodeChar_eq_singleton` — a byte below 128 at the head of a character is all of it.
* `charsOf`, `charsOf_eq` — the characters of a text, by its bytes where they are all below 128.
-/

namespace Reckoner.Text

/-- The bytes of a text. -/
def bytesOf (s : String) : List UInt8 := s.toByteArray.data.toList

theorem bytesOf_ofList_cons (c : Char) (r : List Char) :
    bytesOf (String.ofList (c :: r)) = String.utf8EncodeChar c ++ bytesOf (String.ofList r) := by
  unfold bytesOf
  rw [String.toByteArray_ofList, String.toByteArray_ofList, List.utf8Encode_cons,
    List.utf8Encode_singleton]
  simp

/-- A character whose first byte is below 128 has that byte alone, which is its code point. -/
theorem utf8EncodeChar_eq_singleton {c : Char} {b : UInt8}
    (h : (String.utf8EncodeChar c).head? = some b) (hb : b.toNat < 128) :
    String.utf8EncodeChar c = [b] ∧ c.toNat = b.toNat := by
  have hval : c.val.toNat = c.toNat := rfl
  unfold String.utf8EncodeChar at h ⊢
  dsimp only at h ⊢
  split_ifs at h ⊢ <;> cases h
  · refine ⟨rfl, ?_⟩
    rw [UInt8.toNat_ofNat']
    omega
  -- The first byte of a longer character is not below 128.
  all_goals rw [UInt8.toNat_ofNat'] at hb; omega

/-- The character of one byte. -/
def charOf (b : UInt8) : Char := Char.ofNat b.toNat

theorem map_charOf_utf8EncodeChar {c : Char} (h : ∀ b ∈ String.utf8EncodeChar c, b.toNat < 128) :
    (String.utf8EncodeChar c).map charOf = [c] := by
  obtain ⟨b, bytes, hbytes⟩ := List.exists_cons_of_ne_nil (String.utf8EncodeChar_ne_nil (c := c))
  have hb : b.toNat < 128 := h b (hbytes ▸ List.mem_cons_self)
  obtain ⟨hone, hcode⟩ := utf8EncodeChar_eq_singleton (by rw [hbytes, List.head?_cons]) hb
  rw [hone, List.map_singleton, charOf, ← hcode, Char.ofNat_toNat]

theorem map_charOf_bytesOf {s : String} (h : ∀ b ∈ bytesOf s, b.toNat < 128) :
    (bytesOf s).map charOf = s.toList := by
  obtain ⟨l, rfl⟩ : ∃ l, s = String.ofList l := ⟨s.toList, String.ofList_toList.symm⟩
  rw [String.toList_ofList]
  induction l with
  | nil => rfl
  | cons c r ih =>
    rw [bytesOf_ofList_cons] at h ⊢
    obtain ⟨hfirst, hrest⟩ := List.forall_mem_append.mp h
    rw [List.map_append, map_charOf_utf8EncodeChar hfirst, ih hrest]
    rfl

/-- The characters of a text, read off its bytes where they are all below 128. -/
def charsOf (s : String) : List Char :=
  if (bytesOf s).all (·.toNat.blt 128) then (bytesOf s).map charOf else s.toList

/-- **Reading a text by its bytes** gives its characters. -/
theorem charsOf_eq (s : String) : charsOf s = s.toList := by
  unfold charsOf
  split_ifs with h
  · refine map_charOf_bytesOf fun b hb => ?_
    simpa [Nat.blt_eq] using List.all_eq_true.mp h b hb
  · rfl

end Reckoner.Text
