/-
Characters and the offsets at which they start.

`spell` is the encoding of a text, `offsetOf chars k` the offset of its character `k`:
the length of the encoding of the characters before it.  Cutting the encoding at such
an offset cuts the text there, and since no encoding of a character is a prefix of
another's, an encoding is a prefix exactly where the text is one.

In a buffer that holds the encoding of a text, these offsets are all the boundaries
there are: between two of them lie continuation bytes.
-/
import Utf8Scan.Proofs.Encoding

namespace Utf8Scan

/-- The encoding of a text. -/
def spell (chars : List Char) : List UInt8 := chars.flatMap String.utf8EncodeChar

/-- The offset of a character, or of the end of the text. -/
def offsetOf (chars : List Char) (k : Nat) : Nat := (spell (chars.take k)).length

variable {chars chars' : List Char} {c : Char} {k j : Nat}

/-! ### Encodings -/

@[simp] theorem spell_nil : spell [] = [] := rfl

@[simp] theorem spell_cons (c : Char) (chars : List Char) :
    spell (c :: chars) = String.utf8EncodeChar c ++ spell chars := rfl

theorem spell_cons_ne_nil (c : Char) (chars : List Char) : spell (c :: chars) ≠ [] := by
  obtain ⟨lead, trail, hbytes, _⟩ := encode_eq_cons c
  simp [hbytes]

theorem spell_append (chars chars' : List Char) :
    spell (chars ++ chars') = spell chars ++ spell chars' := List.flatMap_append

/-- The encoding of a character determines it, whatever follows. -/
theorem encode_inj {c d : Char} {rest rest' : List UInt8}
    (h : String.utf8EncodeChar c ++ rest = String.utf8EncodeChar d ++ rest') : c = d := by
  have hc : Sequence.decode (String.utf8EncodeChar c ++ rest) 4 = .ok (c, .ofChar c) :=
    Sequence.decode_encode c rest c.utf8Size_le_four
  have hd : Sequence.decode (String.utf8EncodeChar d ++ rest') 4 = .ok (d, .ofChar d) :=
    Sequence.decode_encode d rest' d.utf8Size_le_four
  rw [h, hd] at hc
  exact (Prod.mk.inj (Except.ok.inj hc)).1.symm

/-- An encoding starts with another exactly if the text starts with the other. -/
theorem spell_prefix_iff : spell chars <+: spell chars' ↔ chars <+: chars' := by
  constructor
  · intro h
    induction chars generalizing chars' with
    | nil => exact List.nil_prefix
    | cons c chars ih =>
        obtain ⟨lead, trail, hbytes, _⟩ := encode_eq_cons c
        cases chars' with
        | nil =>
            rw [spell_cons, hbytes, spell_nil] at h
            simp at h
        | cons d chars' =>
            obtain ⟨tail, htail⟩ := h
            rw [spell_cons, spell_cons, List.append_assoc] at htail
            obtain rfl := encode_inj htail
            rw [List.append_cancel_left_eq] at htail
            rw [List.cons_prefix_cons]
            exact ⟨rfl, ih ⟨tail, htail⟩⟩
  · rintro ⟨tail, rfl⟩
    rw [spell_append]
    exact List.prefix_append _ _

/-! ### Offsets of characters -/

@[simp] theorem offsetOf_zero (chars : List Char) : offsetOf chars 0 = 0 := rfl

theorem spell_eq_append (chars : List Char) (k : Nat) :
    spell chars = spell (chars.take k) ++ spell (chars.drop k) := by
  rw [← spell_append, List.take_append_drop]

theorem drop_offsetOf (chars : List Char) (k : Nat) :
    (spell chars).drop (offsetOf chars k) = spell (chars.drop k) := by
  rw [spell_eq_append chars k, offsetOf, List.drop_left]

theorem take_offsetOf (chars : List Char) (k : Nat) :
    (spell chars).take (offsetOf chars k) = spell (chars.take k) := by
  rw [spell_eq_append chars k, offsetOf, List.take_left]

theorem offsetOf_length (chars : List Char) :
    offsetOf chars chars.length = (spell chars).length := by
  rw [offsetOf, List.take_length]

theorem offsetOf_add (chars : List Char) (k n : Nat) :
    offsetOf chars (k + n) = offsetOf chars k + (spell ((chars.drop k).take n)).length := by
  rw [offsetOf, List.take_add, spell_append, List.length_append, offsetOf]

theorem offsetOf_succ (h : chars[k]? = some c) :
    offsetOf chars (k + 1) = offsetOf chars k + c.utf8Size := by
  have hdrop : (chars.drop k).take 1 = [c] := by
    rw [List.take_one, List.head?_drop, h, Option.toList_some]
  rw [offsetOf_add, hdrop, spell_cons, spell_nil, List.append_nil, String.length_utf8EncodeChar]

theorem offsetOf_mono (chars : List Char) (h : k ≤ j) : offsetOf chars k ≤ offsetOf chars j := by
  obtain ⟨n, rfl⟩ := Nat.exists_eq_add_of_le h
  rw [offsetOf_add]
  exact Nat.le_add_right _ _

theorem offsetOf_lt (h : k < j) (hj : j ≤ chars.length) : offsetOf chars k < offsetOf chars j := by
  have hget : chars[k]? = some chars[k] := List.getElem?_eq_getElem (by omega)
  have hsucc := offsetOf_succ hget
  have hpos := (chars[k]).utf8Size_pos
  have hle : offsetOf chars (k + 1) ≤ offsetOf chars j := offsetOf_mono chars h
  omega

theorem offsetOf_le_iff (hk : k ≤ chars.length) :
    offsetOf chars k ≤ offsetOf chars j ↔ k ≤ j := by
  constructor
  · intro h
    refine Nat.le_of_not_lt fun hlt => ?_
    have hlt := offsetOf_lt hlt hk
    omega
  · exact offsetOf_mono chars

theorem offsetOf_inj (hk : k ≤ chars.length) (hj : j ≤ chars.length)
    (h : offsetOf chars k = offsetOf chars j) : k = j :=
  Nat.le_antisymm ((offsetOf_le_iff hk).mp (Nat.le_of_eq h))
    ((offsetOf_le_iff hj).mp (Nat.le_of_eq h.symm))

theorem offsetOf_cons_succ (c : Char) (chars : List Char) (k : Nat) :
    offsetOf (c :: chars) (k + 1) = c.utf8Size + offsetOf chars k := by
  rw [offsetOf, List.take_succ_cons, spell_cons, List.length_append, String.length_utf8EncodeChar,
    offsetOf]

/-- Every byte of the encoding belongs to a character. -/
theorem exists_offsetOf_add {o : Nat} (h : o < (spell chars).length) :
    ∃ k c i, chars[k]? = some c ∧ i < c.utf8Size ∧ o = offsetOf chars k + i := by
  induction chars generalizing o with
  | nil => exact absurd h (Nat.not_lt_zero o)
  | cons c chars ih =>
      rw [spell_cons, List.length_append, String.length_utf8EncodeChar] at h
      by_cases ho : o < c.utf8Size
      · exact ⟨0, c, o, rfl, ho, (Nat.zero_add o).symm⟩
      · obtain ⟨k, d, i, hget, hi, heq⟩ := ih (o := o - c.utf8Size) (by omega)
        refine ⟨k + 1, d, i, hget, hi, ?_⟩
        rw [offsetOf_cons_succ]
        omega

theorem getElem?_spell (h : chars[k]? = some c) {i : Nat} (hi : i < c.utf8Size) :
    (spell chars)[offsetOf chars k + i]? = (String.utf8EncodeChar c)[i]? := by
  obtain ⟨hk, rfl⟩ := List.getElem?_eq_some_iff.mp h
  rw [← List.getElem?_drop, drop_offsetOf, List.drop_eq_getElem_cons hk, spell_cons,
    List.getElem?_append_left (by rw [String.length_utf8EncodeChar]; exact hi)]

/-! ### Buffers of text -/

/-- The bytes of a buffer spell a text. -/
def Buffer.Holds (b : Buffer) (chars : List Char) : Prop := b.toList = spell chars

theorem Buffer.Holds.toList_eq {b : Buffer} (h : b.Holds chars) : b.toList = spell chars := h

theorem Buffer.holds_ofString (text : String) : (Buffer.ofString text).Holds text.toList :=
  Buffer.toList_ofString text

theorem Buffer.Holds.size_eq {b : Buffer} (h : b.Holds chars) :
    b.size = offsetOf chars chars.length := by
  rw [offsetOf_length, ← h.toList_eq, Buffer.length_toList]

theorem Buffer.Holds.offsetOf_le_size {b : Buffer} (h : b.Holds chars) (hk : k ≤ chars.length) :
    offsetOf chars k ≤ b.size := by
  rw [h.size_eq]
  exact offsetOf_mono chars hk

/-- **The boundaries of a text are the offsets of its characters, and its end.** -/
theorem Buffer.Holds.isBoundary_iff {b : Buffer} (h : b.Holds chars) {o : Nat} :
    b.isBoundary o = true ↔ ∃ k ≤ chars.length, o = offsetOf chars k := by
  constructor
  · intro hboundary
    have hle := Buffer.le_size_of_isBoundary hboundary
    rcases Nat.eq_or_lt_of_le hle with rfl | hlt
    · exact ⟨chars.length, Nat.le_refl _, h.size_eq⟩
    rw [← Buffer.length_toList, h.toList_eq] at hlt
    obtain ⟨k, c, i, hget, hi, rfl⟩ := exists_offsetOf_add hlt
    have hk : k < chars.length := (List.getElem?_eq_some_iff.mp hget).1
    refine ⟨k, Nat.le_of_lt hk, ?_⟩
    cases i with
    | zero => rfl
    | succ i =>
        -- A byte that is not the first of its character continues it.
        obtain ⟨lead, trail, hbytes, _, htrail⟩ := encode_eq_cons c
        have hlength := String.length_utf8EncodeChar c
        rw [hbytes, List.length_cons] at hlength
        have hbyte : b.toList[offsetOf chars k + (i + 1)]? = some trail[i] := by
          rw [h.toList_eq, getElem?_spell hget hi, hbytes, List.getElem?_cons_succ,
            List.getElem?_eq_getElem]
        rw [Buffer.isBoundary_eq hbyte, htrail _ (List.getElem_mem _)] at hboundary
        cases hboundary
  · rintro ⟨k, hk, rfl⟩
    rcases Nat.eq_or_lt_of_le hk with rfl | hlt
    · rw [← h.size_eq]
      exact Buffer.isBoundary_size b
    have hget : chars[k]? = some chars[k] := List.getElem?_eq_getElem hlt
    obtain ⟨lead, trail, hbytes, hstarts, _⟩ := encode_eq_cons chars[k]
    refine Buffer.isBoundary_of_byte ?_ hstarts
    rw [h.toList_eq, ← Nat.add_zero (offsetOf chars k), getElem?_spell hget (Char.utf8Size_pos _),
      hbytes, List.getElem?_cons_zero]

end Utf8Scan
