/-
Lines and columns of a text.

A buffer finds the place of an offset in its bytes: it counts LF bytes, looks back for
the last of them and counts the bytes behind it that start a character.  An editor
finds it in the characters.  `line_eq` and `column_eq` put what the buffer does in
terms of the bytes before the offset, whatever they are.  If these are the encoding of
some characters, LF bytes stand for LF and for nothing else, so cutting the bytes
behind the last one cuts the characters behind the last LF, and each of the characters
that are left has one byte that continues none.
-/
import Utf8Scan.LineColumn
import Utf8Scan.Proofs.TextOffset

namespace Utf8Scan

/-! ### Spans -/

/-- The numbers of a span are what a span may be made of. -/
theorem Span.ofInts_self (span : Span) :
    Span.ofInts span.start span.stop span.line span.column = .ok span := by
  have hstop := span.start_le_stop
  have hline := span.line_pos
  have hcolumn := span.column_pos
  rw [ofInts, dif_neg (by omega), dif_neg (by omega), dif_neg (by omega), dif_neg (by omega)]
  rfl

namespace Buffer

variable {b : Buffer} {o : Nat}

/-! ### Places in terms of bytes -/

theorem line_eq (ho : o ≤ b.size) : b.line o = (b.toList.take o).count lineFeed := by
  rw [line, count_eq, Nat.min_eq_left ho, List.drop_zero]
  rfl

theorem lineStart_le (b : Buffer) (o : Nat) : b.lineStart o ≤ o := by
  induction o with
  | zero => exact Nat.le_refl _
  | succ n ih =>
      rw [lineStart]
      by_cases hfeed : b.byte? n = some lineFeed
      · rw [if_pos hfeed]
      · rw [if_neg hfeed]
        exact Nat.le_succ_of_le ih

/-- The line of an offset starts behind the last LF before it. -/
theorem drop_lineStart (ho : o ≤ b.size) :
    (b.toList.take o).drop (b.lineStart o) = (b.toList.take o).rtakeWhile (· ≠ lineFeed) := by
  induction o with
  | zero => rfl
  | succ n ih =>
      have hn : n < b.toList.length := by rw [length_toList]; exact ho
      have hle := b.lineStart_le n
      have hbyte : b.byte? n = some b.toList[n] := by rw [byte?_eq, List.getElem?_eq_getElem hn]
      rw [lineStart, List.take_succ_eq_append_getElem hn]
      by_cases hfeed : b.toList[n] = lineFeed
      · rw [if_pos (by rw [hbyte, hfeed]), List.rtakeWhile_concat_neg _ _ _ (by simpa using hfeed),
          List.drop_eq_nil_iff]
        simp
      · rw [if_neg (by simp [hbyte, hfeed]),
          List.rtakeWhile_concat_pos _ _ _ (by simpa using hfeed),
          List.drop_append_of_le_length (by rw [List.length_take]; omega), ih (by omega)]

theorem column_eq (ho : o ≤ b.size) : b.column o =
    ((b.toList.take o).rtakeWhile (· ≠ lineFeed)).countP (fun byte => !isContinuation byte) := by
  rw [← drop_lineStart ho, List.drop_take, column, Nat.min_eq_left ho, count_eq]

end Buffer

/-! ### Places in terms of characters -/

variable {chars : List Char} {k : Nat}

/-- A byte of the first layout stands for itself: in the others all bytes are above it. -/
theorem Sequence.Spells.eq_of_mem {n : Nat} {w : Width} {bytes : List UInt8} {byte : UInt8}
    (h : Spells n w bytes) (hmem : byte ∈ bytes) (hbyte : byte.toNat < 0x80) : n = byte.toNat := by
  cases h with
  | one hn ha =>
      obtain rfl := List.mem_singleton.mp hmem
      exact ha.symm
  | two hn ha hb =>
      simp only [List.mem_cons, List.not_mem_nil, or_false] at hmem
      rcases hmem with rfl | rfl <;> omega
  | three hn ha hb hc =>
      simp only [List.mem_cons, List.not_mem_nil, or_false] at hmem
      rcases hmem with rfl | rfl | rfl <;> omega
  | four hn ha hb hc hd =>
      simp only [List.mem_cons, List.not_mem_nil, or_false] at hmem
      rcases hmem with rfl | rfl | rfl | rfl <;> omega

theorem encode_lineFeed : String.utf8EncodeChar '\n' = [Buffer.lineFeed] := by decide

theorem lineFeed_not_mem_encode {c : Char} (hc : c ≠ '\n') :
    Buffer.lineFeed ∉ String.utf8EncodeChar c := by
  intro hmem
  have hfeed : Buffer.lineFeed.toNat = 0x0A := rfl
  have hvalue := (Sequence.spells_encode c).eq_of_mem hmem (by omega)
  refine hc ?_
  rw [← Char.ofNat_toNat c, hvalue]
  rfl

/-- As many LF bytes as LF characters. -/
theorem count_lineFeed_spell (chars : List Char) :
    (spell chars).count Buffer.lineFeed = chars.count '\n' := by
  induction chars with
  | nil => rfl
  | cons c chars ih =>
      rw [spell_cons, List.count_append, ih]
      by_cases hc : c = '\n'
      · rw [hc, encode_lineFeed, List.count_cons_self, List.count_cons_self, List.count_nil,
          Nat.zero_add, Nat.add_comm]
      · rw [List.count_eq_zero_of_not_mem (lineFeed_not_mem_encode hc), Nat.zero_add,
          List.count_cons_of_ne hc]

/-- The bytes behind the last LF encode the characters behind it. -/
theorem rtakeWhile_spell (chars : List Char) :
    (spell chars).rtakeWhile (· ≠ Buffer.lineFeed) = spell (chars.rtakeWhile (· ≠ '\n')) := by
  induction chars using List.reverseRecOn with
  | nil => rfl
  | append_singleton chars c ih =>
      rw [spell_append, spell_cons, spell_nil, List.append_nil]
      by_cases hc : c = '\n'
      · rw [hc, encode_lineFeed, List.rtakeWhile_concat_neg _ _ _ (by decide),
          List.rtakeWhile_concat_neg _ _ _ (by decide), spell_nil]
      · have hpass : ∀ byte ∈ (String.utf8EncodeChar c).reverse,
            decide (byte ≠ Buffer.lineFeed) = true := by
          intro byte hbyte
          refine decide_eq_true ?_
          rintro rfl
          exact lineFeed_not_mem_encode hc (List.mem_reverse.mp hbyte)
        rw [List.rtakeWhile_concat_pos _ _ _ (by simpa using hc), spell_append, ← ih,
          List.rtakeWhile, List.reverse_append, List.takeWhile_append_of_pos hpass,
          List.reverse_append, List.reverse_reverse, spell_cons, spell_nil, List.append_nil,
          List.rtakeWhile]

/-- Each character has one byte that continues none. -/
theorem countP_starts_spell (chars : List Char) :
    (spell chars).countP (fun byte => !isContinuation byte) = chars.length := by
  induction chars with
  | nil => rfl
  | cons c chars ih =>
      obtain ⟨lead, trail, hbytes, hlead, htrail⟩ := encode_eq_cons c
      have htrail : trail.countP (fun byte => !isContinuation byte) = 0 := by
        rw [List.countP_eq_zero]
        intro byte hbyte
        simp [htrail byte hbyte]
      rw [spell_cons, List.countP_append, ih, hbytes, List.countP_cons_of_pos (by simp [hlead]),
        htrail, List.length_cons]
      omega

/-- How many lines end among some characters. -/
def lineAfter (chars : List Char) : Nat := chars.count '\n'

/-- How many characters stand behind the last line end among some characters. -/
def columnAfter (chars : List Char) : Nat := (chars.rtakeWhile (· ≠ '\n')).length

namespace Buffer

variable {b : Buffer}

theorem Holds.line_offsetOf (h : b.Holds chars) (hk : k ≤ chars.length) :
    b.line (offsetOf chars k) = lineAfter (chars.take k) := by
  rw [line_eq (h.offsetOf_le_size hk), h.toList_eq, take_offsetOf, count_lineFeed_spell, lineAfter]

theorem Holds.column_offsetOf (h : b.Holds chars) (hk : k ≤ chars.length) :
    b.column (offsetOf chars k) = columnAfter (chars.take k) := by
  rw [column_eq (h.offsetOf_le_size hk), h.toList_eq, take_offsetOf, rtakeWhile_spell,
    countP_starts_spell, columnAfter]

/-! ### What a buffer says of a place -/

theorem natOffset_natCast (o : Nat) : natOffset o = .ok o := by
  rw [natOffset, if_neg (by omega), Int.toNat_natCast]

/-- A span starts where it is asked for, and ends between there and the end of the buffer. -/
theorem span_spec {o : Nat} (ho : o ≤ b.size) (stop : Int) :
    (b.span o stop).start = o ∧ o ≤ (b.span o stop).stop ∧ (b.span o stop).stop ≤ b.size ∧
      (b.span o stop).line = b.line o + 1 ∧ (b.span o stop).column = b.column o + 1 := by
  simp only [span, lineColumn, Nat.min_eq_left ho, and_self, and_true, true_and]
  omega

/-- A span that ends where it starts. -/
theorem span_stop_self {o : Nat} (ho : o ≤ b.size) : (b.span o o).stop = o := by
  simp only [span, Nat.min_eq_left ho]
  omega

/-- What a buffer says of an offset whose line and column, counted from zero, are the given
ones. -/
structure Places (b : Buffer) (o line column : Nat) : Prop where
  lineOf : b.lineOf o = .ok line
  columnOf : b.columnOf o = .ok column
  lineColumnOf : b.lineColumnOf o = .ok (line + 1, column + 1)
  zeroBased : b.formatPosition o true = .ok s!"{line}:{column}"
  oneBased : b.formatPosition o false = .ok s!"{line + 1}:{column + 1}"
  /-- A span from there on, wherever it is to end, passes the check of its numbers. -/
  spanOf : ∀ stop? : Option Int, ∃ span, b.spanOf o stop? = .ok span ∧
    (span.start = o ∧ span.line = line + 1 ∧ span.column = column + 1) ∧
    (o ≤ span.stop ∧ span.stop ≤ b.size) ∧
    Span.ofInts o span.stop (line + 1 : Nat) (column + 1 : Nat) = .ok span

theorem places_of_le {o : Nat} (ho : o ≤ b.size) : b.Places o (b.line o) (b.column o) where
  lineOf := by rw [Buffer.lineOf, natOffset_natCast]; rfl
  columnOf := by rw [Buffer.columnOf, natOffset_natCast]; rfl
  lineColumnOf := by rw [Buffer.lineColumnOf, natOffset_natCast]; rfl
  zeroBased := by rw [formatPosition, natOffset_natCast]; rfl
  oneBased := by rw [formatPosition, natOffset_natCast]; rfl
  spanOf := by
    intro stop?
    obtain ⟨hstart, hle, hsize, hline, hcolumn⟩ := b.span_spec ho (stop?.getD 0)
    have hspan := Span.ofInts_self (b.span o (stop?.getD 0))
    rw [hstart, hline, hcolumn] at hspan
    exact ⟨_, by rw [Buffer.spanOf, natOffset_natCast]; rfl, ⟨hstart, hline, hcolumn⟩,
      ⟨hle, hsize⟩, hspan⟩

/-- **The place of a character in the bytes of a text is its place in the text.**  It has as many
lines before it as LF, and as many characters before it on its line as come behind the last LF. -/
theorem ofString_places (text : String) (k : Nat) (hk : k ≤ text.toList.length) :
    (ofString text).Places (offsetOf text.toList k) (lineAfter (text.toList.take k))
      (columnAfter (text.toList.take k)) := by
  have hholds := holds_ofString text
  rw [← hholds.line_offsetOf hk, ← hholds.column_offsetOf hk]
  exact places_of_le (hholds.offsetOf_le_size hk)

/-- The end of a text whose last line has characters of one and of three bytes. -/
theorem ofString_places_last_line :
    4 ≤ "é\n日a".toList.length ∧ offsetOf "é\n日a".toList 4 = 7 ∧
      (ofString "é\n日a").Places 7 1 2 :=
  ⟨by decide, by decide, ofString_places "é\n日a" 4 (by decide)⟩

end Buffer

end Utf8Scan
