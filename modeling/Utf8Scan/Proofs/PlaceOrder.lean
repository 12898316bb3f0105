/-
The order of places.

A place is found from scratch: the LF bytes before the offset are counted, the last of
them is looked for, and the bytes behind it that start a character are counted.  All
the same it is what somebody would have who went over the bytes one by one and moved on
at each.  `lineColumn_succ` says so for any byte of any buffer: an LF leads to the start
of the next line, a byte that continues a sequence to nowhere, and any other byte to the
next column.

So places never go back, and they go on at every boundary before the end.  A step
forward over a whole sequence moves on once, at its leading byte.
-/
import Utf8Scan.Proofs.Misspelling
import Utf8Scan.Proofs.TextPlace

namespace Utf8Scan

/-! ### One byte -/

/-- The place behind a byte that lies at a place. -/
def placeBehind (byte : UInt8) (place : Nat × Nat) : Nat × Nat :=
  if byte = Buffer.lineFeed then (place.1 + 1, 1)
  else if isContinuation byte then place
  else (place.1, place.2 + 1)

theorem isContinuation_lineFeed : isContinuation Buffer.lineFeed = false := by decide

theorem placeBehind_of_continuation {byte : UInt8} (h : isContinuation byte = true)
    (place : Nat × Nat) : placeBehind byte place = place := by
  have hfeed : byte ≠ Buffer.lineFeed := by
    intro heq
    rw [heq, isContinuation_lineFeed] at h
    cases h
  rw [placeBehind, if_neg hfeed, if_pos h]

theorem lt_placeBehind {byte : UInt8} (h : isContinuation byte = false) (place : Nat × Nat) :
    toLex place < toLex (placeBehind byte place) := by
  rw [Prod.Lex.toLex_lt_toLex, placeBehind]
  by_cases hfeed : byte = Buffer.lineFeed
  · rw [if_pos hfeed]
    exact Or.inl (Nat.lt_succ_self _)
  · rw [if_neg hfeed, h, if_neg Bool.false_ne_true]
    exact Or.inr ⟨rfl, Nat.lt_succ_self _⟩

theorem le_placeBehind (byte : UInt8) (place : Nat × Nat) :
    toLex place ≤ toLex (placeBehind byte place) := by
  cases h : isContinuation byte with
  | true => rw [placeBehind_of_continuation h]
  | false => exact le_of_lt (lt_placeBehind h place)

namespace Buffer

variable {b : Buffer} {o n : Nat} {byte : UInt8} {width : Width}

theorem line_succ (hbyte : b.toList[o]? = some byte) :
    b.line (o + 1) = if byte = lineFeed then b.line o + 1 else b.line o := by
  have hlt := lt_size_of_byte hbyte
  obtain ⟨ho, rfl⟩ := List.getElem?_eq_some_iff.mp hbyte
  rw [line_eq hlt, line_eq (Nat.le_of_lt hlt), List.take_succ_eq_append_getElem ho,
    List.count_append, List.count_singleton]
  by_cases hfeed : b.toList[o] = lineFeed
  · rw [if_pos hfeed, if_pos (beq_iff_eq.mpr hfeed)]
  · rw [if_neg hfeed, if_neg (mt beq_iff_eq.mp hfeed), Nat.add_zero]

theorem column_succ (hbyte : b.toList[o]? = some byte) : b.column (o + 1) =
    if byte = lineFeed then 0 else if isContinuation byte then b.column o else b.column o + 1 := by
  have hlt := lt_size_of_byte hbyte
  obtain ⟨ho, rfl⟩ := List.getElem?_eq_some_iff.mp hbyte
  rw [column_eq hlt, column_eq (Nat.le_of_lt hlt), List.take_succ_eq_append_getElem ho]
  by_cases hfeed : b.toList[o] = lineFeed
  · rw [if_pos hfeed, List.rtakeWhile_concat_neg _ _ _ (by simpa using hfeed), List.countP_nil]
  · rw [if_neg hfeed, List.rtakeWhile_concat_pos _ _ _ (by simpa using hfeed), List.countP_append,
      List.countP_singleton]
    cases isContinuation b.toList[o] with
    | true => rfl
    | false => rfl

/-- **The place of an offset is the one behind the byte before it.** -/
theorem lineColumn_succ (hbyte : b.toList[o]? = some byte) :
    b.lineColumn (o + 1) = placeBehind byte (b.lineColumn o) := by
  rw [lineColumn, lineColumn, line_succ hbyte, column_succ hbyte, placeBehind]
  split_ifs with hfeed hcontinues
  · rfl
  · rfl
  · rfl

/-- Behind the end of the buffer all places are that of the end. -/
theorem lineColumn_of_size_le (h : b.size ≤ o) : b.lineColumn o = b.lineColumn b.size := by
  simp only [lineColumn, line, column, Nat.min_eq_right h, Nat.min_self]

/-- Bytes that continue a sequence take no place. -/
theorem lineColumn_add_of_continuation
    (h : ∀ i < n, ∃ byte, b.toList[o + i]? = some byte ∧ isContinuation byte = true) :
    b.lineColumn (o + n) = b.lineColumn o := by
  induction n with
  | zero => rfl
  | succ n ih =>
      obtain ⟨byte, hbyte, hcontinues⟩ := h n (Nat.lt_succ_self n)
      rw [← Nat.add_assoc, lineColumn_succ hbyte, placeBehind_of_continuation hcontinues]
      exact ih fun i hi => h i (Nat.lt_succ_of_lt hi)

/-! ### The order -/

theorem lineColumn_mono (b : Buffer) : Monotone fun o => toLex (b.lineColumn o) := by
  refine monotone_nat_of_le_succ fun o => ?_
  by_cases ho : o < b.size
  · rw [← length_toList] at ho
    rw [lineColumn_succ (List.getElem?_eq_getElem ho)]
    exact le_placeBehind _ _
  · have hle := Nat.not_lt.mp ho
    rw [lineColumn_of_size_le hle, lineColumn_of_size_le (Nat.le_succ_of_le hle)]

/-- A byte that continues nothing lies before the places behind it. -/
theorem lineColumn_lt {p q : Nat} (hp : b.isBoundary p = true) (hlt : p < q) (hq : q ≤ b.size) :
    toLex (b.lineColumn p) < toLex (b.lineColumn q) := by
  have hsize : p < b.toList.length := by
    rw [length_toList]
    exact Nat.lt_of_lt_of_le hlt hq
  have hbyte := List.getElem?_eq_getElem hsize
  rw [isBoundary_eq hbyte, Bool.not_eq_true'] at hp
  calc toLex (b.lineColumn p)
      < toLex (b.lineColumn (p + 1)) := by
        rw [lineColumn_succ hbyte]
        exact lt_placeBehind hp _
    _ ≤ toLex (b.lineColumn q) := b.lineColumn_mono hlt

/-- Boundaries are told apart by their places. -/
theorem eq_of_lineColumn_eq {p q : Nat} (hp : b.isBoundary p = true) (hq : b.isBoundary q = true)
    (h : b.lineColumn p = b.lineColumn q) : p = q := by
  rcases Nat.lt_trichotomy p q with hlt | heq | hlt
  · have hplaces := lineColumn_lt hp hlt (le_size_of_isBoundary hq)
    rw [h] at hplaces
    exact absurd hplaces (lt_irrefl _)
  · exact heq
  · have hplaces := lineColumn_lt hq hlt (le_size_of_isBoundary hp)
    rw [h] at hplaces
    exact absurd hplaces (lt_irrefl _)

/-! ### Whole sequences -/

/-- A sequence takes one place, that of its leading byte. -/
theorem lineColumn_of_measure {limit : Nat} (h : b.measure o limit = .ok width) :
    ∃ lead, b.toList[o]? = some lead ∧ isContinuation lead = false ∧
      b.lineColumn (o + width.bytes) = placeBehind lead (b.lineColumn o) := by
  obtain ⟨⟨lead, hlead, hann⟩, _, htrail⟩ := measure_natCast_eq_ok_iff.mp h
  refine ⟨lead, hlead, Sequence.not_isContinuation_of_announced hann, ?_⟩
  obtain ⟨n, hn⟩ := Nat.exists_eq_add_of_le' width.bytes_pos
  rw [← lineColumn_succ hlead, hn, ← Nat.add_assoc, Nat.add_right_comm]
  refine lineColumn_add_of_continuation fun i hi => ?_
  obtain ⟨byte, hbyte, hcontinues⟩ := htrail (i + 1) (Nat.succ_pos i) (by omega)
  exact ⟨byte, by rw [← hbyte, Nat.add_right_comm, Nat.add_assoc], hcontinues⟩

theorem lineColumnOf_natCast (b : Buffer) (o : Nat) : b.lineColumnOf o = .ok (b.lineColumn o) := by
  rw [lineColumnOf, natOffset_natCast]
  rfl

/-- **Places are in the order of their offsets, and a step forward goes to the next place.**  From
one offset to a later one the place does not go back, and it goes on if the first is a boundary
before the end, so two boundaries never share a place.  A step forward leads to the start of the
next line if it goes over LF, and otherwise to the next column.  The bytes may be any, and the
offsets may lie inside a sequence or behind the end. -/
theorem lineColumnOf_tracks (b : Buffer) :
    (∀ p q : Int, 0 ≤ p → p ≤ q → ∃ place place',
      (b.lineColumnOf p = .ok place ∧ b.lineColumnOf q = .ok place') ∧
        toLex place ≤ toLex place' ∧
        (p < q → q ≤ b.size → b.isBoundary p = true → toLex place < toLex place')) ∧
      (∀ p q : Int, b.isBoundary p = true → b.isBoundary q = true →
        b.lineColumnOf p = b.lineColumnOf q → p = q) ∧
      ∀ p q : Int, 0 ≤ p → b.next p b.size = .ok q → ∃ line column,
        b.lineColumnOf p = .ok (line, column) ∧
          b.lineColumnOf q = .ok
            (if b.byteAt? p = some lineFeed then (line + 1, 1) else (line, column + 1)) := by
  refine ⟨?_, ?_, ?_⟩
  · intro p q hp hle
    obtain ⟨p, rfl⟩ := Int.eq_ofNat_of_zero_le hp
    obtain ⟨q, rfl⟩ := Int.eq_ofNat_of_zero_le (Int.le_trans hp hle)
    refine ⟨_, _, ⟨b.lineColumnOf_natCast p, b.lineColumnOf_natCast q⟩,
      b.lineColumn_mono (Int.ofNat_le.mp hle), ?_⟩
    intro hlt hq hboundary
    exact lineColumn_lt hboundary (Int.ofNat_lt.mp hlt) (Int.ofNat_le.mp hq)
  · intro p q hp hq h
    obtain ⟨p, rfl⟩ := exists_natCast_of_isBoundary hp
    obtain ⟨q, rfl⟩ := exists_natCast_of_isBoundary hq
    rw [lineColumnOf_natCast, lineColumnOf_natCast, Except.ok.injEq] at h
    exact congrArg _ (eq_of_lineColumn_eq hp hq h)
  · intro p q hp hnext
    obtain ⟨p, rfl⟩ := Int.eq_ofNat_of_zero_le hp
    obtain ⟨width, hmeasure, rfl⟩ := next_eq_ok_iff.mp hnext
    obtain ⟨lead, hlead, hstarts, hplace⟩ := lineColumn_of_measure hmeasure
    refine ⟨_, _, b.lineColumnOf_natCast p, ?_⟩
    rw [← Nat.cast_add, lineColumnOf_natCast, hplace, placeBehind, hstarts,
      if_neg Bool.false_ne_true]
    simp only [byteAt?_natCast, hlead, Option.some.injEq]
    rfl

/-- An overlong form stands on the second line, behind an LF and a stray continuation byte. -/
theorem lineColumnOf_tracks_malformed :
    let b : Buffer := .ofList [0x0A, 0x80, 0xC0, 0x80, 0x61]
    (0 ≤ (2 : Int) ∧ (2 : Int) < 4 ∧ (4 : Int) ≤ b.size ∧ b.isBoundary 2 = true) ∧
      b.next 2 b.size = .ok 4 ∧ b.lineColumnOf 2 = .ok (2, 1) ∧
      b.lineColumnOf 4 = .ok (2, 2) ∧ toLex ((2, 1) : Nat × Nat) < toLex (2, 2) := by
  intro b
  have hsize : (4 : Int) ≤ b.size := by decide
  have hboundary : b.isBoundary 2 = true := by decide
  have hnext : b.next 2 b.size = .ok 4 := by decide
  have hfirst : b.lineColumnOf 2 = .ok (2, 1) := by decide
  obtain ⟨horder, _, htracks⟩ := lineColumnOf_tracks b
  obtain ⟨line, column, hline, hplace⟩ := htracks 2 4 (by decide) hnext
  obtain ⟨place, place', ⟨hp, hq⟩, _, hlt⟩ := horder 2 4 (by decide) (by decide)
  have hbyte : b.byteAt? 2 ≠ some lineFeed := by decide
  rw [hfirst, Except.ok.injEq, Prod.mk.injEq] at hline
  rw [← hline.1, ← hline.2, if_neg hbyte] at hplace
  rw [Except.ok.inj (hp.symm.trans hfirst), Except.ok.inj (hq.symm.trans hplace)] at hlt
  exact ⟨⟨by decide, by decide, hsize, hboundary⟩, hnext, hfirst, hplace,
    hlt (by decide) hsize hboundary⟩

end Buffer

end Utf8Scan
