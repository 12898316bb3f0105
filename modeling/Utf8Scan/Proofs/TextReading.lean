/-
Reading a window whose bytes spell a text.

`Spans` says that a scanner's buffer holds a text and that its window starts and ends
at characters.  Every loop of a scanner then does to the offsets of characters what a
function of the list library does to the characters: it goes by one, it finds an index,
it takes while a test holds.  None of them meets malformed bytes, so the only way for
one to fail is to come to an end of the window.
-/
import Utf8Scan.Proofs.Agreement
import Utf8Scan.Proofs.Searching

namespace Utf8Scan

/-! ### Parts of a text -/

/-- The characters from one index up to another. -/
def segment (chars : List Char) (first last : Nat) : List Char := (chars.take last).drop first

section Segment

variable {chars : List Char} {c : Char} {k stop : Nat}

theorem length_segment (hstop : stop ≤ chars.length) :
    (segment chars k stop).length = stop - k := by
  rw [segment, List.length_drop, List.length_take, Nat.min_eq_left hstop]

theorem segment_self (chars : List Char) (k : Nat) : segment chars k k = [] := by
  rw [segment, List.drop_eq_nil_iff, List.length_take]
  exact Nat.min_le_left _ _

theorem segment_eq_cons (hk : k < stop) (h : chars[k]? = some c) :
    segment chars k stop = c :: segment chars (k + 1) stop := by
  obtain ⟨hlt, rfl⟩ := List.getElem?_eq_some_iff.mp h
  have hlt' : k < (chars.take stop).length := by
    rw [List.length_take]
    omega
  rw [segment, List.drop_eq_getElem_cons hlt', List.getElem_take, segment]

theorem segment_eq_take (chars : List Char) (k n : Nat) :
    segment chars k (k + n) = (chars.drop k).take n := by
  rw [segment, List.drop_take, Nat.add_sub_cancel_left]

end Segment

/-- The answer of a test, or no where it has none. -/
def CharTest.holds (test : CharTest) (c : Char) : Bool :=
  match test c with
  | .ok answer => answer
  | .error _ => false

theorem CharTest.Total.eq {test : CharTest} (h : test.Total) (c : Char) :
    test c = .ok (test.holds c) := by
  unfold CharTest.holds
  cases hc : test c with
  | ok answer => rfl
  | error e => exact absurd hc (h c e)

/-! ### Single steps -/

section Bytes

variable {b : Buffer} {chars : List Char} {c : Char} {k n : Nat}

/-- The bytes from a character on begin with its own. -/
theorem Buffer.Holds.ahead_eq (h : b.Holds chars) (hget : chars[k]? = some c)
    (hn : c.utf8Size ≤ n) :
    ∃ rest, b.ahead (offsetOf chars k) n = String.utf8EncodeChar c ++ rest := by
  obtain ⟨hk, rfl⟩ := List.getElem?_eq_some_iff.mp hget
  rw [Buffer.ahead_natCast, h.toList_eq, drop_offsetOf, List.drop_eq_getElem_cons hk, spell_cons,
    List.take_append, String.length_utf8EncodeChar,
    List.take_of_length_le (by rw [String.length_utf8EncodeChar]; exact hn)]
  exact ⟨_, rfl⟩

/-- The bytes before the next character begin with those of this one, read backward. -/
theorem Buffer.Holds.behind_eq (h : b.Holds chars) (hget : chars[k]? = some c)
    (hn : c.utf8Size ≤ n) (hle : n ≤ offsetOf chars (k + 1)) :
    ∃ rest, b.behind (offsetOf chars (k + 1)) n = (String.utf8EncodeChar c).reverse ++ rest := by
  have hk : k < chars.length := (List.getElem?_eq_some_iff.mp hget).1
  have hsize : offsetOf chars (k + 1) ≤ b.size := h.offsetOf_le_size hk
  rw [Buffer.behind_natCast _ _ _ hsize hle, h.toList_eq, take_offsetOf, List.take_add_one, hget,
    spell_append, Option.toList_some, spell_cons, spell_nil, List.append_nil, List.reverse_append,
    List.take_append, List.length_reverse, String.length_utf8EncodeChar,
    List.take_of_length_le (by rw [List.length_reverse, String.length_utf8EncodeChar]; exact hn)]
  exact ⟨_, rfl⟩

end Bytes

namespace Scanner

/-- The buffer holds a text, and the window goes from one of its characters to another. -/
structure Spans (s : Scanner) (chars : List Char) (start stop : Nat) : Prop where
  holds : s.buffer.Holds chars
  start_eq : s.start = offsetOf chars start
  stop_eq : s.stop = offsetOf chars stop
  start_le_stop : start ≤ stop
  stop_le_length : stop ≤ chars.length

namespace Spans

variable {s : Scanner} {chars : List Char} {start stop k n : Nat} {c : Char}

theorem getElem? (h : s.Spans chars start stop) (hk : k < stop) :
    ∃ c, chars[k]? = some c :=
  ⟨_, List.getElem?_eq_getElem (Nat.lt_of_lt_of_le hk h.stop_le_length)⟩

theorem start_le_length (h : s.Spans chars start stop) : start ≤ chars.length :=
  Nat.le_trans h.start_le_stop h.stop_le_length

/-- A character before the end of the window has room in it. -/
theorem room (h : s.Spans chars start stop) (hk : k < stop) (hget : chars[k]? = some c) :
    c.utf8Size ≤ s.stop - offsetOf chars k := by
  have hsucc := offsetOf_succ hget
  have hmono : offsetOf chars (k + 1) ≤ offsetOf chars stop := offsetOf_mono chars hk
  rw [h.stop_eq]
  omega

theorem decodeAt (h : s.Spans chars start stop) (hk : k < stop) (hget : chars[k]? = some c) :
    s.decodeAt (offsetOf chars k) = .ok (c, .ofChar c) := by
  have hroom := h.room hk hget
  have hfour := c.utf8Size_le_four
  obtain ⟨rest, hrest⟩ := h.holds.ahead_eq (n := min 4 (s.stop - offsetOf chars k)) hget (by omega)
  rw [decodeAt_eq, Except.mapError_eq_ok_iff, hrest]
  exact Sequence.decode_encode c rest hroom

theorem measureAt (h : s.Spans chars start stop) (hk : k < stop) (hget : chars[k]? = some c) :
    s.measureAt (offsetOf chars k) = .ok (.ofChar c) :=
  measureAt_of_decodeAt (h.decodeAt hk hget)

/-- At the end of the window there is nothing to read, and that is an overflow. -/
theorem measureAt_stop (h : s.Spans chars start stop) :
    s.measureAt (offsetOf chars stop) = .error (.scan (.overflow (offsetOf chars stop))) := by
  rw [measureAt_eq, h.stop_eq, Nat.sub_self]
  rfl

theorem decodeAt_stop (h : s.Spans chars start stop) :
    s.decodeAt (offsetOf chars stop) = .error (.scan (.overflow (offsetOf chars stop))) := by
  rw [decodeAt_eq, h.stop_eq, Nat.sub_self]
  rfl

theorem measureBackAt (h : s.Spans chars start stop) (hstart : start ≤ k)
    (hget : chars[k]? = some c) :
    s.measureBackAt (offsetOf chars (k + 1)) = .ok (.ofChar c) := by
  have hsucc := offsetOf_succ hget
  have hmono : offsetOf chars start ≤ offsetOf chars k := offsetOf_mono chars hstart
  have hfour := c.utf8Size_le_four
  have hstart_eq := h.start_eq
  obtain ⟨rest, hrest⟩ := h.holds.behind_eq (n := min 4 (offsetOf chars (k + 1) - s.start)) hget
    (by omega) (by omega)
  rw [measureBackAt_eq, Except.mapError_eq_ok_iff, hrest]
  exact Sequence.measureBack_encode c rest (by omega)

theorem measureBackAt_start (h : s.Spans chars start stop) :
    s.measureBackAt (offsetOf chars start)
      = .error (.scan (.underflow (offsetOf chars start))) := by
  rw [measureBackAt_eq, h.start_eq, Nat.sub_self]
  rfl

/-! ### Loops -/

theorem skip (h : s.Spans chars start stop) (hk : k ≤ stop) (n : Nat) :
    s.skip n (offsetOf chars k) =
      if k + n ≤ stop then .ok (offsetOf chars (k + n))
      else .error (.scan (.overflow (offsetOf chars stop))) := by
  induction n generalizing k with
  | zero => rw [Scanner.skip, Nat.add_zero, if_pos hk]
  | succ n ih =>
      rw [Scanner.skip]
      by_cases hlt : k < stop
      · obtain ⟨c, hget⟩ := h.getElem? hlt
        have hnext : offsetOf chars k + (Width.ofChar c).bytes = offsetOf chars (k + 1) := by
          rw [Width.bytes_ofChar, offsetOf_succ hget]
        simp only [h.measureAt hlt hget, hnext]
        rw [ih hlt, show k.succ + n = k + (n + 1) by omega]
      · obtain rfl : k = stop := by omega
        rw [if_neg (by omega)]
        simp only [h.measureAt_stop]

theorem skipBack (h : s.Spans chars start stop) (hstart : start ≤ k) (hk : k ≤ stop) (n : Nat) :
    s.skipBack n (offsetOf chars k) =
      if start + n ≤ k then .ok (offsetOf chars (k - n))
      else .error (.scan (.underflow (offsetOf chars start))) := by
  induction n generalizing k with
  | zero => rw [Scanner.skipBack, Nat.add_zero, if_pos hstart, Nat.sub_zero]
  | succ n ih =>
      rw [Scanner.skipBack]
      by_cases hlt : start < k
      · obtain ⟨j, rfl⟩ : ∃ j, k = j + 1 := ⟨k - 1, by omega⟩
        obtain ⟨c, hget⟩ := h.getElem? (Nat.lt_of_lt_of_le (Nat.lt_succ_self j) hk)
        have hprev : offsetOf chars (j + 1) - (Width.ofChar c).bytes = offsetOf chars j := by
          rw [Width.bytes_ofChar, offsetOf_succ hget, Nat.add_sub_cancel]
        simp only [h.measureBackAt (Nat.le_of_lt_succ hlt) hget, hprev]
        rw [ih (by omega) (by omega), Nat.add_sub_add_right]
        by_cases hle : start + n ≤ j
        · rw [if_pos hle, if_pos (by omega)]
        · rw [if_neg hle, if_neg (by omega)]
      · obtain rfl : k = start := by omega
        rw [if_neg (by omega)]
        simp only [h.measureBackAt_start]

/-- What holds at the end of the window, and at a character if it holds at the next, holds at every
character of the window. -/
theorem backward {P : Nat → Prop} (h : s.Spans chars start stop) (hend : P stop)
    (hstep : ∀ k c, k < stop → chars[k]? = some c → P (k + 1) → P k) (hk : k ≤ stop) : P k := by
  obtain ⟨n, hn⟩ := Nat.exists_eq_add_of_le hk
  induction n generalizing k with
  | zero =>
      obtain rfl : stop = k := hn
      exact hend
  | succ n ih =>
      have hlt : k < stop := by omega
      obtain ⟨c, hget⟩ := h.getElem? hlt
      exact hstep k c hlt hget (ih hlt (by omega))

/-- A loop reads the character, and goes on with the next. -/
theorem loop_step (h : s.Spans chars start stop) (hk : k < stop) (hget : chars[k]? = some c) :
    offsetOf chars k < s.stop ∧ s.decodeAt (offsetOf chars k) = .ok (c, .ofChar c) ∧
      offsetOf chars k + (Width.ofChar c).bytes = offsetOf chars (k + 1) ∧
      segment chars k stop = c :: segment chars (k + 1) stop := by
  refine ⟨?_, h.decodeAt hk hget, ?_, segment_eq_cons hk hget⟩
  · rw [h.stop_eq]
    exact offsetOf_lt hk h.stop_le_length
  · rw [Width.bytes_ofChar, offsetOf_succ hget]

theorem loop_end (h : s.Spans chars start stop) : ¬ offsetOf chars stop < s.stop := by
  rw [h.stop_eq]
  exact Nat.lt_irrefl _

theorem seek (h : s.Spans chars start stop) {test : CharTest} (htest : test.Total)
    (hk : k ≤ stop) :
    s.seek test (offsetOf chars k) =
      .ok (((segment chars k stop).findIdx? test.holds).map fun i => offsetOf chars (k + i)) := by
  refine h.backward (P := fun k => s.seek test (offsetOf chars k) = .ok
    (((segment chars k stop).findIdx? test.holds).map fun i => offsetOf chars (k + i))) ?_ ?_ hk
  · rw [Scanner.seek, if_neg h.loop_end, segment_self]
    rfl
  · intro k c hlt hget ih
    obtain ⟨hopen, hdecode, hnext, hsegment⟩ := h.loop_step hlt hget
    rw [Scanner.seek, if_pos hopen, hsegment, List.findIdx?_cons]
    simp only [hdecode, htest.eq, hnext, ih]
    cases hpass : test.holds c with
    | true => simp
    | false =>
        simp only [Bool.false_eq_true, if_false, Option.map_map]
        congr 2
        funext i
        show offsetOf chars (k + 1 + i) = offsetOf chars (k + (i + 1))
        congr 1
        omega

theorem tally (h : s.Spans chars start stop) {test : CharTest} (htest : test.Total)
    (hk : k ≤ stop) (passed : Nat) :
    s.tally test (offsetOf chars k) passed =
      .ok (passed + ((segment chars k stop).takeWhile test.holds).length,
        offsetOf chars (k + ((segment chars k stop).takeWhile test.holds).length)) := by
  refine h.backward (P := fun k => ∀ passed, s.tally test (offsetOf chars k) passed = .ok
    (passed + ((segment chars k stop).takeWhile test.holds).length,
      offsetOf chars (k + ((segment chars k stop).takeWhile test.holds).length))) ?_ ?_ hk passed
  · intro passed
    rw [Scanner.tally, if_neg h.loop_end, segment_self]
    rfl
  · intro k c hlt hget ih passed
    obtain ⟨hopen, hdecode, hnext, hsegment⟩ := h.loop_step hlt hget
    rw [Scanner.tally, if_pos hopen, hsegment, List.takeWhile_cons]
    simp only [hdecode, htest.eq, hnext, ih]
    cases hpass : test.holds c with
    | true =>
        simp only [if_true, List.length_cons]
        rw [Nat.add_right_comm, Nat.add_assoc, Nat.add_right_comm k, Nat.add_assoc]
    | false => simp

theorem pass (h : s.Spans chars start stop) {test : CharTest} (htest : test.Total)
    (hk : k ≤ stop) :
    s.pass test (offsetOf chars k) =
      .ok (offsetOf chars (k + ((segment chars k stop).takeWhile test.holds).length)) :=
  (Scanner.pass_eq_ok_iff 0).mpr ⟨_, h.tally htest hk 0⟩

theorem charactersFrom (h : s.Spans chars start stop) (hk : k ≤ stop) :
    s.charactersFrom (offsetOf chars k) = .ok (segment chars k stop) := by
  refine h.backward (P := fun k => s.charactersFrom (offsetOf chars k)
    = .ok (segment chars k stop)) ?_ ?_ hk
  · rw [Scanner.charactersFrom, if_neg h.loop_end, segment_self]
  · intro k c hlt hget ih
    obtain ⟨hopen, hdecode, hnext, hsegment⟩ := h.loop_step hlt hget
    rw [Scanner.charactersFrom, if_pos hopen, hsegment]
    simp only [hdecode, hnext, ih]
    rfl

end Spans

end Scanner

/-! ### Text -/

variable {b : Buffer} {chars : List Char} {first last : Nat}

/-- The bytes between two characters spell the characters between them. -/
theorem Buffer.Holds.between_eq (h : b.Holds chars) (hle : first ≤ last) :
    b.between (offsetOf chars first) (offsetOf chars last) = spell (segment chars first last) := by
  have hfirst : offsetOf chars first = offsetOf (chars.take last) first := by
    rw [offsetOf, offsetOf, List.take_take, Nat.min_eq_left hle]
  rw [Buffer.between, h.toList_eq, take_offsetOf, hfirst, drop_offsetOf, segment]

/-- The reader of whole texts goes through a part of a text without finding fault. -/
theorem Buffer.Holds.text (h : b.Holds chars) (hle : first ≤ last) :
    b.text (offsetOf chars first) (offsetOf chars last) =
      .ok (String.ofList (segment chars first last)) := by
  have hwindow : b.between (offsetOf chars first) (offsetOf chars last)
      = spell (segment chars first last) ++ [] := by
    rw [List.append_nil, h.between_eq hle]
  rcases Buffer.text_cases hwindow stuck_nil with ⟨_, htext⟩ | ⟨hne, _⟩
  · exact htext
  · exact absurd rfl hne

end Utf8Scan
