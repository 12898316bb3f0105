/-
Sequences that are laid out well and spell no character.

A step that looks at the layout alone goes over more sequences than the reader of
characters accepts.  The two ask for the same room, trust the same leading byte and
check the same continuation bytes, so whatever stops the step stops the reader, with
the same error.  Behind that the reader judges the number that the bytes spell, and it
refuses three kinds: a number that fits into fewer bytes, a surrogate, and a number
above the last code point.  It refuses nothing else, so these are the sequences in
which the two differ.

None of this needs the offset or the limit to lie in the buffer.  Only to say which
bytes were passed takes an offset that does not count from the end.
-/
import Utf8Scan.Proofs.Agreement

namespace Utf8Scan

namespace Sequence

variable {w : Width} {n : Nat} {ahead : List UInt8} {room : Nat} {reason : Reason} {fault : Fault}

/-! ### Numbers that are no character -/

/-- What is wrong with the number that a sequence of some width spells. -/
inductive Misspells (w : Width) (n : Nat) : Reason → Prop
  | overlong (h : n < w.least) : Misspells w n (.overlong n)
  | surrogate (hleast : w.least ≤ n) (h : 0xD800 ≤ n ∧ n ≤ 0xDFFF) : Misspells w n (.surrogate n)
  | aboveLimit (h : 0x10FFFF < n) : Misspells w n (.aboveLimit n)

theorem least_le (w : Width) : w.least ≤ 0x10000 := by cases w <;> decide

theorem character_eq_error_iff : character w n = .error reason ↔ Misspells w n reason := by
  have hwidth := least_le w
  unfold character firstSurrogate lastSurrogate lastCodePoint
  constructor
  · intro h
    split_ifs at h with hleast hsurrogate hlimit
    · simp only [Except.error.injEq] at h
      subst h
      exact .overlong hleast
    · simp only [Except.error.injEq] at h
      subst h
      exact .surrogate (Nat.not_lt.mp hleast) hsurrogate
    · simp only [Except.error.injEq] at h
      subst h
      exact .aboveLimit hlimit
  · intro h
    cases h with
    | overlong h => rw [if_pos h]
    | surrogate hleast h => rw [if_neg (Nat.not_lt.mpr hleast), if_pos h]
    | aboveLimit h => rw [if_neg (by omega), if_neg (by omega), if_pos h]

/-- Behind the layout, the reader finds fault only with the number. -/
theorem decode_eq_error_iff (h : measure ahead room = .ok w) : decode ahead room = .error fault ↔
    ∃ reason, fault = .malformed 0 reason ∧ Misspells w (value w ahead) reason := by
  simp only [decode, h, ← character_eq_error_iff]
  cases character w (value w ahead) with
  | error found => simp [eq_comm]
  | ok c => simp

end Sequence

/-! ### At an offset of a buffer -/

namespace Buffer

open Sequence

variable {b : Buffer} {offset limit after : Int} {first last : Nat} {w : Width} {reason : Reason}
  {e : Error}

theorem next_eq_ok_iff : b.next offset limit = .ok after ↔
    ∃ w, b.measure offset limit = .ok w ∧ offset + w.bytes = after := Except.map_eq_ok_iff

theorem next_eq_error_iff : b.next offset limit = .error e ↔ b.measure offset limit = .error e :=
  Except.map_eq_error_iff

/-- A character takes the room of its layout. -/
theorem measure_of_decode {c : Char} (h : b.decode offset limit = .ok (c, w)) :
    b.measure offset limit = .ok w := by
  simp only [decode, Except.mapError_eq_ok_iff, decode_eq_ok_iff] at h
  simp only [measure, Except.mapError_eq_ok_iff]
  exact h.1

/-- What stops the step stops the reader. -/
theorem decode_of_measure_error (h : b.measure offset limit = .error e) :
    b.decode offset limit = .error e := by
  simp only [measure, Except.mapError_eq_error_iff] at h
  obtain ⟨fault, hfault, rfl⟩ := h
  simp only [decode, Sequence.decode, hfault, Except.mapError]

/-- Where the step succeeds, the reader fails at the offset or not at all. -/
theorem decode_error_of_measure (h : b.measure offset limit = .ok w) :
    b.decode offset limit = .error e ↔
      ∃ reason, e = .scan (.malformed offset reason) ∧
        Misspells w (value w (b.ahead offset (min 4 (room offset limit)))) reason := by
  simp only [measure, Except.mapError_eq_ok_iff] at h
  simp only [decode, Except.mapError_eq_error_iff, decode_eq_error_iff h]
  constructor
  · intro hfails
    obtain ⟨fault, ⟨reason, rfl, hreason⟩, rfl⟩ := hfails
    exact ⟨reason, by simp [Fault.errorAhead], hreason⟩
  · intro hfails
    obtain ⟨reason, rfl, hreason⟩ := hfails
    exact ⟨_, ⟨reason, rfl, hreason⟩, by simp [Fault.errorAhead]⟩

/-- A limit below zero leaves as much room as zero does. -/
theorem measure_toNat (b : Buffer) (first : Nat) (limit : Int) :
    b.measure first limit = b.measure first limit.toNat := by
  have hroom : room first limit = room first limit.toNat := by
    unfold room
    omega
  simp only [measure, hroom]

/-- The reader sees the whole of a sequence that fits. -/
theorem take_ahead (b : Buffer) (h : first + w.bytes ≤ last) :
    (b.ahead first (min 4 (last - first))).take w.bytes = b.between first (first + w.bytes) := by
  have hfour := w.bytes_le_four
  rw [ahead_natCast, between_eq, List.take_take]
  congr 1
  omega

theorem measure_natCast_eq_ok_iff_laidOut : b.measure first last = .ok w ↔
    first + w.bytes ≤ last ∧ LaidOut w (b.between first (first + w.bytes)) := by
  have hpos := w.bytes_pos
  simp only [measure, room_natCast, Except.mapError_eq_ok_iff, measure_eq_ok_iff_laidOut]
  constructor
  · intro h
    obtain ⟨hroom, hlaid⟩ := h
    have hle : first + w.bytes ≤ last := by omega
    rw [b.take_ahead hle] at hlaid
    exact ⟨hle, hlaid⟩
  · intro h
    obtain ⟨hle, hlaid⟩ := h
    rw [b.take_ahead hle]
    exact ⟨by omega, hlaid⟩

/-- The bytes of a layout are all in the buffer. -/
theorem le_size_of_laidOut (h : LaidOut w (b.between first (first + w.bytes))) :
    first + w.bytes ≤ b.size := by
  have hpos := w.bytes_pos
  have hlength := h.length
  rw [between_eq, List.length_take, List.length_drop, length_toList] at hlength
  omega

/-- The bytes of `[first, last)` are laid out as one sequence, whose number is refused. -/
def Misspelt (b : Buffer) (first last : Nat) (reason : Reason) : Prop :=
  ∃ w, LaidOut w (b.between first last) ∧ Misspells w (value w (b.between first last)) reason

/-- Only the reader fails at an offset exactly where a sequence lies that is misspelt. -/
theorem next_ok_decode_error_iff :
    b.next first limit = .ok after ∧
        b.decode first limit = .error (.scan (.malformed first reason)) ↔
      after ≤ limit ∧ after ≤ b.size ∧ b.Misspelt first after.toNat reason := by
  rw [next_eq_ok_iff, measure_toNat, decode_toNat]
  constructor
  · intro h
    obtain ⟨⟨w, hmeasure, rfl⟩, hdecode⟩ := h
    have hpos := w.bytes_pos
    obtain ⟨hle, hlaid⟩ := measure_natCast_eq_ok_iff_laidOut.mp hmeasure
    obtain ⟨reason', heq, hreason⟩ := (decode_error_of_measure hmeasure).mp hdecode
    simp only [Error.scan.injEq, ScanError.malformed.injEq, true_and] at heq
    subst heq
    rw [room_natCast, ← value_take, b.take_ahead hle] at hreason
    have hsize := le_size_of_laidOut hlaid
    exact ⟨by omega, by omega, w, hlaid, hreason⟩
  · intro h
    obtain ⟨hlimit, hsize, w, hlaid, hreason⟩ := h
    have hpos := w.bytes_pos
    have hlength := hlaid.length
    rw [length_between (by omega)] at hlength
    have hafter : after.toNat = first + w.bytes := by omega
    rw [hafter] at hlaid hreason
    have hle : first + w.bytes ≤ limit.toNat := by omega
    have hmeasure : b.measure first limit.toNat = .ok w :=
      measure_natCast_eq_ok_iff_laidOut.mpr ⟨hle, hlaid⟩
    refine ⟨⟨w, hmeasure, by omega⟩, (decode_error_of_measure hmeasure).mpr ⟨reason, rfl, ?_⟩⟩
    rw [room_natCast, ← value_take, b.take_ahead hle]
    exact hreason

/-- **A step by the layout alone agrees with the reader of characters, but for sequences that are
misspelt.**  Where the reader returns, the step leads to the same offset, and what stops the step
stops the reader with the same error.  Where only the reader fails, the bytes at its offset are not
well formed, and they are a whole sequence whose number is too small for it, a surrogate or above
the last code point.  The offset and the limit may be any integers. -/
theorem next_agrees_decode (b : Buffer) (offset : Int) (limit? : Option Int) :
    let limit := limit?.getD b.size
    (∀ c width, b.decode offset limit = .ok (c, width) →
      b.next offset limit = .ok (offset + width.bytes)) ∧
    (∀ e, b.next offset limit = .error e → b.decode offset limit = .error e) ∧
    (∀ after e, b.next offset limit = .ok after → b.decode offset limit = .error e →
      ∃ reason, e = .scan (.malformed offset reason) ∧
        (ScanError.malformed offset reason).kind = .invalidCharacter ∧
        (ScanError.malformed offset reason).position = offset ∧
        (0 ≤ offset → b.Misspelt offset.toNat after.toNat reason)) ∧
    (0 ≤ offset → ∀ after reason,
      (b.next offset limit = .ok after ∧
          b.decode offset limit = .error (.scan (.malformed offset reason)) ↔
        after ≤ limit ∧ after ≤ b.size ∧ b.Misspelt offset.toNat after.toNat reason)) := by
  intro limit
  have honly (hoffset : 0 ≤ offset) (after : Int) (reason : Reason) :
      b.next offset limit = .ok after ∧
          b.decode offset limit = .error (.scan (.malformed offset reason)) ↔
        after ≤ limit ∧ after ≤ b.size ∧ b.Misspelt offset.toNat after.toNat reason := by
    obtain ⟨first, rfl⟩ := Int.eq_ofNat_of_zero_le hoffset
    exact next_ok_decode_error_iff
  refine ⟨?_, ?_, ?_, honly⟩
  · intro c width h
    exact next_eq_ok_iff.mpr ⟨width, measure_of_decode h, rfl⟩
  · intro e h
    exact decode_of_measure_error (next_eq_error_iff.mp h)
  · intro after e hnext hdecode
    obtain ⟨w, hmeasure, _⟩ := next_eq_ok_iff.mp hnext
    obtain ⟨reason, rfl, _⟩ := (decode_error_of_measure hmeasure).mp hdecode
    refine ⟨reason, rfl, rfl, rfl, ?_⟩
    intro hoffset
    exact ((honly hoffset after reason).mp ⟨hnext, hdecode⟩).2.2

/-- The step goes over a surrogate and the reader refuses it, also where the offset counts from the
end of the buffer. -/
theorem next_agrees_decode_surrogate :
    let b : Buffer := .ofList [0x61, 0xED, 0xA0, 0x80]
    let refused (offset : Int) : Error := .scan (.malformed offset (.surrogate 0xD800))
    (0 ≤ (1 : Int) ∧ (4 : Int) ≤ b.size ∧ b.Misspelt 1 4 (.surrogate 0xD800)) ∧
      (b.next 1 b.size = .ok 4 ∧ b.decode 1 b.size = .error (refused 1)) ∧
      b.next (-3) 4 = .ok 0 ∧ ∃ reason, b.decode (-3) 4 = .error (.scan (.malformed (-3) reason)) := by
  intro b refused
  have hsize : (4 : Int) ≤ b.size := by decide
  have hlaid : LaidOut .three (b.between 1 4) := by
    show LaidOut .three [0xED, 0xA0, 0x80]
    exact .sequence rfl rfl (by simp [isContinuation_iff])
  have hmisspelt : b.Misspelt 1 4 (.surrogate 0xD800) :=
    ⟨.three, hlaid, .surrogate (by decide) (by decide)⟩
  have hnext : b.next (-3) 4 = .ok 0 := by decide
  have hdecode : b.decode (-3) 4 = .error (refused (-3)) := by decide
  obtain ⟨_, _, _, honly⟩ := next_agrees_decode b 1 none
  obtain ⟨_, _, hfails, _⟩ := next_agrees_decode b (-3) (some 4)
  obtain ⟨reason, heq, _⟩ := hfails _ _ hnext hdecode
  refine ⟨⟨by decide, hsize, hmisspelt⟩, ?_, hnext, reason, hdecode.trans (congrArg _ heq)⟩
  exact (honly (by decide) 4 (.surrogate 0xD800)).mpr ⟨hsize, hsize, hmisspelt⟩

end Buffer

end Utf8Scan
