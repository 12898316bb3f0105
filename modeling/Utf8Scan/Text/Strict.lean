/-
Reading a run of bytes as text, the strict way and the lenient way.

The strict reader follows the table of well-formed sequences: a leading byte
determines the range of the second byte, and every later byte is an arbitrary
continuation byte.  So it never sees a value that is out of bounds, and it knows the
longest part of a broken sequence that some character could have started with.  The
strict reading of a run stops at the first broken sequence; the lenient one puts
U+FFFD for that longest part and goes on behind it.

This reader is independent of the one for single characters, which first trusts the
leading byte and judges the value afterwards.
-/
import Utf8Scan.Buffer
import Utf8Scan.Sequence

namespace Utf8Scan

/-- The start of a run that is not well formed. -/
structure Broken where
  /-- How many bytes could have started a character, or 1 if none could. -/
  length : Nat
  reason : Reason
  deriving DecidableEq, Repr

namespace Strict

/-- An inclusive range of bytes. -/
abbrev ByteRange := UInt8 × UInt8

def anyContinuation : ByteRange := (0x80, 0xBF)

/-- The bytes that may follow a leading byte, or none if no character starts with it. -/
def followers? (lead : UInt8) : Option (Width × List ByteRange) :=
  if lead < 0x80 then some (.one, [])
  else if lead < 0xC2 then none
  else if lead < 0xE0 then some (.two, [anyContinuation])
  else if lead < 0xF0 then
    let second : ByteRange :=
      if lead = 0xE0 then (0xA0, 0xBF) else if lead = 0xED then (0x80, 0x9F) else anyContinuation
    some (.three, [second, anyContinuation])
  else if lead < 0xF5 then
    let second : ByteRange :=
      if lead = 0xF0 then (0x90, 0xBF) else if lead = 0xF4 then (0x80, 0x8F) else anyContinuation
    some (.four, [second, anyContinuation, anyContinuation])
  else none

/-- Checks bytes against the ranges they should lie in, `matched` bytes having passed before. -/
def follow (matched : Nat) : List ByteRange → List UInt8 → Except Broken Unit
  | [], _ => .ok ()
  | _ :: _, [] => .error ⟨matched, .unexpectedEnd⟩
  | (low, high) :: ranges, byte :: rest =>
    if low ≤ byte ∧ byte ≤ high then follow (matched + 1) ranges rest
    else .error ⟨matched, .invalidContinuation⟩

/-- The character at the head of a run whose first byte is `lead`. -/
def decode (lead : UInt8) (rest : List UInt8) : Except Broken (Char × Width) :=
  match followers? lead with
  | none => .error ⟨1, .invalidStart⟩
  | some (width, ranges) =>
    (follow 1 ranges rest).map fun _ =>
      (Char.ofNat (Sequence.value width (lead :: rest)), width)

end Strict

namespace Buffer

/-- At most four bytes of `[offset, stop)`, from its start on. -/
def window (b : Buffer) (offset stop : Nat) : List UInt8 := b.ahead offset (min 4 (stop - offset))

theorem lt_of_window_eq_cons {b : Buffer} {offset stop : Nat} {lead : UInt8} {rest : List UInt8}
    (h : b.window offset stop = lead :: rest) : offset < stop := by
  by_cases hlt : offset < stop
  · exact hlt
  · simp [window, Nat.sub_eq_zero_of_le (Nat.le_of_not_lt hlt), ahead] at h

/-- The characters of `[start, stop)`, or where and why they first are not well formed. -/
def text (b : Buffer) (start stop : Nat) : Except (Nat × Reason) String :=
  go start ""
where
  go (offset : Nat) (acc : String) : Except (Nat × Reason) String :=
    match _h : b.window offset stop with
    | [] => .ok acc
    | lead :: rest =>
      match Strict.decode lead rest with
      | .error broken => .error (offset, broken.reason)
      | .ok (c, width) => go (offset + width.bytes) (acc.push c)
  termination_by stop - offset
  decreasing_by
    have := lt_of_window_eq_cons _h
    have := width.bytes_pos
    omega

theorem text_go_eq (b : Buffer) (stop offset : Nat) (acc : String) : text.go b stop offset acc =
    match b.window offset stop with
    | [] => .ok acc
    | lead :: rest =>
      match Strict.decode lead rest with
      | .error broken => .error (offset, broken.reason)
      | .ok (c, width) => text.go b stop (offset + width.bytes) (acc.push c) := by
  rw [text.go]
  split <;> rename_i hwindow <;> rw [hwindow]

/-- The first `limit` characters of `[offset, stop)`, with U+FFFD for what is not well formed. -/
def lenientText (b : Buffer) (offset stop : Nat) : (limit : Nat) → List Char
  | 0 => []
  | n + 1 =>
    match b.window offset stop with
    | [] => []
    | lead :: rest =>
      match Strict.decode lead rest with
      | .error broken => '\uFFFD' :: b.lenientText (offset + broken.length) stop n
      | .ok (c, width) => c :: b.lenientText (offset + width.bytes) stop n

end Buffer

end Utf8Scan
