/-
Sequences: how the bytes of one character are laid out.

A leading byte announces how many bytes its character takes, and the others are
continuation bytes.  Everything here reads a short list of bytes, nearest first,
and knows neither where in a buffer they lie nor how the text goes on; `room` says
how many bytes the reader may use, which can be more than there are.  A fault is
therefore reported by its cause and its displacement from where the reading began.

`measure` looks at the layout alone, `decode` also at the value, and `measureBack`
finds the sequence that ends where the reading begins.
-/
import Utf8Scan.Reason

namespace Utf8Scan

/-- How many bytes a character takes. -/
inductive Width where
  | one | two | three | four
  deriving DecidableEq, Repr, Inhabited

namespace Width

def bytes : Width → Nat
  | one => 1
  | two => 2
  | three => 3
  | four => 4

/-- The least value that needs this many bytes. -/
def least : Width → Nat
  | one => 0
  | two => 0x80
  | three => 0x800
  | four => 0x10000

/-- How many values the payload of a leading byte of this width can take. -/
def leadValues : Width → Nat
  | one => 0x80
  | two => 0x20
  | three => 0x10
  | four => 0x08

theorem bytes_pos (w : Width) : 0 < w.bytes := by cases w <;> decide

theorem bytes_le_four (w : Width) : w.bytes ≤ 4 := by cases w <;> decide

end Width

/-- The bits that tell a continuation byte from others. -/
def continuationMask : UInt8 := 0xC0

/-- What these bits are in a continuation byte. -/
def continuationTag : UInt8 := 0x80

/-- Whether a byte has the form 10xxxxxx, in which no character starts. -/
def isContinuation (byte : UInt8) : Bool := byte &&& continuationMask == continuationTag

/-- Continuation bytes are a range of bytes. -/
theorem isContinuation_iff {byte : UInt8} :
    isContinuation byte = true ↔ 0x80 ≤ byte.toNat ∧ byte.toNat < 0xC0 := by
  have h : ∀ n < 256, isContinuation (UInt8.ofNat n) = true ↔ 0x80 ≤ n ∧ n < 0xC0 := by
    decide +kernel
  simpa using h byte.toNat byte.toNat_lt

/-- Whether the lowest eight bits of a number are those of a continuation byte. -/
def isContinuationValue (value : Int) : Bool := isContinuation (UInt8.ofInt value)

/-- What stops a reader, told apart from where in the buffer it happened. -/
inductive Fault where
  /-- There was no room left to read. -/
  | exhausted
  /-- An offset inside the room could not be read. -/
  | unreadable
  /-- The announced width does not fit into the room. -/
  | truncated (width : Width)
  /-- The bytes are not well formed. -/
  | malformed (displacement : Int) (reason : Reason)
  deriving DecidableEq, Repr

namespace Sequence

/-- The width that a leading byte announces. -/
def announced (lead : UInt8) : Except Reason Width :=
  if lead < 0x80 then .ok .one
  else if lead < 0xC0 then .error .continuationFirst
  else if lead < 0xE0 then .ok .two
  else if lead < 0xF0 then .ok .three
  else if lead < 0xF8 then .ok .four
  else .error (.impossibleLead lead)

/-! ### Forward -/

/-- Checks that `needed` continuation bytes follow, the first at `displacement`. -/
def checkTrail (displacement : Nat) : (needed : Nat) → List UInt8 → Except Fault Unit
  | 0, _ => .ok ()
  | _ + 1, [] => .error .unreadable
  | n + 1, byte :: rest =>
    if isContinuation byte then checkTrail (displacement + 1) n rest
    else .error (.malformed displacement .continuationMissing)

/-- The width of the sequence at the head, judged by its layout alone. -/
def measure (ahead : List UInt8) (room : Nat) : Except Fault Width :=
  if room = 0 then .error .exhausted
  else
    match ahead with
    | [] => .error .unreadable
    | lead :: rest =>
      match announced lead with
      | .error reason => .error (.malformed 0 reason)
      | .ok width =>
        if room < width.bytes then .error (.truncated width)
        else (checkTrail 1 (width.bytes - 1) rest).map fun _ => width

/-- The number that the payload bits of a sequence spell. -/
def value (width : Width) : List UInt8 → Nat
  | [] => 0
  | lead :: rest =>
    (rest.take (width.bytes - 1)).foldl (fun acc byte => acc * 64 + byte.toNat % 64)
      (lead.toNat % width.leadValues)

/-- The first of the numbers that stand for no character because UTF-16 needs them. -/
def firstSurrogate : Nat := 0xD800

def lastSurrogate : Nat := 0xDFFF

/-- The greatest number that stands for a character. -/
def lastCodePoint : Nat := 0x10FFFF

/-- Every other number up to the last stands for a character. -/
theorem isValidChar_iff {n : Nat} :
    n.isValidChar ↔ ¬ (firstSurrogate ≤ n ∧ n ≤ lastSurrogate) ∧ ¬ lastCodePoint < n := by
  unfold Nat.isValidChar firstSurrogate lastSurrogate lastCodePoint
  omega

/-- The character that a number stands for, unless the number is none or spelt too long. -/
def character (width : Width) (value : Nat) : Except Reason Char :=
  if value < width.least then .error (.overlong value)
  else if firstSurrogate ≤ value ∧ value ≤ lastSurrogate then .error (.surrogate value)
  else if lastCodePoint < value then .error (.aboveLimit value)
  else .ok (Char.ofNat value)

/-- The character at the head and the width it takes. -/
def decode (ahead : List UInt8) (room : Nat) : Except Fault (Char × Width) :=
  match measure ahead room with
  | .error fault => .error fault
  | .ok width =>
    match character width (value width ahead) with
    | .error reason => .error (.malformed 0 reason)
    | .ok c => .ok (c, width)

/-! ### Backward -/

/-- Steps over continuation bytes to the nearest leading byte, which must announce its distance. -/
def seekLead (distance : Nat) : (room : Nat) → List UInt8 → Except Fault Width
  | 0, _ => .error (.malformed (-1) .leadMissing)
  | _ + 1, [] => .error .unreadable
  | n + 1, byte :: rest =>
    if isContinuation byte then seekLead (distance + 1) n rest
    else
      match announced byte with
      | .error reason => .error (.malformed (-distance) reason)
      | .ok width =>
        if width.bytes = distance then .ok width
        else .error (.malformed (-distance) .widthMismatch)

/-- The width of the sequence that ends where `behind` begins. -/
def measureBack (behind : List UInt8) (room : Nat) : Except Fault Width :=
  if room = 0 then .error .exhausted else seekLead 1 (min room 4) behind

end Sequence

end Utf8Scan
