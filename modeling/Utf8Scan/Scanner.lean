/-
Scanners: a window onto a buffer with a cursor in it.

A scanner reads only the bytes of its window `[start, stop)`, and every scanner made
from it shares its buffer and has a narrower window.  Offsets are always those of the
whole buffer.

This file holds what can be asked of a scanner without moving its cursor.
-/
import Utf8Scan.Classifier
import Utf8Scan.Offset
import Utf8Scan.LineColumn
import Utf8Scan.Text.Strict

namespace Utf8Scan

structure Scanner where
  buffer : Buffer
  start : Nat
  stop : Nat
  pos : Nat
  classifier : Classifier

namespace Scanner

/-- The cursor lies in the window, and the window in the buffer. -/
structure Inside (s : Scanner) : Prop where
  start_le_pos : s.start ≤ s.pos
  pos_le_stop : s.pos ≤ s.stop
  stop_le_size : s.stop ≤ s.buffer.size

/-! ### Making scanners -/

/-- How many bytes a buffer may have unless the caller says otherwise. -/
def defaultMaxSize : Nat := 10 * 1024 * 1024

/-- What a caller may hand over to be scanned. -/
inductive Source where
  | buffer (b : Buffer)
  /-- Something that is neither text nor bytes. -/
  | other (typeName : String)

/-- A scanner for a whole buffer, with the cursor at its start. -/
def ofBuffer (b : Buffer) (maxSize : Int) (k : Classifier) : Except Error Scanner :=
  if maxSize < b.size then .error (.argument (.tooLarge b.size maxSize))
  else if b.isBoundary 0 then
    .ok { buffer := b, start := 0, stop := b.size, pos := 0, classifier := k }
  else .error (.argument (.startInsideCharacter 0))

def ofSource (source : Source) (maxSize : Int) (k : Classifier) : Except Error Scanner :=
  match source with
  | .buffer b => ofBuffer b maxSize k
  | .other typeName => .error (.unsupportedData typeName)

/-- A scanner for `[start, stop)` of the same buffer, with the cursor at its start. -/
def view (s : Scanner) (start stop : Nat) : Scanner :=
  { s with start := start, stop := stop, pos := start }

/-- A scanner for `[start, stop)`, which must lie inside the window and cut no character. -/
def subScanner (s : Scanner) (start stop : Int) : Except Error Scanner :=
  if ¬ (s.start ≤ start ∧ start ≤ stop ∧ stop ≤ s.stop) then
    .error (.argument (.outsideWindow start stop s.start s.stop))
  else if !s.buffer.isBoundary start then .error (.argument (.startInsideCharacter start))
  else if !s.buffer.isBoundary stop then .error (.argument (.stopInsideCharacter stop))
  else .ok (s.view start.toNat stop.toNat)

/-! ### Bytes of the window -/

/-- How many bytes the window has. -/
def byteCount (s : Scanner) : Nat := s.stop - s.start

/-- How many bytes lie between the cursor and the end of the window. -/
def remaining (s : Scanner) : Nat := s.stop - s.pos

def atEnd (s : Scanner) : Bool := s.pos == s.stop

/-! ### Characters of the window -/

/-- The character at an offset and its width. -/
def decodeAt (s : Scanner) (offset : Nat) : Except Error (Char × Width) :=
  s.buffer.decode offset s.stop

/-- The width of the sequence at an offset. -/
def measureAt (s : Scanner) (offset : Nat) : Except Error Width := s.buffer.measure offset s.stop

/-- The width of the sequence that ends at an offset. -/
def measureBackAt (s : Scanner) (offset : Nat) : Except Error Width :=
  s.buffer.measureBack offset s.start

/-- The offset `count` characters after another. -/
def skip (s : Scanner) : (count offset : Nat) → Except Error Nat
  | 0, offset => .ok offset
  | n + 1, offset =>
    match s.measureAt offset with
    | .error e => .error e
    | .ok width => s.skip n (offset + width.bytes)

/-- The offset `count` characters before another. -/
def skipBack (s : Scanner) : (count offset : Nat) → Except Error Nat
  | 0, offset => .ok offset
  | n + 1, offset =>
    match s.measureBackAt offset with
    | .error e => .error e
    | .ok width => s.skipBack n (offset - width.bytes)

/-- The character at the cursor. -/
def peek (s : Scanner) : Except Error Char := (s.decodeAt s.pos).map Prod.fst

/-- What stands for the character at the end of a window. -/
def endMark : Char := '\x00'

/-- The character at the cursor, or `endMark` at the end of the window. -/
def current (s : Scanner) : Except Error Char := if s.atEnd then .ok endMark else s.peek

/-- The characters from an offset to the end of the window. -/
def charactersFrom (s : Scanner) (offset : Nat) : Except Error (List Char) :=
  if offset < s.stop then
    match s.decodeAt offset with
    | .error e => .error e
    | .ok (c, width) => (s.charactersFrom (offset + width.bytes)).map (c :: ·)
  else .ok []
termination_by s.stop - offset
decreasing_by have := width.bytes_pos; omega

/-- The characters from the cursor to the end of the window. -/
def characters (s : Scanner) : Except Error (List Char) := s.charactersFrom s.pos

/-! ### Text of the window -/

/-- The text of `[start, stop)`. -/
def textBetween (s : Scanner) (start stop : Nat) : Except Error String :=
  (s.buffer.text start stop).mapError fun (offset, reason) => .scan (.malformed offset reason)

/-- The text of the whole window. -/
def text (s : Scanner) : Except Error String := s.textBetween s.start s.stop

/-- How many characters a preview shows. -/
def previewLength : Nat := 40

/-- The beginning of the window's text, malformed or not. -/
def preview (s : Scanner) : String :=
  let chars := s.buffer.lenientText s.start s.stop (previewLength + 1)
  if previewLength < chars.length then String.ofList (chars.take previewLength) ++ "..."
  else String.ofList chars

/-- A line that shows the window, the cursor and the beginning of the text. -/
def describe (s : Scanner) : String :=
  s!"Parser(start={s.start}, end={s.stop}, position={s.pos}, text={Text.quoted s.preview})"

/-! ### Places and reports -/

/-- Line and column of an offset in the whole buffer, or of the cursor. -/
def lineColumn (s : Scanner) (offset? : Option Int) : Except Error (Nat × Nat) :=
  (s.buffer.lineColumnOf (offset?.getD s.pos)).mapError .argument

/-- The diagnostic of an error, with its place if that lies in the buffer. -/
def diagnose (s : Scanner) (e : ScanError) : Option Diagnostic :=
  e.diagnostic?.map fun d =>
    if 0 ≤ e.position ∧ e.position ≤ s.buffer.size then
      { d with span := some (s.buffer.span e.position.toNat e.position) }
    else d

end Scanner

end Utf8Scan
