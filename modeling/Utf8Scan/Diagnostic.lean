/-
Diagnostics: what is told about an error, apart from how it is laid out.

A diagnostic names its code, says what happened, and may carry a place, a hint and
what was expected and found, which are texts where scanning makes the diagnostic.  The
kinds of message that scanning gives are each built in one place here, so that their
wording cannot drift apart.
-/
import Utf8Scan.Argument
import Utf8Scan.Datum

namespace Utf8Scan

/-- What sort of thing went wrong. -/
inductive Code where
  | overflow
  | unexpected
  | emptyInput
  | invalidCharacter
  deriving DecidableEq, Repr, Inhabited

namespace Code

def name : Code → String
  | overflow => "OVERFLOW"
  | unexpected => "UNEXPECTED"
  | emptyInput => "EMPTY_INPUT"
  | invalidCharacter => "INVALID_CHARACTER"

/-- Errors of scanning are numbered from 1000 on, errors of encoding from 2000 on. -/
def number : Code → Nat
  | overflow => 1001
  | unexpected => 1002
  | emptyInput => 1003
  | invalidCharacter => 2001

def all : List Code := [overflow, unexpected, emptyInput, invalidCharacter]

def ofName? (name : String) : Option Code := all.find? fun code => code.name == name

end Code

/-- A place in a buffer: byte offsets, and the line and column of the first of them. -/
structure Span where
  start : Nat
  stop : Nat
  line : Nat
  column : Nat
  start_le_stop : start ≤ stop
  line_pos : 0 < line
  column_pos : 0 < column
  deriving DecidableEq, Repr

/-- The span with the given numbers, or the first thing that is wrong with them. -/
def Span.ofInts (start stop line column : Int) : Except ArgumentError Span :=
  if hstart : start < 0 then .error (.spanStart start)
  else if hstop : stop < start then .error (.spanStop stop start)
  else if hline : line < 1 then .error (.spanLine line)
  else if hcolumn : column < 1 then .error (.spanColumn column)
  else
    .ok {
      start := start.toNat
      stop := stop.toNat
      line := line.toNat
      column := column.toNat
      start_le_stop := by omega
      line_pos := by omega
      column_pos := by omega }

structure Diagnostic where
  code : Code
  message : String
  span : Option Span := none
  hint : Datum := .null
  expected : Datum := .null
  found : Datum := .null
  severity : String := "error"
  deriving DecidableEq, Repr

namespace Diagnostic

/-! ### The messages of scanning

The parts of a message are whatever it can show: offsets and texts where scanning makes
the message, and whatever was handed over where a caller asks for it.
-/

section Messages

variable {α β : Type} [ToString α] [ToString β]

/-- A read needed more than the window holds. -/
def overflow (position : α) : Diagnostic where
  code := .overflow
  message := s!"Unexpected end of input at byte {position}"
  hint := "Check for incomplete input before reading further"

/-- A step back would leave the window. -/
def underflow (position : α) : Diagnostic where
  code := .overflow
  message := s!"Cannot retreat past start of range at byte {position}"
  hint := "Sub-parsers cannot move outside the range they were created with"

/-- A search reached the end of the window. -/
def notFound (expected : Datum) (position : α) : Diagnostic where
  code := .overflow
  message := s!"Reached end of input searching for {expected} from byte {position}"
  hint := "Pass fail_on_overflow=False to accept the rest of the input"
  expected := expected

/-- The text has something else than was required. -/
def unexpected (expected found : Datum) (position : α) : Diagnostic where
  code := .unexpected
  message := s!"Expected {expected} at byte {position}, found {found}"
  expected := expected
  found := found

/-- There is nothing to match or to search for. -/
def emptyInput (operation : α) : Diagnostic where
  code := .emptyInput
  message := s!"{operation}() requires a non-empty target"
  hint := "Pass at least one character to match or search for"

/-- The bytes are not well formed. -/
def invalidCharacter (position : α) (reason : β) : Diagnostic where
  code := .invalidCharacter
  message := s!"Invalid UTF-8 at byte {position}: {reason}"
  hint := "Input must be well-formed UTF-8"

/-- The window ends inside a sequence of `width` bytes. -/
def truncatedSequence (position : α) (width : β) : Diagnostic where
  code := .overflow
  message := s!"Truncated {width}-byte UTF-8 sequence at byte {position}"
  hint := "The range ends in the middle of a character"

end Messages

end Diagnostic

end Utf8Scan
