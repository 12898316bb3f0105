/-
What can go wrong, by cause.

An error of scanning says where in the buffer it happened and what it was about; its
kind, its message and its diagnostic are read off the cause.  A caller's own tests
may raise errors of scanning too, whose content is then theirs.
-/
import Utf8Scan.Diagnostic
import Utf8Scan.Sequence

namespace Utf8Scan

/-- The families of scanning errors that a caller can tell apart. -/
inductive ErrorKind where
  | general
  | overflow
  | unexpected
  | emptyInput
  | invalidCharacter
  deriving DecidableEq, Repr

/-- What a search looks for. -/
inductive Target where
  | text (string : String)
  | charSet
  | test
  deriving DecidableEq, Repr

/-- How a message names the target of a search. -/
def Target.describe : Target → String
  | .text string => Text.quoted string
  | .charSet => "character in set"
  | .test => "matching character"

inductive ScanError where
  /-- There is no character at the offset, where the window ends. -/
  | overflow (offset : Int)
  /-- There is no character before the offset, where the window starts. -/
  | underflow (offset : Int)
  /-- A search from the offset did not find its target. -/
  | notFound (target : Target) (offset : Int)
  /-- The window ends inside the sequence at the offset. -/
  | truncated (offset : Int) (width : Width)
  /-- The bytes at the offset are not well formed. -/
  | malformed (offset : Int) (reason : Reason)
  /-- The characters at the offset are not the required ones. -/
  | unexpected (expected found : String) (offset : Int)
  /-- An operation was asked to match or to search for nothing. -/
  | emptyTarget (operation : String)
  /-- An error made outside this library. -/
  | custom (kind : ErrorKind) (content : String ⊕ Diagnostic) (position : Int)
  deriving DecidableEq

namespace ScanError

def kind : ScanError → ErrorKind
  | overflow _ | underflow _ | notFound _ _ | truncated _ _ => .overflow
  | malformed _ _ => .invalidCharacter
  | unexpected _ _ _ => .unexpected
  | emptyTarget _ => .emptyInput
  | custom kind _ _ => kind

/-- The byte offset of the error, or -1 where there is none. -/
def position : ScanError → Int
  | overflow offset | underflow offset | notFound _ offset | truncated offset _
  | malformed offset _ | unexpected _ _ offset => offset
  | emptyTarget _ => -1
  | custom _ _ position => position

def diagnostic? : ScanError → Option Diagnostic
  | overflow offset => some (.overflow offset)
  | underflow offset => some (.underflow offset)
  | notFound target offset => some (.notFound target.describe offset)
  | truncated offset width => some (.truncatedSequence offset width.bytes)
  | malformed offset reason => some (.invalidCharacter offset reason.text)
  | unexpected expected found offset =>
    some (.unexpected (Text.quoted expected) (Text.quoted found) offset)
  | emptyTarget operation => some (.emptyInput operation)
  | custom _ (.inl _) _ => none
  | custom _ (.inr diagnostic) _ => some diagnostic

def message (e : ScanError) : String :=
  match e with
  | custom _ (.inl text) _ => text
  | e => (e.diagnostic?.map Diagnostic.message).getD ""

end ScanError

inductive Error where
  /-- The text was not as the operation needed it. -/
  | scan (error : ScanError)
  /-- The caller asked for something that makes no sense. -/
  | argument (error : ArgumentError)
  /-- A byte outside the buffer was to be read. -/
  | outsideBuffer
  /-- A property of a single character was asked of another text. -/
  | notOneCharacter
  /-- A message or a span was asked for with the wrong parts. -/
  | wrongParts
  /-- A layout was to cut a value that is not a text. -/
  | uncuttable
  /-- A scanner was to be made from something that is neither text nor bytes. -/
  | unsupportedData (typeName : String)
  deriving DecidableEq

instance : Coe ScanError Error := ⟨.scan⟩

instance : Coe ArgumentError Error := ⟨.argument⟩

/-- The message of an error, where it has one. -/
def Error.message? : Error → Option String
  | scan error => some error.message
  | argument error => some error.message
  | outsideBuffer | notOneCharacter | wrongParts | uncuttable => none
  | unsupportedData typeName => some s!"Parser expects str or bytes-like data, got {typeName}"

/-- The error of a fault that was met reading forward from an offset. -/
def Fault.errorAhead (fault : Fault) (offset : Int) : Error :=
  match fault with
  | exhausted => .scan (.overflow offset)
  | unreadable => .outsideBuffer
  | truncated width => .scan (.truncated offset width)
  | malformed displacement reason => .scan (.malformed (offset + displacement) reason)

/-- The error of a fault that was met reading backward from an offset, not below a floor. -/
def Fault.errorBehind (fault : Fault) (offset floor : Int) : Error :=
  match fault with
  | exhausted => .scan (.underflow floor)
  | fault => fault.errorAhead offset

end Utf8Scan
