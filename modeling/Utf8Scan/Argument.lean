/-
Arguments that an operation refuses before it looks at any character.

These are mistakes of the caller, not of the text, and so they are kept apart from
the errors of scanning: nothing that recovers from a failed scan recovers from them.
-/
import Utf8Scan.Text.Quoted

namespace Utf8Scan

inductive ArgumentError where
  /-- The buffer has more bytes than allowed. -/
  | tooLarge (size : Nat) (limit : Int)
  /-- A range would start inside a character. -/
  | startInsideCharacter (start : Int)
  /-- A range would end inside a character. -/
  | stopInsideCharacter (stop : Int)
  /-- A range does not lie inside the window. -/
  | outsideWindow (start stop : Int) (windowStart windowStop : Nat)
  /-- A mark is not a boundary inside the window. -/
  | unusableMark (mark : Int) (windowStart windowStop : Nat)
  | negativeCount (count : Int)
  | negativeRetreat (count : Int)
  | negativePosition (position : Int)
  | spanStart (start : Int)
  | spanStop (stop start : Int)
  | spanLine (line : Int)
  | spanColumn (column : Int)
  /-- An item of a character set is not one character. -/
  | notOneCharacter (item : String)
  /-- No output format has this name, given as it is written in a message. -/
  | unknownFormat (written : String)
  /-- An error of a caller's own test. -/
  | custom (text : String)
  deriving DecidableEq, Repr

def ArgumentError.message : ArgumentError → String
  | tooLarge size limit => s!"Buffer of {size} bytes exceeds maximum of {limit} bytes"
  | startInsideCharacter start => s!"Range start {start} is in the middle of a UTF-8 character"
  | stopInsideCharacter stop => s!"Range end {stop} is in the middle of a UTF-8 character"
  | outsideWindow start stop windowStart windowStop =>
    s!"Range [{start}, {stop}) is outside parser range [{windowStart}, {windowStop})"
  | unusableMark mark windowStart windowStop =>
    s!"Cannot restore cursor to {mark}: not a boundary in [{windowStart}, {windowStop}]"
  | negativeCount count => s!"count must be >= 0, got {count}"
  | negativeRetreat count => s!"retreat() count must be >= 0, got {count}"
  | negativePosition position => s!"Position must be >= 0, got {position}"
  | spanStart start => s!"SourceSpan.start must be >= 0, got {start}"
  | spanStop stop start => s!"SourceSpan.end ({stop}) must be >= start ({start})"
  | spanLine line => s!"SourceSpan.line must be >= 1 (1-indexed), got {line}"
  | spanColumn column => s!"SourceSpan.column must be >= 1 (1-indexed), got {column}"
  | notOneCharacter item => s!"char_set elements must be single characters, got {Text.quoted item}"
  | unknownFormat written => s!"{written} is not a valid OutputFormat"
  | custom text => text

end Utf8Scan
