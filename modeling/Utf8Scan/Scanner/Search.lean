/-
Searching forward from the cursor.

`readUntil` stops at the first character that passes a test, without consuming it, and
`readWhile` at the first that does not; both give a scanner for what lies between.
`countWhile` goes as far as `readWhile`, and says how many characters that were.  A text
is searched for as bytes: since no character's encoding occurs inside another's, the
first place where the bytes lie is the first place where the text does.

`readLine` also consumes the line end, and takes CR LF for one.
-/
import Utf8Scan.Scanner.Match

namespace Utf8Scan

namespace Scanner

/-- The first offset at which a character of the window passes a test, if any does. -/
def seek (s : Scanner) (test : CharTest) (offset : Nat) : Except Error (Option Nat) :=
  if offset < s.stop then
    match s.decodeAt offset with
    | .error e => .error e
    | .ok (c, width) =>
      match test c with
      | .error e => .error e
      | .ok true => .ok (some offset)
      | .ok false => s.seek test (offset + width.bytes)
  else .ok none
termination_by s.stop - offset
decreasing_by have := width.bytes_pos; omega

/-- Where the characters in a row that pass a test end. -/
def pass (s : Scanner) (test : CharTest) (offset : Nat) : Except Error Nat :=
  if offset < s.stop then
    match s.decodeAt offset with
    | .error e => .error e
    | .ok (c, width) =>
      match test c with
      | .error e => .error e
      | .ok true => s.pass test (offset + width.bytes)
      | .ok false => .ok offset
  else .ok offset
termination_by s.stop - offset
decreasing_by have := width.bytes_pos; omega

/-- How many characters in a row pass a test, counted on from `passed`, and where they end. -/
def tally (s : Scanner) (test : CharTest) (offset passed : Nat) : Except Error (Nat × Nat) :=
  if offset < s.stop then
    match s.decodeAt offset with
    | .error e => .error e
    | .ok (c, width) =>
      match test c with
      | .error e => .error e
      | .ok true => s.tally test (offset + width.bytes) (passed + 1)
      | .ok false => .ok (passed, offset)
  else .ok (passed, offset)
termination_by s.stop - offset
decreasing_by have := width.bytes_pos; omega

/-- The end of a search: what lies before the find, or before the end of the window if the find is
not required. -/
def finish (s : Scanner) (target : Target) (required : Bool) (found? : Option Nat) :
    Except Error (Scanner × Nat) :=
  match found? with
  | some found => .ok (s.view s.pos found, found)
  | none =>
    if required then .error (.scan (.notFound target s.pos)) else .ok (s.view s.pos s.stop, s.stop)

end Scanner

namespace Scan

/-! ### Up to a find -/

/-- Reads up to the first character that passes a test, naming the target if there is none. -/
def readUntil (test : CharTest) (target : Target) (required : Bool) : Scan Scanner :=
  step fun s => (s.seek test s.pos).bind (s.finish target required)

def readUntilChar (text : String) (required : Bool) : Scan Scanner :=
  readUntil (.equals text) (.text text) required

def readUntilSet (chars : CharSet) (required : Bool) : Scan Scanner :=
  readUntil (.inSet chars) .charSet required

def readUntilTest (test : CharTest) (required : Bool) : Scan Scanner :=
  readUntil test .test required

/-- Reads up to the first occurrence of a text. -/
def readUntilString (text : String) (required : Bool) : Scan Scanner := step fun s =>
  if text = "" then .error (.scan (.emptyTarget "read_until_string"))
  else s.finish (.text text) required (s.buffer.find? (encoded text) s.pos s.stop)

/-- Reads up to the end of the window. -/
def readToEnd : Scan Scanner := step fun s => .ok (s.view s.pos s.stop, s.stop)

/-! ### As long as a test is passed -/

/-- Consumes the characters that pass a test and counts them. -/
def countWhile (test : CharTest) : Scan Nat := step fun s => s.tally test s.pos 0

/-- Consumes the characters that pass a test. -/
def readWhile (test : CharTest) : Scan Scanner := step fun s =>
  (s.pass test s.pos).map fun after => (s.view s.pos after, after)

def readWhileChar (text : String) : Scan Nat := countWhile (.equals text)

def readWhileSet (chars : CharSet) : Scan Scanner := readWhile (.inSet chars)

/-- Consumes white space, as the scanner's classifier sees it. -/
def skipWhitespace : Scan Nat := do
  let s ← get
  countWhile (s.classifier.test .whitespace)

/-! ### Lines -/

/-- Consumes a line end at the cursor, if the window goes on. -/
def lineEnd : Scan Unit := do
  unless (← get).atEnd do
    let first ← character
    if first = '\r' then
      unless (← get).atEnd do
        discard (matchChar "\n")

/-- Reads a line and consumes its end, which is not part of the line. -/
def readLine (required : Bool) : Scan Scanner := backtrack do
  let s ← get
  let line ← readUntilTest (s.classifier.test .newline) required
  lineEnd
  return line

end Scan

end Utf8Scan
