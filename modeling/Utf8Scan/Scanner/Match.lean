/-
Matching at the cursor.

The `match` operations answer whether the text goes on as asked, and move past the
match if it does; it is an error only if there is too little text to tell.  The
`expect` operations turn the answer "no" into an error that shows what is there.
-/
import Utf8Scan.Scanner.Cursor

namespace Utf8Scan.Scan

/-- Consumes the character at the cursor if it passes a test. -/
def matchTest (test : CharTest) : Scan Bool := step fun s =>
  match s.decodeAt s.pos with
  | .error e => .error e
  | .ok (c, width) =>
    (test c).map fun passed => if passed then (true, s.pos + width.bytes) else (false, s.pos)

/-- Consumes the character at the cursor if the text is just that character. -/
def matchChar (text : String) : Scan Bool := matchTest (.equals text)

/-- Consumes the character at the cursor if it is in a set. -/
def matchAny (chars : CharSet) : Scan Bool := matchTest (.inSet chars)

/-- The UTF-8 encoding of a text. -/
def encoded (text : String) : List UInt8 := (Buffer.ofString text).toList

/-- Consumes as many characters as a text has if they are that text.

The characters are counted by the leading bytes in the buffer, so too few of them are
an error even where the first one differs. -/
def matchString (text : String) : Scan Bool := step fun s =>
  if text = "" then .error (.scan (.emptyTarget "match_string"))
  else
    (s.skip text.length s.pos).map fun after =>
      let bytes := encoded text
      if after = s.pos + bytes.length ∧ s.buffer.holdsAt s.pos bytes then (true, after)
      else (false, s.pos)

/-- Consumes a character or fails. -/
def expectChar (text : String) : Scan Unit := do
  unless ← matchChar text do
    let s ← get
    let found ← query Scanner.peek
    throw (.scan (.unexpected text (String.singleton found) s.pos))

/-- Consumes a text or fails. -/
def expectString (text : String) : Scan Unit := do
  unless ← matchString text do
    let s ← get
    let found ← query fun s => (s.skip text.length s.pos).bind (s.textBetween s.pos)
    throw (.scan (.unexpected text found s.pos))

end Utf8Scan.Scan
