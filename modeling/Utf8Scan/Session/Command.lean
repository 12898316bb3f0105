/-
Commands: the operations of a scanner as data, each with its arguments.

Running a command gives a value or an error, and the scanner as it is afterwards.
-/
import Utf8Scan.Scanner.Search
import Utf8Scan.Text.Hex

namespace Utf8Scan

/-- How a caller gives a set of characters. -/
inductive CharSource where
  /-- The characters of a text. -/
  | characters (text : String)
  /-- Texts, of which only the single characters matter. -/
  | items (items : List String)
  /-- Texts that must all be single characters. -/
  | singles (items : List String)
  deriving DecidableEq, Repr

def CharSource.resolve : CharSource → Except Error CharSet
  | characters text => .ok (.ofString text)
  | items list => .ok (.ofItems list)
  | singles list => (CharSet.ofSingles list).mapError .argument

inductive Command where
  -- the window and the cursor
  | start
  | stop
  | position
  | byteCount
  | remaining
  | atEnd
  | buffer
  | text
  | describe
  | lineColumn (position? : Option Int)
  -- characters
  | peek
  | current
  | character
  | characters
  | readCount (count : Int)
  -- moves
  | advance (count : Int)
  | retreat (count : Int)
  | reset
  | restore (mark : Int)
  -- matching
  | matchChar (text : String)
  | matchAny (chars : CharSource)
  | matchString (text : String)
  | expectChar (text : String)
  | expectString (text : String)
  -- parts of the window
  | subScanner (start stop : Int)
  | readUntilChar (text : String) (required : Bool)
  | readUntilSet (chars : CharSource) (required : Bool)
  | readUntilTest (test : CharTest) (required : Bool)
  | readUntilString (text : String) (required : Bool)
  | readToEnd
  | readWhileChar (text : String)
  | readWhileSet (chars : CharSource)
  | readWhileTest (test : CharTest)
  | skipWhitespace
  | readLine (required : Bool)

/-- What a command returns. -/
inductive Value where
  | none
  | bool (answer : Bool)
  | number (n : Nat)
  | text (text : String)
  | characters (chars : List Char)
  | place (line column : Nat)
  | scanner (s : Scanner)

namespace Command

open Scan

/-- Runs an operation on the set that the caller gave, if it is one. -/
def withChars {α : Type} (chars : CharSource) (operation : CharSet → Scan α) : Scan α := do
  let set ← query fun _ => chars.resolve
  operation set

/-- A number read off the scanner. -/
def number (f : Scanner → Nat) : Scan Value := query fun s => .ok (.number (f s))

def run : Command → Scan Value
  | start => number Scanner.start
  | stop => number Scanner.stop
  | position => number Scanner.pos
  | byteCount => number Scanner.byteCount
  | remaining => number Scanner.remaining
  | atEnd => query fun s => .ok (.bool s.atEnd)
  | buffer => query fun s => .ok (.text (Text.hexOfBytes s.buffer.toList))
  | text => query fun s => s.text.map .text
  | describe => query fun s => .ok (.text s.describe)
  | lineColumn position? => query fun s => (s.lineColumn position?).map fun (l, c) => .place l c
  | peek => query fun s => s.peek.map fun c => .text (String.singleton c)
  | current => query fun s => s.current.map fun c => .text (String.singleton c)
  | character => do return .text (String.singleton (← Scan.character))
  | characters => query fun s => s.characters.map .characters
  | readCount count => do return .text (← Scan.readCount count)
  | advance count => do Scan.advance count; return .none
  | retreat count => do Scan.retreat count; return .none
  | reset => do Scan.reset; return .none
  | restore mark => do Scan.restore mark; return .none
  | matchChar string => do return .bool (← Scan.matchChar string)
  | matchAny chars => do return .bool (← withChars chars Scan.matchAny)
  | matchString string => do return .bool (← Scan.matchString string)
  | expectChar string => do Scan.expectChar string; return .none
  | expectString string => do Scan.expectString string; return .none
  | subScanner first last => query fun s => (s.subScanner first last).map .scanner
  | readUntilChar string required => do return .scanner (← Scan.readUntilChar string required)
  | readUntilSet chars required => do
    return .scanner (← withChars chars (Scan.readUntilSet · required))
  | readUntilTest test required => do return .scanner (← Scan.readUntilTest test required)
  | readUntilString string required => do return .scanner (← Scan.readUntilString string required)
  | readToEnd => do return .scanner (← Scan.readToEnd)
  | readWhileChar string => do return .number (← Scan.readWhileChar string)
  | readWhileSet chars => do return .scanner (← withChars chars Scan.readWhileSet)
  | readWhileTest test => do return .scanner (← Scan.readWhile test)
  | skipWhitespace => do return .number (← Scan.skipWhitespace)
  | readLine required => do return .scanner (← Scan.readLine required)

end Command

end Utf8Scan
