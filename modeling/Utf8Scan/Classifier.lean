/-
Classifiers, tests and sets of characters: how a caller says which characters a scan
is about.

A scan never looks at what a character means.  It asks a test, and a test may also
refuse to answer and raise an error, which then ends the scan.  A classifier answers
the four questions that scanning itself depends on; it may be asked about any text,
although only single characters have properties in earnest.
-/
import Utf8Scan.Error
import Utf8Scan.Unicode.Property

namespace Utf8Scan

/-! ### Classifiers -/

structure Classifier where
  ask : Property → String → Except Error Bool

/-- The answers to all four questions. -/
structure CharClass where
  isWhitespace : Bool
  isNewline : Bool
  isNumber : Bool
  isLetter : Bool
  deriving DecidableEq, Repr

namespace Classifier

/-- Answers from the character database.

No other text than a single character is white space or a line end, a text is a letter
if it consists of letters, and every other question about such a text is refused. -/
def unicode : Classifier where
  ask property text :=
    match text.toList with
    | [c] => .ok (property.holds c.toNat)
    | chars =>
      match property with
      | .whitespace | .newline => .ok false
      | .number => .error .notOneCharacter
      | .letter =>
        if !chars.isEmpty && chars.all (fun c => Unicode.letter.contains c.toNat) then .ok true
        else .error .notOneCharacter

/-- Whether the first text occurs in the second. -/
def occurs (part : List Char) : List Char → Bool
  | [] => part.isEmpty
  | c :: rest => part.isPrefixOf (c :: rest) || occurs part rest

/-- Answers whether a text occurs in the one listed for the property. -/
def listed (members : Property → String) : Classifier where
  ask property text := .ok (occurs text.toList (members property).toList)

/-- The answer for a single character. -/
def test (k : Classifier) (property : Property) (c : Char) : Except Error Bool :=
  k.ask property (String.singleton c)

/-- Asks all four questions in turn. -/
def classify (k : Classifier) (text : String) : Except Error CharClass := do
  let isWhitespace ← k.ask .whitespace text
  let isNewline ← k.ask .newline text
  let isNumber ← k.ask .number text
  let isLetter ← k.ask .letter text
  return { isWhitespace, isNewline, isNumber, isLetter }

end Classifier

/-! ### Sets of characters -/

structure CharSet where
  members : List Char
  deriving DecidableEq, Repr

namespace CharSet

def contains (s : CharSet) (c : Char) : Bool := s.members.contains c

def ofString (text : String) : CharSet := ⟨text.toList⟩

/-- The character that a text consists of, if it is a single one. -/
def single? (text : String) : Option Char :=
  match text.toList with
  | [c] => some c
  | _ => none

/-- The single characters among some texts; the others match no character. -/
def ofItems (items : List String) : CharSet := ⟨items.filterMap single?⟩

/-- The set of some single characters, or the first text that is not one. -/
def ofSingles : List String → Except ArgumentError CharSet
  | [] => .ok ⟨[]⟩
  | item :: rest =>
    match single? item with
    | none => .error (.notOneCharacter item)
    | some c => (ofSingles rest).map fun s => ⟨c :: s.members⟩

/-- The members in ascending order, each once. -/
def sorted (s : CharSet) : List Char := s.members.eraseDups.mergeSort (fun c d => c.val ≤ d.val)

end CharSet

/-! ### Tests -/

/-- What a scan asks about each character. -/
abbrev CharTest := Char → Except Error Bool

namespace CharTest

def const (answer : Bool) : CharTest := fun _ => .ok answer

/-- Whether a text is just that character. -/
def equals (text : String) : CharTest :=
  let wanted? := CharSet.single? text
  fun c => .ok (wanted? == some c)

def inSet (s : CharSet) : CharTest := fun c => .ok (s.contains c)

/-- The answer of the character database. -/
def has (property : Property) : CharTest := Classifier.unicode.test property

def negate (test : CharTest) : CharTest := fun c => (test c).map (!·)

/-- Raises an error for the members of a set, and is false for all other characters. -/
def raising (s : CharSet) (error : Error) : CharTest := fun c =>
  if s.contains c then .error error else .ok false

end CharTest

end Utf8Scan
