/-
How diagnostics are laid out as text.

There are three styles: a block of lines with the place, what was expected and found
and a hint each on a line of their own, a single line, and an object for other tools.
Long texts can be cut, and the block can be coloured for a terminal.  Parts that are
nothing or empty are left out.

Only texts can be cut.  Another value has to be short enough already, so a layout that
cuts refuses some diagnostics; one that does not cut takes all of them.
-/
import Utf8Scan.Datum.Json
import Utf8Scan.Error

namespace Utf8Scan

inductive Style where
  | block
  | line
  | object
  deriving DecidableEq, Repr, Inhabited

/-- The style that a caller asks for: one of three names, and nothing else. -/
def Style.ofDatum : Datum → Except ArgumentError Style
  | .text "rust" => .ok .block
  | .text "simple" => .ok .line
  | .text "json" => .ok .object
  | other => .error (.unknownFormat other.written)

structure Layout where
  style : Style := .block
  /-- Whether long texts are cut. -/
  cut : Bool := false
  color : Bool := false
  /-- How many characters a cut text keeps; a negative number counts from its end. -/
  maxLength : Int := 100
  deriving DecidableEq, Repr

namespace Layout

/-- The first `count` characters, or all but the last `-count` if that is negative. -/
def firstChars (count : Int) (text : List Char) : List Char :=
  if 0 ≤ count then text.take count.toNat else text.take (text.length + count).toNat

/-- A text as the layout shows it. -/
def shorten (l : Layout) (text : String) : String :=
  if l.cut && l.maxLength < text.length then
    String.ofList (firstChars l.maxLength text.toList) ++ "..."
  else text

/-- A part as the layout shows it: a text can be cut, another value is shown whole. -/
def shortenPart (l : Layout) : Datum → Datum
  | .text text => .text (l.shorten text)
  | part => part

/-- A part as the layout shows it, if there is something to show. -/
def shown? (l : Layout) (part : Datum) : Option Datum :=
  if part.isSomething then some (l.shortenPart part) else none

/-! ### The three styles -/

/-- The first word of a block: anything but a warning counts as an error. -/
def severityWord (l : Layout) (severity : String) : String :=
  if severity = "warning" then
    if l.color then "\x1b[1;33mwarning\x1b[0m" else "warning"
  else
    if l.color then "\x1b[1;31merror\x1b[0m" else "error"

def headline (l : Layout) (d : Diagnostic) : String :=
  l.severityWord d.severity ++ "[" ++ d.code.name ++ "]: " ++ l.shorten d.message

/-- The lines of a block: the headline, then those details that are present. -/
def blockLines (l : Layout) (d : Diagnostic) : List String :=
  [ some (l.headline d),
    d.span.map fun span => s!"  --> line {span.line}, column {span.column}",
    (l.shown? d.expected).map fun part => "  = expected: " ++ part.shown,
    (l.shown? d.found).map fun part => "  = found: " ++ part.shown,
    (l.shown? d.hint).map fun part => "  = help: " ++ part.shown ].filterMap id

def renderBlock (l : Layout) (d : Diagnostic) : String := "\n".intercalate (l.blockLines d)

def renderLine (l : Layout) (d : Diagnostic) : String :=
  d.code.name ++ ": " ++ l.shorten d.message

def spanFields (span : Span) : List (String × Datum) :=
  [ ("line", .int span.line), ("column", .int span.column),
    ("start", .int span.start), ("end", .int span.stop) ]

/-- The fields of an object: the four that are always there, then those that are present. -/
def fields (l : Layout) (d : Diagnostic) : List (String × Datum) :=
  [ ("code", .text d.code.name), ("code_value", .int d.code.number),
    ("message", .text (l.shorten d.message)), ("severity", .text d.severity) ]
  ++ (d.span.map spanFields).getD []
  ++ [ (l.shown? d.expected).map ("expected", ·),
       (l.shown? d.found).map ("found", ·),
       (l.shown? d.hint).map ("hint", ·) ].filterMap id

def renderObject (l : Layout) (d : Diagnostic) : String := (Datum.fields (l.fields d)).json

/-- A diagnostic whose parts need no cut that they cannot have. -/
def render (l : Layout) (d : Diagnostic) : String :=
  match l.style with
  | .block => l.renderBlock d
  | .line => l.renderLine d
  | .object => l.renderObject d

/-! ### Which diagnostics a layout takes -/

/-- Whether a part can be shown: a value without a length fits no limit. -/
def fits (l : Layout) (part : Datum) : Bool :=
  match part, part.length? with
  | .text _, _ => true
  | _, some length => length ≤ l.maxLength
  | _, none => false

/-- Whether a layout takes a diagnostic: it does unless it comes to cut what cannot be cut. -/
def takes (l : Layout) (d : Diagnostic) : Bool :=
  !l.cut || l.style == .line
    || [d.expected, d.found, d.hint].all fun part => !part.isSomething || l.fits part

/-- The text of a diagnostic, if the layout takes it. -/
def layOut (l : Layout) (d : Diagnostic) : Except Error String :=
  if l.takes d then .ok (l.render d) else .error .uncuttable

/-- Several diagnostics, with an empty line between them. -/
def layOutAll (l : Layout) (ds : List Diagnostic) : Except Error String :=
  return "\n\n".intercalate (← ds.mapM l.layOut)

end Layout

/-- The usual layout: a block, uncoloured and uncut. -/
def Diagnostic.render (d : Diagnostic) : String := ({} : Layout).render d

end Utf8Scan
