/-
Reading JSON.

The writer leaves much of the grammar unused, but a line is read by tools that know
nothing of the writer, so what the line says is what the grammar makes of it.  This
reader takes the whole grammar and nothing else: blanks between any two signs, every
escape, numbers with fractions and exponents, and no comma too many.

The readers of parts return what they found at the head of a text and what is left
behind it.  A text and its values are bounded by a number of steps; each step takes a
character at least, so the length of the whole is always enough.
-/
import Utf8Scan.Datum

namespace Utf8Scan.Json

def isBlank (c : Char) : Bool := c == ' ' || c == '\t' || c == '\n' || c == '\r'

def skipBlanks (chars : List Char) : List Char := chars.dropWhile isBlank

/-! ### Texts -/

/-- The number that four hexadecimal digits write. -/
def unit? : List Char → Option (Nat × List Char)
  | a :: b :: c :: d :: rest => do
    let a ← Text.hexDigitValue? a
    let b ← Text.hexDigitValue? b
    let c ← Text.hexDigitValue? c
    let d ← Text.hexDigitValue? d
    return (((a * 16 + b) * 16 + c) * 16 + d, rest)
  | _ => none

/-- A character by its number.  Above U+FFFF it takes two: a high surrogate and a low one. -/
def numbered? (chars : List Char) : Option (Char × List Char) := do
  let (first, rest) ← unit? chars
  if first < 0xD800 ∨ 0xDFFF < first then
    return (Char.ofNat first, rest)
  else
    match rest with
    | '\\' :: 'u' :: rest => do
      let (second, rest) ← unit? rest
      if first < 0xDC00 ∧ 0xDC00 ≤ second ∧ second ≤ 0xDFFF then
        return (Char.ofNat (0x10000 + (first - 0xD800) * 0x400 + (second - 0xDC00)), rest)
      else none
    | _ => none

/-- The letters that stand for a character behind a backslash. -/
def escapes : List (Char × Char) :=
  [ ('\x22', '\x22'), ('\\', '\\'), ('/', '/'), ('b', '\x08'), ('f', '\x0c'), ('n', '\n'),
    ('r', '\r'), ('t', '\t') ]

/-- One character inside a text.  The controls of ASCII have to be escaped. -/
def character? : List Char → Option (Char × List Char)
  | '\\' :: 'u' :: rest => numbered? rest
  | '\\' :: letter :: rest => (escapes.lookup letter).map (·, rest)
  | c :: rest => if c.toNat < 0x20 then none else some (c, rest)
  | [] => none

/-- The characters up to the quote that closes a text. -/
def characters? : (steps : Nat) → List Char → Option (List Char × List Char)
  | 0, _ => none
  | _ + 1, '\x22' :: rest => some ([], rest)
  | n + 1, chars => do
    let (c, rest) ← character? chars
    let (more, rest) ← characters? n rest
    return (c :: more, rest)

/-- A text, behind the quote that opens it. -/
def text? (steps : Nat) (chars : List Char) : Option (String × List Char) :=
  (characters? steps chars).map fun (found, rest) => (String.ofList found, rest)

/-! ### Numbers -/

def digits? (chars : List Char) : Option (List Char × List Char) :=
  match chars.takeWhile Char.isDigit with
  | [] => none
  | digits => some (digits, chars.dropWhile Char.isDigit)

/-- The number in front of a fraction: it has no zero in front of other digits. -/
def whole? (chars : List Char) : Option (Nat × List Char) := do
  let (digits, rest) ← digits? chars
  if digits.head? = some '0' ∧ digits ≠ ['0'] then none
  else return (Nat.ofDigitChars 10 digits 0, rest)

/-- The digits of a fraction, if there is one. -/
def fraction? : List Char → Option (Option (List Char) × List Char)
  | '.' :: rest => (digits? rest).map fun (digits, rest) => (some digits, rest)
  | rest => some (none, rest)

/-- Whether an exponent is negative, and its digits. -/
def sign : List Char → Bool × List Char
  | '-' :: rest => (true, rest)
  | '+' :: rest => (false, rest)
  | rest => (false, rest)

/-- An exponent, if there is one. -/
def exponent? : List Char → Option (Option Int × List Char)
  | c :: rest =>
    if c = 'e' ∨ c = 'E' then do
      let (digits, behind) ← digits? (sign rest).2
      let size : Int := Nat.ofDigitChars 10 digits 0
      return (some (if (sign rest).1 then -size else size), behind)
    else some (none, c :: rest)
  | [] => some (none, [])

/-- The float nearest to a number with a fraction or an exponent. -/
def scientific (whole : Nat) (fraction : List Char) (exponent : Int) : Float :=
  let exponent := exponent - fraction.length
  Float.ofScientific (Nat.ofDigitChars 10 fraction whole) (exponent < 0) exponent.natAbs

/-- A number without its sign; it is a float if it has a fraction or an exponent. -/
def unsigned? (negative : Bool) (chars : List Char) : Option (Datum × List Char) := do
  let (whole, rest) ← whole? chars
  let (fraction, rest) ← fraction? rest
  let (exponent, rest) ← exponent? rest
  match fraction, exponent with
  | none, none => return (.int (if negative then -whole else whole), rest)
  | fraction, exponent =>
    let size := scientific whole (fraction.getD []) (exponent.getD 0)
    return (.float (if negative then -size else size), rest)

def number? : List Char → Option (Datum × List Char)
  | '-' :: rest => unsigned? true rest
  | chars => unsigned? false chars

/-! ### Values -/

/-- A value that is written as a word. -/
def word? (word : String) (value : Datum) (chars : List Char) : Option (Datum × List Char) :=
  (word.toList.isPrefixOf? chars).map (value, ·)

section Lists

variable {α : Type} (item : List Char → Option (α × List Char)) (close : Char)

/-- At least one item, with commas between the items and `close` behind the last one. -/
def separated? : (steps : Nat) → List Char → Option (List α × List Char)
  | 0, _ => none
  | n + 1, chars => do
    let (first, rest) ← item (skipBlanks chars)
    match skipBlanks rest with
    | [] => none
    | c :: rest =>
      if c = close then return ([first], rest)
      else if c = ',' then
        let (more, rest) ← separated? n rest
        return (first :: more, rest)
      else none

/-- Any number of items, behind the bracket that opens them. -/
def items? (steps : Nat) (chars : List Char) : Option (List α × List Char) :=
  match skipBlanks chars with
  | [] => none
  | c :: rest => if c = close then some ([], rest) else separated? item close steps (c :: rest)

end Lists

/-- A name, a colon and a value. -/
def pair? (value : List Char → Option (Datum × List Char)) (steps : Nat) :
    List Char → Option ((String × Datum) × List Char)
  | '\x22' :: rest => do
    let (name, rest) ← text? steps rest
    match skipBlanks rest with
    | ':' :: rest => do
      let (found, rest) ← value (skipBlanks rest)
      return ((name, found), rest)
    | _ => none
  | _ => none

/-- A value with nothing in front of it. -/
def value? : (steps : Nat) → List Char → Option (Datum × List Char)
  | 0, _ => none
  | n + 1, '\x22' :: rest => (text? n rest).map fun (found, rest) => (.text found, rest)
  | n + 1, '[' :: rest =>
    (items? (value? n) ']' n rest).map fun (found, rest) => (.list found, rest)
  | n + 1, '\x7b' :: rest =>
    (items? (pair? (value? n) n) '\x7d' n rest).map fun (found, rest) => (.fields found, rest)
  | _ + 1, chars =>
    word? "null" .null chars <|> word? "true" (.bool true) chars
      <|> word? "false" (.bool false) chars <|> number? chars

/-- The value of a text that is a single value, with blanks around it if there are any. -/
def read? (text : String) : Option Datum := do
  let (found, rest) ← value? text.length (skipBlanks text.toList)
  if skipBlanks rest = [] then some found else none

end Utf8Scan.Json
