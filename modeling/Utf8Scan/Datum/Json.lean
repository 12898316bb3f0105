/-
Values as JSON, on one line.

A text keeps every character above U+001F except the quote and the backslash as it is, so
non-ASCII text stays readable, and the line never breaks.  Named values keep their
order.
-/
import Utf8Scan.Datum

namespace Utf8Scan.Datum

/-- How one character is written inside a text. -/
def jsonChar (c : Char) : List Char :=
  if c = '\x22' then ['\\', '\x22']
  else if c = '\\' then ['\\', '\\']
  else if c = '\n' then ['\\', 'n']
  else if c = '\r' then ['\\', 'r']
  else if c = '\t' then ['\\', 't']
  else if c = '\x08' then ['\\', 'b']
  else if c = '\x0c' then ['\\', 'f']
  else if c.toNat < 0x20 then '\\' :: 'u' :: Text.hexDigits 4 c.toNat
  else [c]

def jsonText (text : String) : List Char :=
  '\x22' :: (text.toList.flatMap jsonChar ++ ['\x22'])

def jsonInt : Int → List Char
  | .ofNat n => Nat.toDigits 10 n
  | .negSucc n => '-' :: Nat.toDigits 10 (n + 1)

/-- A float; those that are no numbers have names of their own. -/
def jsonFloat (value : Float) : List Char :=
  if value.isNaN then "NaN".toList
  else if value.isInf then (if value < 0 then "-Infinity" else "Infinity").toList
  else (Decimal.ofFloat value).toList

mutual

def jsonChars : Datum → List Char
  | null => "null".toList
  | bool value => (if value then "true" else "false").toList
  | int value => jsonInt value
  | float value => jsonFloat value
  | text value => jsonText value
  | list items => '[' :: ([',', ' '].intercalate (jsonItems items) ++ [']'])
  | fields entries => '\x7b' :: ([',', ' '].intercalate (jsonEntries entries) ++ ['\x7d'])

def jsonItems : List Datum → List (List Char)
  | [] => []
  | first :: rest => first.jsonChars :: jsonItems rest

def jsonEntries : List (String × Datum) → List (List Char)
  | [] => []
  | (name, value) :: rest =>
    (jsonText name ++ [':', ' '] ++ value.jsonChars) :: jsonEntries rest

end

/-- The value on one line, with a blank after each colon and each comma. -/
def json (value : Datum) : String := String.ofList value.jsonChars

theorem jsonEntries_eq_map (entries : List (String × Datum)) :
    jsonEntries entries =
      entries.map fun entry => jsonText entry.1 ++ [':', ' '] ++ entry.2.jsonChars := by
  induction entries with
  | nil => rfl
  | cons entry rest ih => simp [jsonEntries, ih]

end Utf8Scan.Datum
