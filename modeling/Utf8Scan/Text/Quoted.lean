/-
Texts in quotes, for messages that name what was looked for or found.

A quoted text holds only printable characters, so whatever the input contains, a
message stays on one line.  Single quotes are preferred; double quotes are used when
the text has single quotes and no double ones, which then need no escape.
-/
import Utf8Scan.Text.Hex
import Utf8Scan.Unicode.Unprintable

namespace Utf8Scan.Text

def singleQuote : Char := '\x27'

def doubleQuote : Char := '\x22'

/-- The quote that is put around a text. -/
def quoteFor (text : List Char) : Char :=
  if text.contains singleQuote && !text.contains doubleQuote then doubleQuote else singleQuote

/-- How an unprintable character is written: by its number, as short as its size allows. -/
def numbered (c : Char) : List Char :=
  if c.toNat < 0x100 then '\\' :: 'x' :: hexDigits 2 c.toNat
  else if c.toNat < 0x10000 then '\\' :: 'u' :: hexDigits 4 c.toNat
  else '\\' :: 'U' :: hexDigits 8 c.toNat

/-- How one character is written between the given quotes. -/
def quotedChar (quote c : Char) : List Char :=
  if c = quote ∨ c = '\\' then ['\\', c]
  else if c = '\n' then ['\\', 'n']
  else if c = '\r' then ['\\', 'r']
  else if c = '\t' then ['\\', 't']
  else if Unicode.unprintable.contains c.toNat then numbered c
  else [c]

def quotedChars (text : List Char) : List Char :=
  let quote := quoteFor text
  quote :: (text.flatMap (quotedChar quote) ++ [quote])

/-- A text in quotes. -/
def quoted (text : String) : String := String.ofList (quotedChars text.toList)

end Utf8Scan.Text
