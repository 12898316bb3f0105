/-
Why bytes do not spell a character, and how a message says so.

The reader of single characters explains what is wrong with a sequence; the last
three reasons are those of the reader of whole texts, which knows only where the
well-formed sequences end.
-/
import Utf8Scan.Text.Hex

namespace Utf8Scan

open Text

inductive Reason where
  /-- A continuation byte stands where a character should start. -/
  | continuationFirst
  /-- No sequence starts with this byte. -/
  | impossibleLead (byte : UInt8)
  /-- A byte that should continue the sequence does not. -/
  | continuationMissing
  /-- The value fits into fewer bytes. -/
  | overlong (value : Nat)
  /-- The value is reserved for pairs of sixteen-bit units. -/
  | surrogate (value : Nat)
  /-- The value is beyond the last code point. -/
  | aboveLimit (value : Nat)
  /-- Looking back, the leading byte announces another width. -/
  | widthMismatch
  /-- Looking back, there are only continuation bytes. -/
  | leadMissing
  /-- No well-formed sequence starts with this byte. -/
  | invalidStart
  /-- A well-formed sequence cannot go on with this byte. -/
  | invalidContinuation
  /-- The text ends inside a sequence that was well formed so far. -/
  | unexpectedEnd
  deriving DecidableEq, Repr

/-- The words a message gives for a reason. -/
def Reason.text : Reason → String
  | continuationFirst => "unexpected continuation byte"
  | impossibleLead byte => "byte 0x" ++ upperHex 2 byte.toNat ++ " cannot start a sequence"
  | continuationMissing => "expected continuation byte"
  | overlong value => "overlong encoding of U+" ++ upperHex 4 value
  | surrogate value => "surrogate U+" ++ upperHex 4 value
  | aboveLimit value => "value 0x" ++ upperHex 1 value ++ " above U+10FFFF"
  | widthMismatch => "sequence length does not match boundary"
  | leadMissing => "no leading byte before continuation bytes"
  | invalidStart => "invalid start byte"
  | invalidContinuation => "invalid continuation byte"
  | unexpectedEnd => "unexpected end of data"

end Utf8Scan
