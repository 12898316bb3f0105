/-
The four questions that scanning asks about a character.

Each is answered from tables, so a code point that stands for no character, such as a
surrogate, has none of the properties.
-/
import Utf8Scan.Unicode.Alphabetic
import Utf8Scan.Unicode.Letter
import Utf8Scan.Unicode.Numeric

namespace Utf8Scan

namespace Unicode

/-- The property White_Space. -/
def whiteSpace : RangeTable where
  ranges := #[
    (0x0009, 0x000D), (0x0020, 0x0020), (0x0085, 0x0085), (0x00A0, 0x00A0), (0x1680, 0x1680),
    (0x2000, 0x200A), (0x2028, 0x2029), (0x202F, 0x202F), (0x205F, 0x205F), (0x3000, 0x3000)]

/-- The characters that end a line: LF, VT, FF, CR, NEL and the line and paragraph separators. -/
def lineEnd : RangeTable where
  ranges := #[(0x000A, 0x000D), (0x0085, 0x0085), (0x2028, 0x2029)]

end Unicode

inductive Property where
  | whitespace
  | newline
  | number
  | letter
  deriving DecidableEq, Repr

namespace Property

/-- Whether a code point has the property. -/
def holds (property : Property) (codePoint : Nat) : Bool :=
  match property with
  | whitespace => Unicode.whiteSpace.contains codePoint
  | newline => Unicode.lineEnd.contains codePoint
  | number => Unicode.numeric.contains codePoint
  | letter =>
    Unicode.letter.contains codePoint || Unicode.letterNumber.contains codePoint
      || Unicode.otherAlphabetic.contains codePoint

end Property

end Utf8Scan
