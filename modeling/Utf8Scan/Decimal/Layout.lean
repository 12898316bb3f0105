/-
Floating-point numbers as text.

A float is written by its shortest decimal.  Numbers from a ten-thousandth up to
sixteen digits before the point are written out, always with a point; smaller and larger
ones have one digit before the point and an exponent, with its sign and at least two digits.
Zero keeps its sign.
-/
import Utf8Scan.Decimal.Shortest

namespace Utf8Scan.Decimal

def digitChars (d : Decimal) : List Char := Nat.toDigits 10 d.digits

/-- The exponent that the first digit stands for. -/
def magnitude (d : Decimal) : Int := d.exponent + d.digitChars.length - 1

/-- All digits around a point, at least one of them on each side. -/
def plain (d : Decimal) : List Char :=
  if 0 ≤ d.exponent then
    d.digitChars ++ List.replicate d.exponent.toNat '0' ++ ['.', '0']
  else
    let places := (-d.exponent).toNat
    let padded := d.digitChars.leftpad (places + 1) '0'
    let whole := padded.length - places
    padded.take whole ++ '.' :: padded.drop whole

/-- One digit, the others behind a point if there are any, and the exponent. -/
def scientific (d : Decimal) : List Char :=
  let significand :=
    match d.digitChars with
    | first :: second :: rest => first :: '.' :: second :: rest
    | single => single
  let sign := if d.magnitude < 0 then '-' else '+'
  significand ++ 'e' :: sign :: (Nat.toDigits 10 d.magnitude.natAbs).leftpad 2 '0'

/-- A number that is not negative, written out if it is neither too small nor too large for that. -/
def render (d : Decimal) : List Char :=
  if -4 ≤ d.magnitude ∧ d.magnitude < 16 then d.plain else d.scientific

/-! ### Floats -/

/-- The bits of infinity; those of numbers are below, those of no number above. -/
def infinityBits : Nat := 0x7FF * Nat.pow 2 52

/-- A float without its sign, from its bits. -/
def renderMagnitude (bits : Nat) : List Char :=
  if bits = infinityBits then ['i', 'n', 'f']
  else if bits = 0 then render ⟨0, 0⟩
  else (Cell.ofBits bits).shortest.render

/-- The text of the float with these bits, the highest of which is the sign. -/
def renderBits (bits : Nat) : List Char :=
  let magnitude := bits % Nat.pow 2 63
  if infinityBits < magnitude then ['n', 'a', 'n']
  else if bits < Nat.pow 2 63 then renderMagnitude magnitude
  else '-' :: renderMagnitude magnitude

/-- The text of a float. -/
def ofFloat (value : Float) : String := String.ofList (renderBits value.toBits.toNat)

end Utf8Scan.Decimal
