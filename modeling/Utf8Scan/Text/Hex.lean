/-
Numbers and bytes written with hexadecimal digits.
-/

namespace Utf8Scan.Text

/-- The digits of a number in base sixteen, with zeros in front up to `width` digits. -/
def hexDigits (width number : Nat) : List Char :=
  (Nat.toDigits 16 number).leftpad width '0'

/-- Lowercase digits, at least `width` of them. -/
def lowerHex (width number : Nat) : String := String.ofList (hexDigits width number)

/-- Uppercase digits, at least `width` of them. -/
def upperHex (width number : Nat) : String :=
  String.ofList ((hexDigits width number).map Char.toUpper)

/-- Two lowercase digits a byte. -/
def hexOfBytes (bytes : List UInt8) : String :=
  String.ofList (bytes.flatMap fun byte => hexDigits 2 byte.toNat)

/-- The value of a hexadecimal digit of either case. -/
def hexDigitValue? (c : Char) : Option Nat :=
  if '0' ≤ c ∧ c ≤ '9' then some (c.toNat - '0'.toNat)
  else if 'a' ≤ c ∧ c ≤ 'f' then some (c.toNat - 'a'.toNat + 10)
  else if 'A' ≤ c ∧ c ≤ 'F' then some (c.toNat - 'A'.toNat + 10)
  else none

/-- The bytes that pairs of digits spell, or none if the digits do not pair up. -/
def bytesOfHex? : List Char → Option (List UInt8)
  | [] => some []
  | [_] => none
  | high :: low :: rest => do
    let h ← hexDigitValue? high
    let l ← hexDigitValue? low
    let bytes ← bytesOfHex? rest
    return UInt8.ofNat (16 * h + l) :: bytes

end Utf8Scan.Text
