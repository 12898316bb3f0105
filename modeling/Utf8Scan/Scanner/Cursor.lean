/-
Moving the cursor, and what happens to it when a move fails.

A program that works on a scanner either returns or raises an error, and in both
cases there is a scanner afterwards.  Most operations are a single `step`: they
compute a result and a new cursor from the scanner, and if that fails the cursor
stays.  Those made of several steps run under `backtrack`, which puts the cursor back
when the text was not as expected.
-/
import Utf8Scan.Scanner

namespace Utf8Scan

/-- A program that works on a scanner. -/
abbrev Scan := EStateM Error Scanner

namespace Scan

/-- Computes a result and a new cursor; an error leaves the cursor where it is. -/
def step {α : Type} (f : Scanner → Except Error (α × Nat)) : Scan α := fun s =>
  match f s with
  | .error e => .error e s
  | .ok (result, pos) => .ok result { s with pos := pos }

/-- Computes a result and leaves the cursor where it is. -/
def query {α : Type} (f : Scanner → Except Error α) : Scan α := fun s =>
  match f s with
  | .error e => .error e s
  | .ok result => .ok result s

/-- Puts the cursor back if a scanning error leaves the program, and lets the error pass. -/
def backtrack {α : Type} (program : Scan α) : Scan α := fun s =>
  match program s with
  | .error (.scan e) s' => .error (.scan e) { s' with pos := s.pos }
  | result => result

/-! ### Moving by characters -/

/-- The character at the cursor, which moves past it. -/
def character : Scan Char := step fun s =>
  (s.decodeAt s.pos).map fun (c, width) => (c, s.pos + width.bytes)

/-- A number of characters, which must not be negative. -/
def checkedCount (count : Int) : Except Error Nat :=
  if count < 0 then .error (.argument (.negativeCount count)) else .ok count.toNat

/-- Moves forward by characters, or not at all. -/
def advance (count : Int) : Scan Unit := step fun s => do
  let n ← checkedCount count
  let after ← s.skip n s.pos
  return ((), after)

/-- Moves back by characters, or not at all. -/
def retreat (count : Int) : Scan Unit := step fun s =>
  if count < 0 then .error (.argument (.negativeRetreat count))
  else (s.skipBack count.toNat s.pos).map fun before => ((), before)

/-- The next characters as a text, past which the cursor moves. -/
def readCount (count : Int) : Scan String := step fun s => do
  let n ← checkedCount count
  let after ← s.skip n s.pos
  let text ← s.textBetween s.pos after
  return (text, after)

/-! ### Moving by offsets -/

/-- Moves to the start of the window. -/
def reset : Scan Unit := step fun s => .ok ((), s.start)

/-- Moves to a mark, which must be a boundary inside the window. -/
def restore (mark : Int) : Scan Unit := step fun s =>
  if s.start ≤ mark ∧ mark ≤ s.stop ∧ s.buffer.isBoundary mark then .ok ((), mark.toNat)
  else .error (.argument (.unusableMark mark s.start s.stop))

end Scan

end Utf8Scan
