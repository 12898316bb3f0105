/-
Lines and columns of byte offsets.

Lines end with LF, so a text with CR LF endings has the same line numbers.  A column
counts characters from the start of its line: the bytes that are not continuation
bytes.  Offsets past the end mean the end, and negative ones are refused.
-/
import Utf8Scan.Buffer
import Utf8Scan.Diagnostic
import Utf8Scan.Sequence

namespace Utf8Scan.Buffer

def lineFeed : UInt8 := 0x0A

/-- How many lines end before `offset`. -/
def line (b : Buffer) (offset : Nat) : Nat := b.count (· == lineFeed) 0 (min offset b.size)

/-- Where the line that `offset` lies on starts. -/
def lineStart (b : Buffer) : (offset : Nat) → Nat
  | 0 => 0
  | n + 1 => if b.byte? n = some lineFeed then n + 1 else b.lineStart n

/-- How many characters of its line start before `offset`. -/
def column (b : Buffer) (offset : Nat) : Nat :=
  let stop := min offset b.size
  let start := b.lineStart stop
  b.count (fun byte => !isContinuation byte) start (stop - start)

/-- The line and the column as an editor shows them, both counted from one. -/
def lineColumn (b : Buffer) (offset : Nat) : Nat × Nat := (b.line offset + 1, b.column offset + 1)

/-- The span from `start` to `stop`, which is moved into `[start, size]`. -/
def span (b : Buffer) (start : Nat) (stop : Int) : Span :=
  let first := min start b.size
  let place := b.lineColumn first
  { start := first
    stop := max first (min stop b.size).toNat
    line := place.1
    column := place.2
    start_le_stop := Nat.le_max_left _ _
    line_pos := Nat.succ_pos _
    column_pos := Nat.succ_pos _ }

/-! ### Offsets from outside

The functions below take any integer and refuse the negative ones.
-/

def natOffset (offset : Int) : Except ArgumentError Nat :=
  if offset < 0 then .error (.negativePosition offset) else .ok offset.toNat

def lineOf (b : Buffer) (offset : Int) : Except ArgumentError Nat := (natOffset offset).map b.line

def columnOf (b : Buffer) (offset : Int) : Except ArgumentError Nat :=
  (natOffset offset).map b.column

def lineColumnOf (b : Buffer) (offset : Int) : Except ArgumentError (Nat × Nat) :=
  (natOffset offset).map b.lineColumn

/-- Line and column with a colon between them, counted from zero or from one. -/
def formatPosition (b : Buffer) (offset : Int) (zeroBased : Bool) : Except ArgumentError String :=
  (natOffset offset).map fun n =>
    let first := if zeroBased then 0 else 1
    s!"{b.line n + first}:{b.column n + first}"

/-- The span from `start` to `stop`, or at `start` alone. -/
def spanOf (b : Buffer) (start : Int) (stop? : Option Int) : Except ArgumentError Span :=
  (natOffset start).map fun n => b.span n (stop?.getD 0)

end Utf8Scan.Buffer
