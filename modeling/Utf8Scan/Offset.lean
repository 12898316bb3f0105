/-
Single steps through a buffer, from any integer offset under any integer limit.

`decode` and `next` go forward from an offset, `next` without looking at the value;
`previous` goes back from one, not below a floor.  Nothing is assumed about the
numbers: an offset may lie outside the buffer, and so may a limit.  A step that
succeeds gives the width it covers, so a walk made of such steps always ends.
-/
import Utf8Scan.Buffer
import Utf8Scan.Error

namespace Utf8Scan.Buffer

/-- How many bytes may be read from `offset` on under `limit`. -/
def room (offset limit : Int) : Nat := (limit - offset).toNat

/-! ### Forward -/

/-- The character at `offset` and the width it takes. -/
def decode (b : Buffer) (offset limit : Int) : Except Error (Char × Width) :=
  let room := room offset limit
  (Sequence.decode (b.ahead offset (min 4 room)) room).mapError (·.errorAhead offset)

/-- The width of the sequence at `offset`, judged by its layout alone. -/
def measure (b : Buffer) (offset limit : Int) : Except Error Width :=
  let room := room offset limit
  (Sequence.measure (b.ahead offset (min 4 room)) room).mapError (·.errorAhead offset)

/-- The offset after the sequence at `offset`. -/
def next (b : Buffer) (offset limit : Int) : Except Error Int :=
  (b.measure offset limit).map fun width => offset + width.bytes

/-! ### Backward -/

/-- The width of the sequence that ends at `offset`. -/
def measureBack (b : Buffer) (offset floor : Int) : Except Error Width :=
  let room := room floor offset
  (Sequence.measureBack (b.behind offset (min 4 room)) room).mapError (·.errorBehind offset floor)

/-- The offset of the sequence that ends at `offset`. -/
def previous (b : Buffer) (offset floor : Int) : Except Error Int :=
  (b.measureBack offset floor).map fun width => offset - width.bytes

/-! ### Boundaries -/

/-- Whether an offset of the buffer, its end included, is not inside a sequence. -/
def isBoundary (b : Buffer) (offset : Int) : Bool :=
  0 ≤ offset && offset ≤ b.size && !(b.byte? offset.toNat).any isContinuation

/-! ### Walks -/

/-- What a walk came by, in order, and the error that ended it early. -/
structure Walk (α : Type) where
  visited : List α
  failure : Option Error

namespace Walk

def push {α : Type} (step : α) (w : Walk α) : Walk α := { w with visited := step :: w.visited }

end Walk

/-- Repeats a forward step from `offset` until `limit` is reached. -/
def walk {α : Type} (step : Int → Except Error (α × Width)) (offset limit : Int) : Walk (α × Int) :=
  if offset < limit then
    match step offset with
    | .error e => ⟨[], some e⟩
    | .ok (item, width) =>
      (walk step (offset + width.bytes) limit).push (item, offset + width.bytes)
  else ⟨[], none⟩
termination_by (limit - offset).toNat
decreasing_by have := width.bytes_pos; omega

/-- Repeats the backward step from `offset` until `floor` is reached. -/
def walkBack (b : Buffer) (offset floor : Int) : Walk Int :=
  if floor < offset then
    match b.measureBack offset floor with
    | .error e => ⟨[], some e⟩
    | .ok width => (b.walkBack (offset - width.bytes) floor).push (offset - width.bytes)
  else ⟨[], none⟩
termination_by (offset - floor).toNat
decreasing_by have := width.bytes_pos; omega

/-- The characters from `offset` on, each with the offset after it. -/
def walkDecode (b : Buffer) (offset limit : Int) : Walk (Char × Int) :=
  walk (fun o => b.decode o limit) offset limit

/-- The offsets that follow the sequences from `offset` on. -/
def walkNext (b : Buffer) (offset limit : Int) : Walk (Unit × Int) :=
  walk (fun o => (b.measure o limit).map fun width => ((), width)) offset limit

end Utf8Scan.Buffer
