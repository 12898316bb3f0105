/-
Tables of code point ranges, and the search that looks a code point up in one.

A table lists inclusive ranges in ascending order, none touching the next.  Binary
search counts the ranges that start at or below a code point; since the ranges do
not overlap, only the last of those can hold it.
-/

namespace Utf8Scan.Unicode

/-- A set of code points as inclusive ranges `(first, last)`. -/
structure RangeTable where
  ranges : Array (Nat × Nat)
  deriving DecidableEq, Repr

namespace RangeTable

/-- What a table means: some range holds the code point. -/
def Holds (t : RangeTable) (codePoint : Nat) : Prop :=
  ∃ range ∈ t.ranges.toList, range.1 ≤ codePoint ∧ codePoint ≤ range.2

/-- Every range is non-empty and ends before the next one starts. -/
def Ascending (t : RangeTable) : Prop :=
  t.ranges.toList.Pairwise (fun r s => r.2 < s.1) ∧ ∀ r ∈ t.ranges.toList, r.1 ≤ r.2

instance (t : RangeTable) : Decidable t.Ascending :=
  inferInstanceAs (Decidable (_ ∧ _))

/-- Searches `[low, high)` for the first range that starts above the code point. -/
def firstAbove (t : RangeTable) (codePoint low high : Nat) : Nat :=
  if low < high then
    let middle := (low + high) / 2
    if (t.ranges[middle]?).any (fun range => range.1 ≤ codePoint) then
      t.firstAbove codePoint (middle + 1) high
    else t.firstAbove codePoint low middle
  else low
termination_by high - low

/-- How many ranges start at or below the code point. -/
def startsUpTo (t : RangeTable) (codePoint : Nat) : Nat :=
  t.firstAbove codePoint 0 t.ranges.size

/-- Whether the last range that starts at or below the code point reaches it. -/
def contains (t : RangeTable) (codePoint : Nat) : Bool :=
  match t.startsUpTo codePoint with
  | 0 => false
  | i + 1 => (t.ranges[i]?).any fun range => codePoint ≤ range.2

/-- The maximal ranges within `[start, start + length)` on which a test is true, in order. -/
def ofTest (test : Nat → Bool) (start length : Nat) : RangeTable :=
  go start length none #[]
where
  go (codePoint : Nat) : Nat → Option Nat → Array (Nat × Nat) → RangeTable
    | 0, none, acc => ⟨acc⟩
    | 0, some first, acc => ⟨acc.push (first, codePoint - 1)⟩
    | n + 1, first?, acc =>
      match first?, test codePoint with
      | none, true => go (codePoint + 1) n (some codePoint) acc
      | some first, false => go (codePoint + 1) n none (acc.push (first, codePoint - 1))
      | first?, _ => go (codePoint + 1) n first? acc

end RangeTable

end Utf8Scan.Unicode
