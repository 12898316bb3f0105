/-
Looking a code point up in a table of ranges.

The binary search keeps one invariant: every range before the part that it still
searches starts at or below the code point, and every range behind that part starts
above it.  A table in ascending order has such a place to split at, so the search ends
there.  Of the ranges before it only the last can reach the code point, because all
others end before that one starts.

A table is in ascending order if each range is not empty and ends before the next one
starts: it is enough to compare neighbours.  The tables of the character database pass
this test, so what they are asked for is whether one of their ranges holds a code point.
-/
import Mathlib
import Utf8Scan.Unicode.Property

namespace Utf8Scan

namespace Unicode

namespace RangeTable

variable {t : RangeTable} {codePoint low high i j : Nat}

/-- The range at an index starts at or below the code point. -/
def StartsUpTo (t : RangeTable) (codePoint i : Nat) : Prop :=
  ∃ range, t.ranges[i]? = some range ∧ range.1 ≤ codePoint

theorem startsUpTo_iff_any : t.StartsUpTo codePoint i ↔
    (t.ranges[i]?).any (fun range => range.1 ≤ codePoint) = true := by
  simp [StartsUpTo, Option.any_eq_true]

theorem StartsUpTo.lt_size (h : t.StartsUpTo codePoint i) : i < t.ranges.size := by
  obtain ⟨range, hrange, _⟩ := h
  exact (Array.getElem?_eq_some_iff.mp hrange).1

/-! ### Ascending order -/

/-- Every range is non-empty and ends before the next in the table starts. -/
structure Consecutive (t : RangeTable) : Prop where
  lt_next : t.ranges.toList.IsChain fun r s => r.2 < s.1
  le : ∀ r ∈ t.ranges.toList, r.1 ≤ r.2

instance (t : RangeTable) : Decidable t.Consecutive :=
  decidable_of_iff (t.ranges.toList.IsChain (fun r s => r.2 < s.1) ∧
    ∀ r ∈ t.ranges.toList, r.1 ≤ r.2) ⟨fun h => ⟨h.1, h.2⟩, fun h => ⟨h.lt_next, h.le⟩⟩

/-- A range ends before another starts, which is not empty. -/
def Precedes (r s : Nat × Nat) : Prop := r.2 < s.1 ∧ s.1 ≤ s.2

instance : Trans Precedes Precedes Precedes where
  trans h h' := ⟨Nat.lt_of_lt_of_le h.1 (Nat.le_trans h.2 (Nat.le_of_lt h'.1)), h'.2⟩

/-- It is enough to compare every range with the next. -/
theorem Consecutive.ascending (ht : t.Consecutive) : t.Ascending := by
  have hchain : t.ranges.toList.IsChain Precedes :=
    ht.lt_next.imp_of_mem_imp fun r s _ hs hlt => ⟨hlt, ht.le s hs⟩
  exact ⟨(List.isChain_iff_pairwise.mp hchain).imp fun h => h.1, ht.le⟩

/-- A range before another ends before the other starts. -/
theorem Ascending.lt (ht : t.Ascending) {r s : Nat × Nat} (hr : t.ranges[i]? = some r)
    (hs : t.ranges[j]? = some s) (hij : i < j) : r.2 < s.1 := by
  rw [← Array.getElem?_toList] at hr hs
  obtain ⟨hi, rfl⟩ := List.getElem?_eq_some_iff.mp hr
  obtain ⟨hj, rfl⟩ := List.getElem?_eq_some_iff.mp hs
  exact List.pairwise_iff_getElem.mp ht.1 i j hi hj hij

theorem Ascending.le (ht : t.Ascending) {r : Nat × Nat} (hr : t.ranges[i]? = some r) :
    r.1 ≤ r.2 := by
  rw [← Array.getElem?_toList] at hr
  exact ht.2 r (List.mem_of_getElem? hr)

/-- The ranges that start at or below a code point come first. -/
theorem Ascending.startsUpTo (ht : t.Ascending) (hij : i ≤ j) (h : t.StartsUpTo codePoint j) :
    t.StartsUpTo codePoint i := by
  obtain ⟨s, hs, hle⟩ := h
  rcases Nat.eq_or_lt_of_le hij with rfl | hlt
  · exact ⟨s, hs, hle⟩
  have hj := (Array.getElem?_eq_some_iff.mp hs).1
  have hr : t.ranges[i]? = some t.ranges[i] := Array.getElem?_eq_getElem (by omega)
  have hstart := ht.lt hr hs hlt
  have hself := ht.le hr
  exact ⟨_, hr, by omega⟩

/-! ### The search -/

/-- The search ends where the ranges begin to start above the code point. -/
theorem Ascending.firstAbove_spec (ht : t.Ascending) (hle : low ≤ high)
    (hlow : ∀ i < low, t.StartsUpTo codePoint i)
    (hhigh : ∀ i, high ≤ i → ¬ t.StartsUpTo codePoint i) :
    t.StartsUpTo codePoint i ↔ i < t.firstAbove codePoint low high := by
  fun_induction firstAbove t codePoint low high with
  | case1 low high hlt middle hstarts ih =>
      rw [← startsUpTo_iff_any] at hstarts
      refine ih (by omega) ?_ hhigh
      intro i hi
      exact ht.startsUpTo (Nat.le_of_lt_succ hi) hstarts
  | case2 low high hlt middle hstarts ih =>
      rw [← startsUpTo_iff_any] at hstarts
      refine ih (by omega) hlow ?_
      intro i hi h
      exact hstarts (ht.startsUpTo hi h)
  | case3 low high hge =>
      constructor
      · intro h
        by_contra hi
        exact hhigh i (by omega) h
      · exact hlow i

/-- The search tells the ranges that start at or below the code point from the others. -/
theorem Ascending.startsUpTo_iff_lt (ht : t.Ascending) :
    t.StartsUpTo codePoint i ↔ i < t.startsUpTo codePoint := by
  refine ht.firstAbove_spec (Nat.zero_le _) nofun ?_
  intro i hi h
  exact absurd h.lt_size (Nat.not_lt.mpr hi)

theorem Ascending.startsUpTo_le_size (ht : t.Ascending) :
    t.startsUpTo codePoint ≤ t.ranges.size := by
  by_contra hlt
  exact absurd (ht.startsUpTo_iff_lt.mpr (Nat.not_le.mp hlt)).lt_size (Nat.lt_irrefl _)

/-- The search counts the ranges that start at or below the code point. -/
theorem Ascending.startsUpTo_eq_countP (ht : t.Ascending) :
    t.startsUpTo codePoint = t.ranges.toList.countP (fun r => r.1 ≤ codePoint) := by
  have hsize : t.startsUpTo codePoint ≤ t.ranges.toList.length := ht.startsUpTo_le_size
  have hstarts (i : Nat) (hi : i < t.ranges.toList.length) :
      t.ranges.toList[i].1 ≤ codePoint ↔ i < t.startsUpTo codePoint := by
    rw [← ht.startsUpTo_iff_lt, StartsUpTo, ← Array.getElem?_toList, List.getElem?_eq_getElem hi]
    simp
  -- The counted ranges are those before the place where the search ends.
  have hbefore : ∀ r ∈ t.ranges.toList.take (t.startsUpTo codePoint),
      decide (r.1 ≤ codePoint) = true := by
    intro r hr
    obtain ⟨i, hi, rfl⟩ := List.mem_iff_getElem.mp hr
    rw [List.length_take] at hi
    simp only [List.getElem_take, decide_eq_true_eq]
    exact (hstarts i (by omega)).mpr (by omega)
  have hbehind : ∀ r ∈ t.ranges.toList.drop (t.startsUpTo codePoint),
      ¬ decide (r.1 ≤ codePoint) = true := by
    intro r hr
    obtain ⟨i, hi, rfl⟩ := List.mem_iff_getElem.mp hr
    rw [List.length_drop] at hi
    simp only [List.getElem_drop, decide_eq_true_eq]
    rw [hstarts _ (by omega)]
    omega
  rw [← List.take_append_drop (t.startsUpTo codePoint) t.ranges.toList, List.countP_append,
    List.countP_eq_length.mpr hbefore, List.countP_eq_zero.mpr hbehind, Nat.add_zero,
    List.length_take, Nat.min_eq_left hsize]

theorem holds_iff_getElem? : t.Holds codePoint ↔ ∃ (i : Nat) (range : Nat × Nat),
    t.ranges[i]? = some range ∧ range.1 ≤ codePoint ∧ codePoint ≤ range.2 := by
  simp only [Holds, List.mem_iff_getElem?, Array.getElem?_toList]
  constructor
  · rintro ⟨range, ⟨i, hi⟩, h⟩
    exact ⟨i, range, hi, h⟩
  · rintro ⟨i, range, hi, h⟩
    exact ⟨range, ⟨i, hi⟩, h⟩

/-- The search in a table finds exactly the code points that its ranges hold. -/
theorem Ascending.contains_iff_holds (ht : t.Ascending) :
    t.contains codePoint = true ↔ t.Holds codePoint := by
  rw [holds_iff_getElem?]
  unfold contains
  cases hcount : t.startsUpTo codePoint with
  | zero =>
      refine iff_of_false nofun ?_
      rintro ⟨i, range, hi, hstart, _⟩
      have hlt := ht.startsUpTo_iff_lt.mp ⟨range, hi, hstart⟩
      omega
  | succ n =>
      have hcounted : t.StartsUpTo codePoint n := ht.startsUpTo_iff_lt.mpr (by omega)
      obtain ⟨last, hlast, hstart⟩ := hcounted
      simp only [hlast, Option.any_some, decide_eq_true_eq]
      constructor
      · intro hstop
        exact ⟨n, last, hlast, hstart, hstop⟩
      · rintro ⟨i, range, hi, hstart', hstop⟩
        have hlt := ht.startsUpTo_iff_lt.mp ⟨range, hi, hstart'⟩
        -- A range before the last ends before that starts, and so before the code point.
        rcases Nat.eq_or_lt_of_le (Nat.le_of_lt_succ (hcount ▸ hlt)) with rfl | hbefore
        · obtain rfl : last = range := Option.some.inj (hlast.symm.trans hi)
          exact hstop
        · have hgap := ht.lt hi hlast hbefore
          omega

end RangeTable

end Unicode

/-! ### The tables of the character database -/

namespace Property

open Unicode

/-- The tables that a property is looked up in. -/
def tables : Property → List RangeTable
  | whitespace => [whiteSpace]
  | newline => [lineEnd]
  | number => [numeric]
  | letter => [Unicode.letter, letterNumber, otherAlphabetic]

theorem tables_consecutive (property : Property) : ∀ t ∈ property.tables, t.Consecutive := by
  cases property <;> decide +kernel

theorem holds_eq_any (property : Property) (codePoint : Nat) :
    property.holds codePoint = property.tables.any (·.contains codePoint) := by
  cases property <;> simp [holds, tables, Bool.or_assoc]

/-- A property belongs to the code points that the ranges of its tables hold. -/
theorem holds_iff (property : Property) (codePoint : Nat) :
    property.holds codePoint = true ↔ ∃ t ∈ property.tables, t.Holds codePoint := by
  rw [holds_eq_any, List.any_eq_true]
  refine exists_congr fun t => and_congr_right fun ht => ?_
  exact (property.tables_consecutive t ht).ascending.contains_iff_holds

end Property

namespace Unicode.RangeTable

/-- **Binary search in a table is membership.**  In every table whose ranges come one after another,
the search counts the ranges that start at or below the code point, and the one range that it then
looks at reaches the code point exactly if some range of the table holds it.  The table of the
property Other_Alphabetic is such a table. -/
theorem lookup_iff_holds :
    (∀ t : RangeTable, t.Consecutive → ∀ codePoint : Nat,
      t.startsUpTo codePoint = t.ranges.toList.countP (fun r => r.1 ≤ codePoint) ∧
        (t.contains codePoint = true ↔ t.Holds codePoint)) ∧
      otherAlphabetic.Consecutive ∧
      ∀ codePoint : Nat, otherAlphabetic.contains codePoint = true ↔
        ∃ r ∈ otherAlphabetic.ranges.toList, r.1 ≤ codePoint ∧ codePoint ≤ r.2 := by
  have hlookup (t : RangeTable) (ht : t.Consecutive) (codePoint : Nat) :
      t.startsUpTo codePoint = t.ranges.toList.countP (fun r => r.1 ≤ codePoint) ∧
        (t.contains codePoint = true ↔ t.Holds codePoint) :=
    ⟨ht.ascending.startsUpTo_eq_countP, ht.ascending.contains_iff_holds⟩
  have hshipped : otherAlphabetic.Consecutive :=
    Property.letter.tables_consecutive otherAlphabetic (by simp [Property.tables])
  exact ⟨hlookup, hshipped, fun codePoint => (hlookup _ hshipped codePoint).2⟩

/-- Two ranges with a gap of one code point between them: the search looks at the first of them,
which does not reach the gap. -/
theorem lookup_iff_holds_gap :
    let t : RangeTable := ⟨#[(3, 5), (7, 7), (9, 12)]⟩
    t.Consecutive ∧ t.startsUpTo 6 = 1 ∧ t.contains 6 = false ∧ t.contains 7 = true := by
  intro t
  have ht : t.Consecutive := by decide
  obtain ⟨hcount, hgap⟩ := lookup_iff_holds.1 t ht 6
  obtain ⟨_, hmember⟩ := lookup_iff_holds.1 t ht 7
  have hmiss : ¬ t.Holds 6 := by
    rintro ⟨r, hr, hstart, hstop⟩
    have hoff : ∀ r ∈ t.ranges.toList, 6 < r.1 ∨ r.2 < 6 := by decide
    have houtside := hoff r hr
    omega
  refine ⟨ht, hcount, ?_, hmember.mpr ⟨(7, 7), by decide, by decide, by decide⟩⟩
  rw [← Bool.not_eq_true, hgap]
  exact hmiss

end Unicode.RangeTable

end Utf8Scan
