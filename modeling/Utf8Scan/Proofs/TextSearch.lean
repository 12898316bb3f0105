/-
Searching for a text by its bytes.

The search compares bytes and never decodes, so it could in principle stop inside a
character, or at a needle that only seems to lie in the window.  It does neither: where
an encoding lies there is a boundary, the boundaries of a text are the offsets of its
characters, and an encoding starts with another exactly if the text starts with the
other.  So the offsets that the search would stop at are those of the indices at which
the needle occurs among the characters, in the same order.

A search for a single character is therefore the search by test for it.
-/
import Utf8Scan.Proofs.TextRefinement

namespace Utf8Scan

variable {needle : String} {m o : Nat} {c : Char}

/-! ### The needle among the bytes -/

namespace Scanner

variable {s : Scanner} {required : Bool}

/-- Where the search for a needle stops, if anywhere. -/
def find? (s : Scanner) (needle : String) : Option Nat :=
  s.buffer.find? (Scan.encoded needle) s.pos s.stop

/-- The bytes of the needle lie in what is left of the window. -/
structure Lies (s : Scanner) (needle : String) (o : Nat) : Prop where
  pos_le : s.pos ≤ o
  le_stop : o + (Scan.encoded needle).length ≤ s.stop
  holdsAt : s.buffer.holdsAt o (Scan.encoded needle) = true

theorem find?_eq_some_iff :
    s.find? needle = some o ↔ s.Lies needle o ∧ ∀ o', s.Lies needle o' → o ≤ o' := by
  rw [find?, Buffer.find?, Buffer.findAmong_eq_some_iff]
  constructor
  · rintro ⟨⟨hpos, hstop, hholds⟩, hleast⟩
    refine ⟨⟨hpos, by omega, hholds⟩, ?_⟩
    intro o' h
    by_contra hlt
    have hnone := hleast o' h.pos_le (Nat.not_le.mp hlt)
    rw [h.holdsAt] at hnone
    cases hnone
  · rintro ⟨h, hleast⟩
    have hpos := h.pos_le
    have hstop := h.le_stop
    refine ⟨⟨hpos, by omega, h.holdsAt⟩, ?_⟩
    intro o' hpos' hlt
    by_contra hholds
    have hle := hleast o' ⟨hpos', by omega, by simpa using hholds⟩
    omega

theorem find?_eq_none_iff : s.find? needle = none ↔ ∀ o, ¬ s.Lies needle o := by
  constructor
  · intro h o hlies
    -- Among the places where the bytes lie there is a least, which would have been found.
    have hex : ∃ o, s.Lies needle o := ⟨o, hlies⟩
    classical
    have hfound := find?_eq_some_iff.mpr
      ⟨Nat.find_spec hex, fun o' h' => Nat.find_min' hex h'⟩
    rw [h] at hfound
    cases hfound
  · intro h
    cases hfind : s.find? needle with
    | none => rfl
    | some o => exact absurd (find?_eq_some_iff.mp hfind).1 (h o)

/-- The search ends at the find, or at the end of the window where one is not required. -/
theorem readUntilString_run (hneedle : needle ≠ "") (required : Bool) :
    (Command.readUntilString needle required).run s =
      match s.find? needle with
      | some o => .ok (.scanner (s.view s.pos o)) { s with pos := o }
      | none =>
        if required then .error (.scan (.notFound (.text needle) s.pos)) s
        else .ok (.scanner (s.view s.pos s.stop)) { s with pos := s.stop } := by
  have hsearch : Scan.readUntilString needle required s
      = Scan.step (fun s => s.finish (.text needle) required (s.find? needle)) s := by
    simp only [Scan.readUntilString, Scan.step, if_neg hneedle, find?]
  refine (Scan.bind_congr hsearch).trans ?_
  cases hfind : s.find? needle with
  | some o =>
      have hstep : Scan.step (fun s => s.finish (.text needle) required (s.find? needle)) s
          = .ok (s.view s.pos o) { s with pos := o } := by
        simp only [Scan.step, hfind, finish]
      exact Scan.bind_of_ok hstep
  | none =>
      cases required with
      | true =>
          have hstep : Scan.step (fun s => s.finish (.text needle) true (s.find? needle)) s
              = .error (.scan (.notFound (.text needle) s.pos)) s := by
            simp only [Scan.step, hfind, finish, if_true]
          exact Scan.bind_of_error hstep
      | false =>
          have hstep : Scan.step (fun s => s.finish (.text needle) false (s.find? needle)) s
              = .ok (s.view s.pos s.stop) { s with pos := s.stop } := by
            simp only [Scan.step, hfind, finish, Bool.false_eq_true, if_false]
          exact Scan.bind_of_ok hstep

end Scanner

/-! ### The needle among the characters -/

namespace TextScanner

variable {r : TextScanner} {required : Bool}

/-- The needle lies in the window at an index, not before the cursor. -/
structure Occurs (r : TextScanner) (needle : String) (m : Nat) : Prop where
  pos_le : r.pos ≤ m
  le_stop : m + needle.length ≤ r.stop
  take_eq : (r.chars.drop m).take needle.length = needle.toList

/-- The needle lies at an index and at none before. -/
structure FirstOccurs (r : TextScanner) (needle : String) (m : Nat) : Prop where
  occurs : r.Occurs needle m
  least : ∀ k, r.Occurs needle k → m ≤ k

/-- The bytes of the needle lie exactly at the offsets of the indices at which it occurs. -/
theorem Valid.lies_iff (hr : r.Valid) (hneedle : needle ≠ "") :
    r.encode.Lies needle o ↔ ∃ m, o = offsetOf r.chars m ∧ r.Occurs needle m := by
  have hholds : r.encode.buffer.Holds r.chars := hr.spans.holds
  have hpos := Nat.le_trans hr.pos_le_stop hr.stop_le_length
  have hbytes (m : Nat) :
      r.encode.buffer.holdsAt (offsetOf r.chars m) (Scan.encoded needle) = true ↔
        needle.toList <+: r.chars.drop m := by
    rw [Buffer.holdsAt_iff, Scan.encoded_eq, hholds.toList_eq, drop_offsetOf]
    exact spell_prefix_iff
  have hend {m : Nat} (h : (r.chars.drop m).take needle.length = needle.toList) :
      offsetOf r.chars m + (Scan.encoded needle).length = offsetOf r.chars (m + needle.length) := by
    rw [offsetOf_add, h, Scan.encoded_eq]
    rfl
  constructor
  · intro h
    have hboundary := Buffer.isBoundary_of_holdsAt hneedle h.holdsAt
    obtain ⟨m, hm, rfl⟩ := hholds.isBoundary_iff.mp hboundary
    have htake := List.prefix_iff_eq_take.mp ((hbytes m).mp h.holdsAt)
    have hlength := ((hbytes m).mp h.holdsAt).length_le
    rw [String.length_toList] at htake hlength
    rw [List.length_drop] at hlength
    have hstop := h.le_stop
    rw [hend htake.symm] at hstop
    exact ⟨m, rfl, (offsetOf_le_iff hpos).mp h.pos_le,
      (offsetOf_le_iff (by omega)).mp hstop, htake.symm⟩
  · rintro ⟨m, rfl, h⟩
    refine ⟨offsetOf_mono _ h.pos_le, ?_, (hbytes m).mpr ?_⟩
    · rw [hend h.take_eq]
      exact offsetOf_mono _ h.le_stop
    · rw [List.prefix_iff_eq_take, String.length_toList]
      exact h.take_eq.symm

theorem Valid.find?_of_first (hr : r.Valid) (hneedle : needle ≠ "") (h : r.FirstOccurs needle m) :
    r.encode.find? needle = some (offsetOf r.chars m) := by
  rw [Scanner.find?_eq_some_iff, hr.lies_iff hneedle]
  refine ⟨⟨m, rfl, h.occurs⟩, ?_⟩
  intro o ho
  obtain ⟨k, rfl, hk⟩ := (hr.lies_iff hneedle).mp ho
  exact offsetOf_mono _ (h.least k hk)

theorem Valid.find?_of_none (hr : r.Valid) (hneedle : needle ≠ "")
    (h : ∀ m, ¬ r.Occurs needle m) : r.encode.find? needle = none := by
  rw [Scanner.find?_eq_none_iff]
  intro o ho
  obtain ⟨m, _, hm⟩ := (hr.lies_iff hneedle).mp ho
  exact h m hm

/-! ### A needle of one character -/

theorem getElem?_rest (r : TextScanner) (i : Nat) :
    r.rest[i]? = if r.pos + i < r.stop then r.chars[r.pos + i]? else none := by
  rw [rest, segment, List.getElem?_drop, List.getElem?_take]

theorem occurs_singleton_iff :
    r.Occurs (String.singleton c) m ↔ ∃ i, m = r.pos + i ∧ r.rest[i]? = some c := by
  have htake (m : Nat) : (r.chars.drop m).take (String.singleton c).length
      = (String.singleton c).toList ↔ r.chars[m]? = some c := by
    rw [String.length_singleton, String.toList_singleton, List.take_one, List.head?_drop,
      Option.toList_eq_singleton_iff]
  constructor
  · rintro ⟨hpos, hstop, hget⟩
    obtain ⟨i, rfl⟩ := Nat.exists_eq_add_of_le hpos
    rw [String.length_singleton] at hstop
    refine ⟨i, rfl, ?_⟩
    rw [getElem?_rest, if_pos (by omega)]
    exact (htake _).mp hget
  · rintro ⟨i, rfl, hget⟩
    rw [getElem?_rest] at hget
    split_ifs at hget with hstop
    refine ⟨Nat.le_add_right _ _, ?_, (htake _).mpr hget⟩
    rw [String.length_singleton]
    omega

/-- The search by test for a character stops where the search for its bytes does. -/
theorem Valid.seek_singleton (hr : r.Valid) (c : Char) :
    r.encode.seek (.equals (String.singleton c)) r.encode.pos
      = .ok (r.encode.find? (String.singleton c)) := by
  have hneedle : String.singleton c ≠ "" := String.singleton_ne_empty
  have htest (d : Char) : (CharTest.equals (String.singleton c)).holds d = decide (c = d) := by
    rw [equals_holds]
    simp only [String.singleton_inj]
  refine (hr.spans.seek (CharTest.equals_total _) hr.pos_le_stop).trans ?_
  show Except.ok ((r.rest.findIdx? _).map _) = _
  cases hfind : r.rest.findIdx? (CharTest.equals (String.singleton c)).holds with
  | none =>
      rw [List.findIdx?_eq_none_iff] at hfind
      rw [hr.find?_of_none hneedle]
      · rfl
      · intro m hm
        obtain ⟨i, _, hget⟩ := occurs_singleton_iff.mp hm
        have hfalse := hfind c (List.mem_of_getElem? hget)
        rw [htest, decide_eq_false_iff_not] at hfalse
        exact hfalse rfl
  | some i =>
      obtain ⟨hi, hpass, hleast⟩ := List.findIdx?_eq_some_iff_getElem.mp hfind
      rw [htest, decide_eq_true_eq] at hpass
      have hoccurs : r.Occurs (String.singleton c) (r.pos + i) :=
        occurs_singleton_iff.mpr ⟨i, rfl, by rw [List.getElem?_eq_getElem hi, ← hpass]⟩
      rw [hr.find?_of_first hneedle ⟨hoccurs, ?_⟩]
      · rfl
      · intro k hk
        obtain ⟨j, rfl, hget⟩ := occurs_singleton_iff.mp hk
        by_contra hlt
        obtain ⟨_, hj⟩ := List.getElem?_eq_some_iff.mp hget
        have hfail := hleast j (by omega)
        rw [htest, decide_eq_true_eq, hj] at hfail
        exact hfail rfl

/-! ### The search -/

/-- **On every text, the search for a needle stops at the least index at which it occurs among the
characters.**  If there is none, it fails and moves nothing, or reads to the end of the window.  For
a needle of one character it does what the search for that character does. -/
theorem readUntilString_first (hr : r.Valid) (hneedle : needle ≠ "") (required : Bool) :
    (∀ m, r.FirstOccurs needle m →
      (Command.readUntilString needle required).run r.encode =
        .ok (.scanner (r.encode.view (offsetOf r.chars r.pos) (offsetOf r.chars m)))
          { r.encode with pos := offsetOf r.chars m }) ∧
      ((∀ m, ¬ r.Occurs needle m) →
        (Command.readUntilString needle required).run r.encode =
          if required then
            .error (.scan (.notFound (.text needle) (offsetOf r.chars r.pos))) r.encode
          else
            .ok (.scanner (r.encode.view (offsetOf r.chars r.pos) (offsetOf r.chars r.stop)))
              { r.encode with pos := offsetOf r.chars r.stop }) ∧
      ∀ c, needle = String.singleton c →
        (Command.readUntilString needle required).run r.encode =
          (Command.readUntilChar needle required).run r.encode := by
  refine ⟨?_, ?_, ?_⟩
  · intro m hm
    rw [Scanner.readUntilString_run hneedle, hr.find?_of_first hneedle hm]
    rfl
  · intro hnone
    rw [Scanner.readUntilString_run hneedle, hr.find?_of_none hneedle hnone]
    rfl
  · rintro c rfl
    refine Scan.bind_congr ?_
    simp only [Scan.readUntilString, Scan.readUntilChar, Scan.readUntil, Scan.step, if_neg hneedle,
      hr.seek_singleton c]
    rfl

/-- The needle starts over inside a candidate, and its next occurrence ends behind the window. -/
theorem readUntilString_first_overlap :
    let r : TextScanner := ⟨"éaaé€aé".toList, 1, 6, 1, .unicode⟩
    let r' : TextScanner := { r with pos := 3 }
    (r.Valid ∧ r'.Valid ∧ "aé" ≠ "" ∧ r.FirstOccurs "aé" 2 ∧ ∀ m, ¬ r'.Occurs "aé" m) ∧
      (Command.readUntilString "aé" true).run r.encode
        = .ok (.scanner (r.encode.view 2 3)) { r.encode with pos := 3 } ∧
      (Command.readUntilString "aé" true).run r'.encode
        = .error (.scan (.notFound (.text "aé") 4)) r'.encode := by
  intro r r'
  have hr : r.Valid := ⟨by decide, by decide, by decide⟩
  have hr' : r'.Valid := ⟨by decide, by decide, by decide⟩
  have hneedle : "aé" ≠ "" := by decide
  have hlength : "aé".length = 2 := by decide
  have hfirst : r.FirstOccurs "aé" 2 := by
    refine ⟨⟨by decide, by decide, by decide⟩, ?_⟩
    rintro k ⟨hpos, _, htake⟩
    have hpos : 1 ≤ k := hpos
    by_contra hlt
    obtain rfl : k = 1 := by omega
    exact absurd htake (by decide)
  have hnone : ∀ m, ¬ r'.Occurs "aé" m := by
    rintro m ⟨hpos, hstop, htake⟩
    have hpos : 3 ≤ m := hpos
    have hstop : m + 2 ≤ 6 := hlength ▸ hstop
    obtain rfl | rfl : m = 3 ∨ m = 4 := by omega
    · exact absurd htake (by decide)
    · exact absurd htake (by decide)
  refine ⟨⟨hr, hr', hneedle, hfirst, hnone⟩, ?_, ?_⟩
  · exact (readUntilString_first hr hneedle true).1 2 hfirst
  · exact (readUntilString_first hr' hneedle true).2.1 hnone

end TextScanner

end Utf8Scan
