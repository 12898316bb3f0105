/-
The boundaries of a text, as steps come to them.

Whether an offset is a boundary is decided by one byte.  A step forward reads a whole
sequence, and a step back looks for the byte that announces one.  On a text the three
agree: the boundaries are the offsets of the characters and of the end, and these are
what either step comes to, one after another.

A `Trail` is what a step visits if it is taken until it fails.  A step has one result,
so there is only one trail from an offset.  In a window on a text the trail forward
ends where the window does and the trail back where the window starts, and no step
before that fails.
-/
import Utf8Scan.Proofs.Preceding
import Utf8Scan.Proofs.TextReading

namespace Utf8Scan

/-! ### Trails -/

/-- The offsets that a step visits if it is taken again and again, the one it starts from included,
and the error with which it fails in the end. -/
inductive Trail (step : Int → Except Error Int) : Int → List Int → Error → Prop
  | last {o : Int} {e : Error} (h : step o = .error e) : Trail step o [o] e
  | cons {o after : Int} {visited : List Int} {e : Error} (h : step o = .ok after)
      (rest : Trail step after visited e) : Trail step o (o :: visited) e

section Trail

variable {step : Int → Except Error Int} {o : Int} {visited visited' : List Int} {e e' : Error}

/-- Each offset has at most one trail. -/
theorem Trail.unique (h : Trail step o visited e) (h' : Trail step o visited' e') :
    visited' = visited ∧ e' = e := by
  induction h generalizing visited' with
  | last hfails =>
      cases h' with
      | last hfails' => exact ⟨rfl, Except.error.inj (hfails'.symm.trans hfails)⟩
      | cons hleads _ => exact absurd (hleads.symm.trans hfails) nofun
  | cons hleads _ ih =>
      cases h' with
      | last hfails => exact absurd (hleads.symm.trans hfails) nofun
      | cons hleads' rest' =>
          obtain rfl := Except.ok.inj (hleads.symm.trans hleads')
          obtain ⟨rfl, rfl⟩ := ih rest'
          exact ⟨rfl, rfl⟩

theorem Trail.iff_eq (h : Trail step o visited e) :
    Trail step o visited' e' ↔ visited' = visited ∧ e' = e := by
  constructor
  · exact h.unique
  · rintro ⟨rfl, rfl⟩
    exact h

end Trail

/-! ### Offsets of characters in a row -/

/-- The offsets of the characters from one index up to another, both included. -/
def offsetsBetween (chars : List Char) (first last : Nat) : List Int :=
  (List.range' first (last + 1 - first)).map fun k => (offsetOf chars k : Int)

section Offsets

variable {chars : List Char} {first last : Nat}

theorem mem_offsetsBetween {o : Int} : o ∈ offsetsBetween chars first last ↔
    ∃ k, first ≤ k ∧ k ≤ last ∧ o = offsetOf chars k := by
  simp only [offsetsBetween, List.mem_map, List.mem_range'_1]
  constructor
  · rintro ⟨k, ⟨hfirst, hlast⟩, rfl⟩
    exact ⟨k, hfirst, by omega, rfl⟩
  · rintro ⟨k, hfirst, hlast, rfl⟩
    exact ⟨k, ⟨hfirst, by omega⟩, rfl⟩

/-- Each of them is there once, in ascending order. -/
theorem pairwise_offsetsBetween (hlast : last ≤ chars.length) :
    (offsetsBetween chars first last).Pairwise (· < ·) := by
  rw [offsetsBetween, List.pairwise_map]
  refine List.Pairwise.imp_of_mem ?_ List.pairwise_lt_range'
  intro k j _ hj hlt
  rw [List.mem_range'_1] at hj
  exact Int.ofNat_lt.mpr (offsetOf_lt hlt (by omega))

theorem offsetsBetween_self (chars : List Char) (k : Nat) :
    offsetsBetween chars k k = [(offsetOf chars k : Int)] := by
  simp [offsetsBetween]

theorem offsetsBetween_eq_cons (h : first < last) : offsetsBetween chars first last =
    (offsetOf chars first : Int) :: offsetsBetween chars (first + 1) last := by
  have hlength : last + 1 - first = last + 1 - (first + 1) + 1 := by omega
  rw [offsetsBetween, hlength, List.range'_succ, List.map_cons, offsetsBetween]

theorem offsetsBetween_eq_concat (h : first ≤ last) : offsetsBetween chars first (last + 1) =
    offsetsBetween chars first last ++ [(offsetOf chars (last + 1) : Int)] := by
  have hlength : last + 1 + 1 - first = last + 1 - first + 1 := by omega
  have hlast : first + (last + 1 - first) = last + 1 := by omega
  rw [offsetsBetween, hlength, List.range'_1_concat, List.map_append, hlast, offsetsBetween]
  rfl

end Offsets

/-! ### Windows on a text -/

/-- There is no way forward from the limit, nor from behind it. -/
theorem Buffer.next_of_le (b : Buffer) {offset limit : Int} (h : limit ≤ offset) :
    b.next offset limit = .error (.scan (.overflow offset)) := by
  have hroom : room offset limit = 0 := by
    unfold room
    omega
  rw [next_eq_error_iff, measure, hroom]
  rfl

namespace Scanner.Spans

variable {s : Scanner} {chars : List Char} {start stop k : Nat}

/-- A step forward goes from a character to the next. -/
theorem next (h : s.Spans chars start stop) (hk : k < stop) :
    s.buffer.next (offsetOf chars k) s.stop = .ok (offsetOf chars (k + 1)) := by
  obtain ⟨c, hget⟩ := h.getElem? hk
  have hsucc := offsetOf_succ hget
  refine Buffer.next_eq_ok_iff.mpr ⟨_, h.measureAt hk hget, ?_⟩
  rw [Width.bytes_ofChar]
  omega

theorem next_stop (h : s.Spans chars start stop) :
    s.buffer.next (offsetOf chars stop) s.stop = .error (.scan (.overflow s.stop)) := by
  rw [← h.stop_eq]
  exact s.buffer.next_of_le (Int.le_refl _)

/-- A step back goes from a character to the one before. -/
theorem previous (h : s.Spans chars start stop) (hstart : start ≤ k) (hk : k < stop) :
    s.buffer.previous (offsetOf chars (k + 1)) s.start = .ok (offsetOf chars k) := by
  obtain ⟨c, hget⟩ := h.getElem? hk
  have hsucc := offsetOf_succ hget
  refine Buffer.previous_eq_ok_iff.mpr ⟨_, h.measureBackAt hstart hget, ?_⟩
  rw [Width.bytes_ofChar]
  omega

theorem previous_start (h : s.Spans chars start stop) :
    s.buffer.previous (offsetOf chars start) s.start = .error (.scan (.underflow s.start)) := by
  rw [← h.start_eq]
  exact s.buffer.previous_of_le (Int.le_refl _)

/-- Going forward from a character visits it and those behind it, up to the end of the window. -/
theorem trail_next (h : s.Spans chars start stop) (hk : k ≤ stop) :
    Trail (s.buffer.next · s.stop) (offsetOf chars k) (offsetsBetween chars k stop)
      (.scan (.overflow s.stop)) := by
  refine h.backward (P := fun k => Trail (s.buffer.next · s.stop) (offsetOf chars k)
    (offsetsBetween chars k stop) (.scan (.overflow s.stop))) ?_ ?_ hk
  · rw [offsetsBetween_self]
    exact .last h.next_stop
  · intro k c hlt _ rest
    rw [offsetsBetween_eq_cons hlt]
    exact .cons (h.next hlt) rest

/-- Going back from a character visits it and those before it, down to the start of the window. -/
theorem trail_previous (h : s.Spans chars start stop) (hstart : start ≤ k) (hk : k ≤ stop) :
    Trail (s.buffer.previous · s.start) (offsetOf chars k) (offsetsBetween chars start k).reverse
      (.scan (.underflow s.start)) := by
  induction k, hstart using Nat.le_induction with
  | base =>
      rw [offsetsBetween_self]
      exact .last h.previous_start
  | succ k hstart ih =>
      rw [offsetsBetween_eq_concat hstart, List.reverse_append]
      exact .cons (h.previous hstart hk) (ih (Nat.le_of_succ_le hk))

end Scanner.Spans

/-! ### Whole texts -/

namespace Buffer

variable {b : Buffer} {chars : List Char}

/-- The window on all of a text goes from its first character to its end. -/
theorem Holds.spans (h : b.Holds chars) (k : Classifier) :
    (⟨b, 0, b.size, 0, k⟩ : Scanner).Spans chars 0 chars.length where
  holds := h
  start_eq := rfl
  stop_eq := h.size_eq
  start_le_stop := Nat.zero_le _
  stop_le_length := Nat.le_refl _

/-- Of all integers, the boundaries are the offsets of the characters and of the end. -/
theorem Holds.isBoundary_iff_mem (h : b.Holds chars) {o : Int} :
    b.isBoundary o = true ↔ o ∈ offsetsBetween chars 0 chars.length := by
  rw [mem_offsetsBetween]
  constructor
  · intro hboundary
    obtain ⟨n, rfl⟩ := exists_natCast_of_isBoundary hboundary
    obtain ⟨k, hk, rfl⟩ := h.isBoundary_iff.mp hboundary
    exact ⟨k, Nat.zero_le k, hk, rfl⟩
  · rintro ⟨k, _, hk, rfl⟩
    exact h.isBoundary_iff.mpr ⟨k, hk, rfl⟩

theorem Holds.trail_next (h : b.Holds chars) : Trail (b.next · b.size) 0
    (offsetsBetween chars 0 chars.length) (.scan (.overflow b.size)) :=
  (h.spans .unicode).trail_next (Nat.zero_le _)

theorem Holds.trail_previous (h : b.Holds chars) : Trail (b.previous · 0) b.size
    (offsetsBetween chars 0 chars.length).reverse (.scan (.underflow 0)) := by
  rw [h.size_eq]
  exact (h.spans .unicode).trail_previous (Nat.zero_le _) (Nat.le_refl _)

/-- The offset of a character is the size of what stands before it. -/
theorem size_ofString_take (chars : List Char) (k : Nat) :
    (ofString (String.ofList (chars.take k))).size = offsetOf chars k := by
  rw [(holds_ofString _).size_eq, offsetOf_length, String.toList_ofList, offsetOf]

/-- **The boundaries of a text are the sizes of its beginnings, and what steps in either direction
come to.**  Going forward from the start visits them in ascending order and fails at the end, where
there is nothing left to read; going back from the end visits them in descending order and fails at
the start. -/
theorem ofString_boundaries (text : String) :
    let b := ofString text
    let offsets := offsetsBetween text.toList 0 text.toList.length
    (∀ o : Int, b.isBoundary o = true ↔
      ∃ k ≤ text.toList.length, o = (ofString (String.ofList (text.toList.take k))).size) ∧
      (∀ o : Int, b.isBoundary o = true ↔ o ∈ offsets) ∧ offsets.Pairwise (· < ·) ∧
      (∀ visited e, Trail (b.next · b.size) 0 visited e ↔
        visited = offsets ∧ e = .scan (.overflow b.size)) ∧
      ∀ visited e, Trail (b.previous · 0) b.size visited e ↔
        visited = offsets.reverse ∧ e = .scan (.underflow 0) := by
  intro b offsets
  have hholds : b.Holds text.toList := holds_ofString text
  refine ⟨?_, fun o => hholds.isBoundary_iff_mem, pairwise_offsetsBetween (Nat.le_refl _),
    fun visited e => hholds.trail_next.iff_eq, fun visited e => hholds.trail_previous.iff_eq⟩
  intro o
  rw [hholds.isBoundary_iff_mem, mem_offsetsBetween]
  simp only [size_ofString_take, Nat.zero_le, true_and]

/-- Characters of all four widths. -/
example : offsetsBetween "aé€𝄞".toList 0 4 = [0, 1, 3, 6, 10] := by decide

end Buffer

end Utf8Scan
