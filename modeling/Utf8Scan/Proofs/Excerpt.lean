/-
A part of a buffer, read in place and read by itself.

A scanner for a window reads the whole buffer and has to keep to its window by itself.
`Excerpt` is the part that it should read, as a buffer of its own, and `embed` puts a
scanner for that buffer in its place in the whole one.  What is read through the one
scanner is then what is read through the other, with all offsets moved by where the part
starts.

Two readings look at a byte that is not theirs.  Whether an offset is a boundary depends
on the byte behind it, so an excerpt ends at a boundary of the whole buffer.  And a text
is compared with the buffer without regard to the window, which is harmless only where
the text has been found to fit.
-/
import Utf8Scan.Proofs.Decoding
import Utf8Scan.Proofs.Operation

namespace Utf8Scan

/-- The bytes of `[first, last)` as a buffer of their own. -/
def Buffer.slice (b : Buffer) (first last : Nat) : Buffer := .ofList (b.between first last)

/-- A part of a buffer that ends where no character is cut. -/
structure Excerpt where
  whole : Buffer
  base : Nat
  length : Nat
  fits : base + length ≤ whole.size
  boundary : whole.isBoundary (base + length : Nat) = true

namespace Excerpt

variable {x : Excerpt} {o n stop : Nat} {bytes : List UInt8}

/-- The part by itself. -/
def part (x : Excerpt) : Buffer := x.whole.slice x.base (x.base + x.length)

theorem toList_part (x : Excerpt) :
    x.part.toList = (x.whole.toList.drop x.base).take x.length := by
  rw [part, Buffer.slice, Buffer.toList_ofList, Buffer.between_eq, Nat.add_sub_cancel_left]

theorem size_part (x : Excerpt) : x.part.size = x.length := by
  have hfits := x.fits
  rw [← Buffer.length_toList, toList_part, List.length_take, List.length_drop,
    Buffer.length_toList]
  omega

/-! ### Bytes -/

theorem getElem?_part (h : o < x.length) : x.part.toList[o]? = x.whole.toList[x.base + o]? := by
  rw [toList_part, List.getElem?_take_of_lt h, List.getElem?_drop]

theorem ahead_part (h : n ≤ x.length - o) :
    x.whole.ahead (x.base + o : Nat) n = x.part.ahead o n := by
  rw [Buffer.ahead_natCast, Buffer.ahead_natCast, toList_part, List.drop_take, List.drop_drop,
    List.take_take, Nat.min_eq_left h]

theorem behind_part (ho : o ≤ x.length) (hn : n ≤ o) :
    x.whole.behind (x.base + o : Nat) n = x.part.behind o n := by
  have hfits := x.fits
  have hsize := x.size_part
  rw [Buffer.behind_natCast _ _ _ (by omega) (by omega),
    Buffer.behind_natCast _ _ _ (by omega) hn, toList_part, List.take_take, Nat.min_eq_left ho,
    List.take_add, List.reverse_append, List.take_append_of_le_length]
  rw [List.length_reverse, List.length_take, List.length_drop, Buffer.length_toList]
  omega

/-- Inside the part and at its end, boundaries are the same. -/
theorem isBoundary_part (h : o ≤ x.length) :
    x.whole.isBoundary (x.base + o : Nat) = x.part.isBoundary o := by
  rcases Nat.eq_or_lt_of_le h with rfl | hlt
  · rw [x.boundary, ← x.size_part, Buffer.isBoundary_size]
  · have hfits := x.fits
    have hlt' : x.base + o < x.whole.toList.length := by rw [Buffer.length_toList]; omega
    have hbyte := List.getElem?_eq_getElem hlt'
    rw [Buffer.isBoundary_eq hbyte, Buffer.isBoundary_eq ((getElem?_part hlt).trans hbyte)]

theorem holdsAt_part (h : o + bytes.length ≤ x.length) :
    x.whole.holdsAt (x.base + o) bytes = x.part.holdsAt o bytes := by
  induction bytes generalizing o with
  | nil => rfl
  | cons byte rest ih =>
      rw [List.length_cons] at h
      rw [Buffer.holdsAt, Buffer.holdsAt, Buffer.byte?_eq, Buffer.byte?_eq,
        getElem?_part (by omega), Nat.add_assoc, ih (by omega)]

theorem findAmong_part (h : ∀ i < n, o + i + bytes.length ≤ x.length) :
    x.whole.findAmong bytes (x.base + o) n = (x.part.findAmong bytes o n).map (x.base + ·) := by
  induction n generalizing o with
  | zero => rfl
  | succ n ih =>
      have hhere : o + bytes.length ≤ x.length := h 0 (Nat.zero_lt_succ n)
      rw [Buffer.findAmong, Buffer.findAmong, holdsAt_part hhere, Nat.add_assoc, ih ?_]
      · by_cases hholds : x.part.holdsAt o bytes = true
        · rw [if_pos hholds, if_pos hholds, Option.map_some]
        · rw [if_neg hholds, if_neg hholds]
      · intro i hi
        have hnext := h (i + 1) (Nat.succ_lt_succ hi)
        omega

/-- A search looks at no more than its window. -/
theorem find?_part (hstop : stop ≤ x.length) :
    x.whole.find? bytes (x.base + o) (x.base + stop)
      = (x.part.find? bytes o stop).map (x.base + ·) := by
  have hcount : x.base + stop + 1 - bytes.length - (x.base + o) = stop + 1 - bytes.length - o := by
    omega
  rw [Buffer.find?, Buffer.find?, hcount]
  refine findAmong_part fun i hi => ?_
  omega

/-! ### Texts -/

theorem window_part (hstop : stop ≤ x.length) :
    x.whole.window (x.base + o) (x.base + stop) = x.part.window o stop := by
  rw [Buffer.window, Buffer.window, Nat.add_sub_add_left]
  exact ahead_part (by omega)

theorem text_go_part (hstop : stop ≤ x.length) (o : Nat) (acc : String) :
    Buffer.text.go x.whole (x.base + stop) (x.base + o) acc =
      (Buffer.text.go x.part stop o acc).mapError fun (fault, reason) =>
        (x.base + fault, reason) := by
  fun_induction Buffer.text.go x.part stop o acc with
  | case1 o acc hwindow => rw [Buffer.text_go_eq, window_part hstop, hwindow]; rfl
  | case2 o acc lead rest hwindow broken hdecode =>
      rw [Buffer.text_go_eq, window_part hstop, hwindow]
      simp only [hdecode, Except.mapError]
  | case3 o acc lead rest hwindow c width hdecode ih =>
      rw [Buffer.text_go_eq, window_part hstop, hwindow]
      simp only [hdecode, Nat.add_assoc, ih]

theorem lenientText_part (hstop : stop ≤ x.length) (o limit : Nat) :
    x.whole.lenientText (x.base + o) (x.base + stop) limit = x.part.lenientText o stop limit := by
  induction limit generalizing o with
  | zero => rfl
  | succ limit ih =>
      rw [Buffer.lenientText, Buffer.lenientText, window_part hstop]
      simp only [Nat.add_assoc, ih]

end Excerpt

end Utf8Scan
