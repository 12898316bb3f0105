/-
Going forward and going back.

A step forward trusts the leading byte and checks the bytes behind it.  A step back
looks for the nearest byte that continues nothing, and compares the width that it
announces with its distance.  The two ask the same of the same bytes, so a step back
undoes a step forward and nothing else, whether or not the bytes are a text.  They
differ in what ends them: a step forward must not lead over the end of the window, a
step back not below its start.

Moves by several characters are steps one after another.  The last step forward is the
first step back, and the induction takes the moves apart there.
-/
import Utf8Scan.Proofs.Stepping

namespace Utf8Scan

/-! ### One step back -/

namespace Buffer

variable {b : Buffer} {offset floor : Nat} {width : Width}

/-- A step back finds the sequence that ends where it begins, unless that starts below the floor. -/
theorem measureBack_natCast_eq_ok_iff (hoffset : offset ≤ b.size) :
    b.measureBack offset floor = .ok width ↔
      floor + width.bytes ≤ offset ∧ b.measure (offset - width.bytes : Nat) offset = .ok width := by
  have hpos := width.bytes_pos
  have hfour := width.bytes_le_four
  simp only [measureBack, room_natCast, Except.mapError_eq_ok_iff, Sequence.measureBack_eq_ok_iff,
    measure_natCast_eq_ok_iff]
  -- The byte at a distance `i` forward from the one end lies at `width.bytes - 1 - i` from the other.
  constructor
  · rintro ⟨hroom, ⟨lead, hlead, hann⟩, htrail⟩
    rw [getElem?_behind hoffset (by omega) (by omega)] at hlead
    refine ⟨by omega, ⟨lead, ?_, hann⟩, by omega, ?_⟩
    · rw [← hlead]
      congr 1
      omega
    · intro i hi hlt
      obtain ⟨byte, hbyte, hcontinues⟩ := htrail (width.bytes - 1 - i) (by omega)
      rw [getElem?_behind hoffset (by omega) (by omega)] at hbyte
      refine ⟨byte, ?_, hcontinues⟩
      rw [← hbyte]
      congr 1
      omega
  · rintro ⟨hfloor, ⟨lead, hlead, hann⟩, _, htrail⟩
    refine ⟨by omega, ⟨lead, ?_, hann⟩, ?_⟩
    · rw [getElem?_behind hoffset (by omega) (by omega), ← hlead]
      congr 1
      omega
    · intro j hj
      obtain ⟨byte, hbyte, hcontinues⟩ := htrail (width.bytes - 1 - j) (by omega) (by omega)
      refine ⟨byte, ?_, hcontinues⟩
      rw [getElem?_behind hoffset (by omega) (by omega), ← hbyte]
      congr 1
      omega

end Buffer

namespace Scanner

variable {s : Scanner} {o o' n : Nat} {width : Width}

/-- A step forward looks at nothing behind the sequence that it passes. -/
theorem measureAt_eq_ok_iff : s.measureAt o = .ok width ↔
    o + width.bytes ≤ s.stop ∧ s.buffer.measure o (o + width.bytes : Nat) = .ok width := by
  unfold measureAt
  simp only [Buffer.measure_natCast_eq_ok_iff]
  constructor
  · rintro ⟨hlead, hstop, htrail⟩
    exact ⟨hstop, hlead, Nat.le_refl _, htrail⟩
  · rintro ⟨hstop, hlead, _, htrail⟩
    exact ⟨hlead, hstop, htrail⟩

/-- A step back undoes a step forward. -/
theorem stepsTo_iff_stepsBackTo (hsize : s.stop ≤ s.buffer.size) (hstart : s.start ≤ o)
    (hstop : o' ≤ s.stop) : s.StepsTo o o' ↔ s.StepsBackTo o' o := by
  unfold StepsTo StepsBackTo
  refine exists_congr fun width => ?_
  unfold measureBackAt
  rw [measureAt_eq_ok_iff, Buffer.measureBack_natCast_eq_ok_iff (Nat.le_trans hstop hsize)]
  constructor
  · rintro ⟨⟨_, hmeasure⟩, rfl⟩
    rw [Nat.add_sub_cancel]
    exact ⟨⟨by omega, hmeasure⟩, rfl⟩
  · rintro ⟨⟨hfloor, hmeasure⟩, rfl⟩
    rw [Nat.sub_add_cancel (by omega)]
    exact ⟨⟨hstop, hmeasure⟩, rfl⟩

/-! ### Several steps -/

theorem skip_add (m n o : Nat) : s.skip (m + n) o = (s.skip m o).bind (s.skip n) := by
  induction m generalizing o with
  | zero => rw [Nat.zero_add]; rfl
  | succ m ih =>
      rw [Nat.succ_add_eq_add_succ, Nat.add_succ, skip, skip]
      cases s.measureAt o with
      | error e => rfl
      | ok width => exact ih _

/-- Skipping looks at the window and not at the cursor. -/
@[simp] theorem skip_move (s : Scanner) (pos n o : Nat) :
    ({ s with pos := pos } : Scanner).skip n o = s.skip n o := by
  induction n generalizing o with
  | zero => rfl
  | succ n ih => simp only [skip, ih]; rfl

@[simp] theorem skipBack_move (s : Scanner) (pos n o : Nat) :
    ({ s with pos := pos } : Scanner).skipBack n o = s.skipBack n o := by
  induction n generalizing o with
  | zero => rfl
  | succ n ih => simp only [skipBack, ih]; rfl

theorem skip_one_eq_ok_iff : s.skip 1 o = .ok o' ↔ s.StepsTo o o' := by
  unfold StepsTo
  rw [skip]
  cases s.measureAt o with
  | error e => simp
  | ok width => simp [skip, eq_comm]

theorem skipBack_succ_eq_ok_iff : s.skipBack (n + 1) o' = .ok o ↔
    ∃ mid, s.StepsBackTo o' mid ∧ s.skipBack n mid = .ok o := by
  unfold StepsBackTo
  rw [skipBack]
  cases s.measureBackAt o' with
  | error e => simp
  | ok width => simp

/-- Going back by as many characters undoes going forward. -/
theorem skip_iff_skipBack (hsize : s.stop ≤ s.buffer.size) (hstart : s.start ≤ o)
    (hstop : o' ≤ s.stop) (n : Nat) : s.skip n o = .ok o' ↔ s.skipBack n o' = .ok o := by
  induction n generalizing o' with
  | zero => simp [skip, skipBack, eq_comm]
  | succ n ih =>
      rw [skip_add, Except.bind_eq_ok_iff, skipBack_succ_eq_ok_iff]
      refine exists_congr fun mid => ?_
      rw [skip_one_eq_ok_iff, and_comm]
      constructor
      · rintro ⟨hlast, hskip⟩
        have hle := WalksTo.le (skip_walksTo hskip)
        have hmid := WalksTo.le (.single hlast)
        have hback := (stepsTo_iff_stepsBackTo hsize (by omega) hstop).mp hlast
        exact ⟨hback, (ih (by omega)).mp hskip⟩
      · rintro ⟨hlast, hskip⟩
        have hle := WalksBackTo.le (skipBack_walksBackTo hskip)
        have hmid := WalksBackTo.le (.single hlast)
        have hforth := (stepsTo_iff_stepsBackTo hsize (by omega) hstop).mpr hlast
        exact ⟨hforth, (ih (by omega)).mpr hskip⟩

end Scanner

/-! ### Moves of the cursor -/

namespace Scan

variable {s left : Scanner} {n : Nat}

theorem checkedCount_natCast (n : Nat) : checkedCount n = .ok n := by
  unfold checkedCount
  rw [if_neg (by omega), Int.toNat_natCast]

theorem advance_eq_ok_iff : advance n s = .ok () left ↔
    ∃ o, s.skip n s.pos = .ok o ∧ left = { s with pos := o } := by
  simp only [advance, step_eq_ok_iff, checkedCount_natCast, bind, Except.bind]
  refine exists_congr fun o => and_congr_left' ?_
  cases s.skip n s.pos <;> simp [pure, Except.pure]

theorem retreat_eq_ok_iff : retreat n s = .ok () left ↔
    ∃ o, s.skipBack n s.pos = .ok o ∧ left = { s with pos := o } := by
  have hcount : ¬ (n : Int) < 0 := Int.not_lt.mpr (Int.natCast_nonneg n)
  simp only [retreat, step_eq_ok_iff, if_neg hcount, Int.toNat_natCast, Except.map_eq_ok_iff]
  simp

end Scan

namespace Scanner

open Scan

variable {s : Scanner} {i j : Nat}

theorem advance_to_iff {n : Nat} :
    advance n { s with pos := i } = .ok () { s with pos := j } ↔ s.skip n i = .ok j := by
  rw [advance_eq_ok_iff]
  simp

theorem retreat_to_iff {n : Nat} :
    retreat n { s with pos := j } = .ok () { s with pos := i } ↔ s.skipBack n j = .ok i := by
  rw [retreat_eq_ok_iff]
  simp

theorem advance_twice_to_iff {m n : Nat} :
    (do advance m; advance n : Scan Unit) { s with pos := i } = .ok () { s with pos := j } ↔
      ∃ mid, s.skip m i = .ok mid ∧ s.skip n mid = .ok j := by
  rw [Scan.bind_eq_ok_iff]
  constructor
  · rintro ⟨_, left, hfirst, hsecond⟩
    obtain ⟨mid, hskip, rfl⟩ := advance_eq_ok_iff.mp hfirst
    rw [skip_move] at hskip
    exact ⟨mid, hskip, advance_to_iff.mp hsecond⟩
  · rintro ⟨mid, hfirst, hsecond⟩
    exact ⟨(), { s with pos := mid }, advance_to_iff.mpr hfirst, advance_to_iff.mpr hsecond⟩

/-- **Going back undoes going forward by as many characters, and nothing else, and going forward
can be done in parts.**  The window may hold any bytes, and the cursor may be at any of them. -/
theorem advance_iff_retreat (hi : ({ s with pos := i } : Scanner).Inside)
    (hj : ({ s with pos := j } : Scanner).Inside) :
    (∀ n : Nat, advance n { s with pos := i } = .ok () { s with pos := j } ↔
        retreat n { s with pos := j } = .ok () { s with pos := i }) ∧
      ∀ m n : Nat, advance (m + n) { s with pos := i } = .ok () { s with pos := j } ↔
        (do advance m; advance n : Scan Unit) { s with pos := i } = .ok () { s with pos := j } := by
  refine ⟨fun n => ?_, fun m n => ?_⟩
  · rw [advance_to_iff, retreat_to_iff]
    exact s.skip_iff_skipBack hi.stop_le_size hi.start_le_pos hj.pos_le_stop n
  · rw [← Nat.cast_add, advance_to_iff, advance_twice_to_iff, skip_add, Except.bind_eq_ok_iff]

/-- An overlong form and a surrogate are no characters, but they are passed in both directions. -/
theorem advance_iff_retreat_malformed :
    let s : Scanner := ⟨.ofList [0x80, 0x61, 0xC0, 0x80, 0xED, 0xA0, 0x80, 0x80], 1, 8, 1, .unicode⟩
    ({ s with pos := 1 } : Scanner).Inside ∧ ({ s with pos := 7 } : Scanner).Inside ∧
      advance 3 { s with pos := 1 } = .ok () { s with pos := 7 } ∧
      retreat 3 { s with pos := 7 } = .ok () { s with pos := 1 } ∧
      (do advance 1; advance 2 : Scan Unit) { s with pos := 1 } = .ok () { s with pos := 7 } := by
  intro s
  have hi : ({ s with pos := 1 } : Scanner).Inside := ⟨by decide, by decide, by decide⟩
  have hj : ({ s with pos := 7 } : Scanner).Inside := ⟨by decide, by decide, by decide⟩
  have hadvance : advance 3 { s with pos := 1 } = .ok () { s with pos := 7 } := by cbv
  obtain ⟨hretreat, hparts⟩ := advance_iff_retreat hi hj
  exact ⟨hi, hj, hadvance, (hretreat 3).mp hadvance, (hparts 1 2).mp hadvance⟩

end Scanner

end Utf8Scan
