/-
When all cursors lie at boundaries.

A step forward judges the bytes of the sequence that it passes and nothing behind
them.  Where a continuation byte follows a complete sequence, a step over the sequence
succeeds and leaves the cursor on that byte, which is no boundary.  The cursor can
then be marked, but not be put back to the mark, and no window can start or end at it.

`Settled` says that there is no such place in a buffer.  It is what the cursors need
and all that they need: every command that does not step forward goes to an end of the
window or to a boundary anyway, and conversely any place of a buffer can be visited by
restoring a mark there and stepping once.
-/
import Utf8Scan.Proofs.Reachable

namespace Utf8Scan

/-- Whether a sequence at an offset, if there is one, ends at a boundary. -/
def Buffer.settledAt (b : Buffer) (o : Nat) : Bool :=
  match b.measure o b.size with
  | .ok width => b.isBoundary (o + width.bytes)
  | .error _ => true

/-- Every sequence of the buffer ends at a boundary. -/
def Buffer.Settled (b : Buffer) : Prop := ∀ o < b.size, b.settledAt o = true

instance (b : Buffer) : Decidable b.Settled :=
  inferInstanceAs (Decidable (∀ o < b.size, b.settledAt o = true))

namespace Scanner

variable {root s t left : Scanner} {b : Buffer} {maxSize : Int} {k : Classifier} {o : Nat}
  {width : Width}

/-- Both ends of the window and the cursor lie at boundaries of the buffer. -/
def Aligned (s : Scanner) : Prop := s.Ends fun o => s.buffer.isBoundary o = true

/-- The cursor can be marked and put back to the mark, which changes nothing, and windows can be
cut out before it and behind it. -/
structure Revisitable (s : Scanner) : Prop where
  mark : ∃ m : Nat, Command.position.run s = .ok (.number m) s ∧
    (Command.restore m).run s = .ok .none s
  before : ∃ t, (Command.subScanner s.start s.pos).run s = .ok (.scanner t) s
  behind : ∃ t, (Command.subScanner s.pos s.stop).run s = .ok (.scanner t) s

/-! ### Restoring and cutting out -/

theorem restore_run (hstart : s.start ≤ o) (hstop : o ≤ s.stop)
    (h : s.buffer.isBoundary o = true) :
    (Command.restore o).run s = .ok .none { s with pos := o } := by
  have hmark : (s.start : Int) ≤ o ∧ (o : Int) ≤ s.stop ∧ s.buffer.isBoundary o = true :=
    ⟨by omega, by omega, h⟩
  have hrun : Scan.restore o s = .ok () { s with pos := o } := by
    simp only [Scan.restore, Scan.step, if_pos hmark, Int.toNat_natCast]
  exact Scan.bind_of_ok hrun

/-- A mark inside a character is refused. -/
theorem restore_run_of_not_boundary (h : s.buffer.isBoundary o = false) :
    (Command.restore o).run s = .error (.argument (.unusableMark o s.start s.stop)) s := by
  have hmark : ¬ ((s.start : Int) ≤ o ∧ (o : Int) ≤ s.stop ∧ s.buffer.isBoundary o = true) := by
    simp [h]
  have hrun : Scan.restore o s = .error (.argument (.unusableMark o s.start s.stop)) s := by
    simp only [Scan.restore, Scan.step, if_neg hmark]
  exact Scan.bind_of_error hrun

theorem isBoundary_of_restore_run {value : Value}
    (h : (Command.restore o).run s = .ok value left) : s.buffer.isBoundary o = true := by
  by_contra hboundary
  have hrefused := restore_run_of_not_boundary (Bool.eq_false_of_not_eq_true hboundary)
  cases hrefused.symm.trans h

theorem subScanner_run {first last : Nat} (hfirst : s.start ≤ first) (hle : first ≤ last)
    (hlast : last ≤ s.stop) (h : s.buffer.isBoundary first = true)
    (h' : s.buffer.isBoundary last = true) :
    (Command.subScanner first last).run s = .ok (.scanner (s.view first last)) s := by
  have hrange : (s.start : Int) ≤ first ∧ (first : Int) ≤ last ∧ (last : Int) ≤ s.stop :=
    ⟨by omega, by omega, by omega⟩
  have hsub : s.subScanner first last = .ok (s.view first last) := by
    simp [subScanner, hrange, h, h']
  have hrun : Scan.query (fun s => (s.subScanner first last).map Value.scanner) s
      = .ok (.scanner (s.view first last)) s := by
    simp only [Scan.query, hsub, Except.map]
  exact hrun

theorem advance_one_run (h : s.measureAt s.pos = .ok width) :
    (Command.advance 1).run s = .ok .none { s with pos := s.pos + width.bytes } := by
  have hskip : s.skip 1 s.pos = .ok (s.pos + width.bytes) := by
    simp only [skip, h]
  have hcount : Scan.checkedCount 1 = .ok 1 := by rfl
  have hrun : Scan.advance 1 s = .ok () { s with pos := s.pos + width.bytes } := by
    simp only [Scan.advance, Scan.step, hcount, bind, Except.bind, hskip, pure, Except.pure]
  exact Scan.bind_of_ok hrun

/-! ### Sequences and boundaries -/

theorem settled_iff : b.Settled ↔
    ∀ (o : Nat) (width : Width), b.measure o b.size = .ok width →
      b.isBoundary (o + width.bytes : Nat) = true := by
  constructor
  · intro h o width hmeasure
    have hpos := width.bytes_pos
    have hle := (Buffer.measure_spec hmeasure).2
    have hsettled := h o (by omega)
    simp only [Buffer.settledAt, hmeasure] at hsettled
    rw [Int.natCast_add]
    exact hsettled
  · intro h o _
    cases hmeasure : b.measure o b.size with
    | error e => simp only [Buffer.settledAt, hmeasure]
    | ok width =>
        have hboundary := h o width hmeasure
        simp only [Buffer.settledAt, hmeasure]
        rw [Int.natCast_add] at hboundary
        exact hboundary

/-! ### Where the cursors lie -/

/-- In a settled buffer no command leaves the boundaries. -/
theorem Reachable.aligned (hroot : ofBuffer b maxSize k = .ok root) (hb : b.Settled)
    (h : root.Reachable s) : s.Aligned := by
  have hinside := inside_of_ofBuffer hroot
  have hbuffer := (h.within hinside).2.buffer
  obtain ⟨⟨_, hstart⟩, rfl⟩ := ofBuffer_eq_ok_iff.mp hroot
  unfold Aligned
  rw [hbuffer]
  refine h.ends hinside ⟨fun o h => h, ?_⟩ ⟨hstart, hstart, b.isBoundary_size⟩
  intro o width _ hmeasure
  exact settled_iff.mp hb o width hmeasure

/-- What lies at boundaries can be visited again. -/
theorem Aligned.revisitable (hs : s.Inside) (h : s.Aligned) : s.Revisitable where
  mark := ⟨s.pos, rfl, restore_run hs.start_le_pos hs.pos_le_stop h.pos⟩
  before := ⟨_, subScanner_run (Nat.le_refl _) hs.start_le_pos hs.pos_le_stop h.start h.pos⟩
  behind := ⟨_, subScanner_run hs.start_le_pos hs.pos_le_stop (Nat.le_refl _) h.pos h.stop⟩

/-- A mark that can be used lies at a boundary. -/
theorem Revisitable.pos_isBoundary (h : s.Revisitable) : s.buffer.isBoundary s.pos = true := by
  obtain ⟨m, hmark, hrestore⟩ := h.mark
  obtain rfl : s.pos = m := by
    cases hmark
    rfl
  exact isBoundary_of_restore_run hrestore

/-- Restoring a mark and stepping once leads behind any sequence of the buffer. -/
theorem reachable_behind (hroot : ofBuffer b maxSize k = .ok root)
    (h : b.measure o b.size = .ok width) :
    root.Reachable { root with pos := o + width.bytes } := by
  obtain ⟨_, rfl⟩ := ofBuffer_eq_ok_iff.mp hroot
  obtain ⟨hboundary, hle⟩ := Buffer.measure_spec h
  have hpos := width.bytes_pos
  have hrestore : (Command.restore o).run ⟨b, 0, b.size, 0, k⟩ = .ok .none ⟨b, 0, b.size, o, k⟩ :=
    restore_run (Nat.zero_le o) (show o ≤ b.size by omega) hboundary
  have hadvance : (Command.advance 1).run ⟨b, 0, b.size, o, k⟩
      = .ok .none ⟨b, 0, b.size, o + width.bytes, k⟩ := advance_one_run h
  exact (Reachable.root.run hrestore).run hadvance

/-- **All cursors and window ends stay at boundaries exactly if no continuation byte follows a
complete sequence, and exactly then every cursor can be marked, restored and cut at.** -/
theorem settled_iff_aligned (hroot : ofBuffer b maxSize k = .ok root) :
    (b.Settled ↔ ∀ s, root.Reachable s → s.Aligned) ∧
      (b.Settled ↔ ∀ s, root.Reachable s → s.Revisitable) := by
  have hinside := inside_of_ofBuffer hroot
  have hbuffer : root.buffer = b := by
    obtain ⟨_, rfl⟩ := ofBuffer_eq_ok_iff.mp hroot
    rfl
  -- Behind every sequence there is a cursor, so what holds of cursors holds of sequences.
  have hsettled (h : ∀ s, root.Reachable s → s.buffer.isBoundary s.pos = true) : b.Settled := by
    refine settled_iff.mpr ?_
    intro o width hmeasure
    rw [← hbuffer]
    exact h _ (reachable_behind hroot hmeasure)
  refine ⟨⟨fun hb s h => h.aligned hroot hb, fun h => ?_⟩, ⟨fun hb s h => ?_, fun h => ?_⟩⟩
  · exact hsettled fun s hs => (h s hs).pos
  · exact (h.aligned hroot hb).revisitable (h.inside hinside)
  · exact hsettled fun s hs => (h s hs).pos_isBoundary

/-- A text of one character before a stray continuation byte. -/
theorem settled_iff_aligned_stray :
    let b : Buffer := .ofList [0x61, 0x80]
    let root : Scanner := ⟨b, 0, 2, 0, .unicode⟩
    ofBuffer b 2 .unicode = .ok root ∧ ¬ ∀ s, root.Reachable s → s.Aligned := by
  intro b root
  have hroot : ofBuffer b 2 .unicode = .ok root := by cbv
  have hb : ¬ b.Settled := by decide
  exact ⟨hroot, fun h => hb ((settled_iff_aligned hroot).1.mpr h)⟩

/-- Stepping over the character succeeds, and then the cursor can be marked but not restored, and
no window ends or starts at it. -/
theorem not_aligned_stray :
    let root : Scanner := ⟨.ofList [0x61, 0x80], 0, 2, 0, .unicode⟩
    let s : Scanner := { root with pos := 1 }
    ofBuffer root.buffer 2 .unicode = .ok root ∧
      (Command.advance 1).run root = .ok .none s ∧ root.Reachable s ∧
      s.buffer.isBoundary s.pos = false ∧
      Command.position.run s = .ok (.number 1) s ∧
      (Command.restore 1).run s = .error (.argument (.unusableMark 1 0 2)) s ∧
      (Command.subScanner 0 1).run s = .error (.argument (.stopInsideCharacter 1)) s ∧
      (Command.subScanner 1 2).run s = .error (.argument (.startInsideCharacter 1)) s := by
  intro root s
  have hadvance : (Command.advance 1).run root = .ok .none s := by rfl
  have hreach : root.Reachable s := Reachable.root.run hadvance
  have hboundary : s.buffer.isBoundary s.pos = false := by decide
  have hrestore := restore_run_of_not_boundary hboundary
  exact ⟨by cbv, hadvance, hreach, hboundary, by rfl, hrestore, by cbv, by cbv⟩

end Scanner

end Utf8Scan
