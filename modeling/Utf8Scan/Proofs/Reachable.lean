/-
The scanners that a program can come to hold.

A program starts with a scanner for a whole buffer.  It runs commands on it and on
the scanners that commands return, in any order and whether or not they fail.
`Reachable` is the least set of scanners that is closed under this.  Backtracking adds
none: it puts the cursor back to where a reachable scanner had it.

Every reachable scanner keeps its cursor in its window and its window in the buffer,
and all of them share the buffer and lie in the window of the root.
-/
import Utf8Scan.Proofs.Command

namespace Utf8Scan.Scanner

variable {root s t left : Scanner} {c : Command} {value : Value} {e : Error}

/-! ### One command -/

/-- The scanner that a command leaves behind, whether it returns or raises an error. -/
def after (s : Scanner) (c : Command) : Scanner :=
  match c.run s with
  | .ok _ left => left
  | .error _ left => left

theorem after_of_ok (h : c.run s = .ok value left) : s.after c = left := by
  simp only [after, h]

theorem after_of_error (h : c.run s = .error e left) : s.after c = left := by
  simp only [after, h]

/-- A command changes nothing but the cursor. -/
theorem after_eq (hs : s.Inside) (c : Command) :
    ∃ pos, s.Visits pos ∧ s.after c = { s with pos := pos } := by
  cases c.run_outcome hs with
  | returns run value => exact ⟨_, value.visits, after_of_ok run⟩
  | raises run error => exact ⟨s.pos, .cursor, after_of_error run⟩

theorem run_value (hs : s.Inside) (h : c.run s = .ok value left) :
    s.Effect value left.pos := by
  cases c.run_outcome hs with
  | returns run value =>
      obtain ⟨rfl, rfl⟩ := EStateM.Result.ok.inj (run.symm.trans h)
      exact value
  | raises run error => exact absurd (run.symm.trans h) nofun

theorem run_error (hs : s.Inside) (h : c.run s = .error e left) :
    left = s ∧ c.Raises s e := by
  cases c.run_outcome hs with
  | returns run value => exact absurd (run.symm.trans h) nofun
  | raises run error =>
      obtain ⟨rfl, rfl⟩ := EStateM.Result.error.inj (run.symm.trans h)
      exact ⟨rfl, error⟩

/-! ### Windows -/

/-- A scanner of the same kind as another whose window lies in the other's. -/
structure Within (t s : Scanner) : Prop where
  buffer : t.buffer = s.buffer
  classifier : t.classifier = s.classifier
  start_le : s.start ≤ t.start
  stop_le : t.stop ≤ s.stop

theorem Within.refl (s : Scanner) : s.Within s := ⟨rfl, rfl, Nat.le_refl _, Nat.le_refl _⟩

theorem Within.trans (h : left.Within t) (h' : t.Within s) : left.Within s where
  buffer := h.buffer.trans h'.buffer
  classifier := h.classifier.trans h'.classifier
  start_le := Nat.le_trans h'.start_le h.start_le
  stop_le := Nat.le_trans h.stop_le h'.stop_le

theorem within_move (s : Scanner) (pos : Nat) : ({ s with pos := pos } : Scanner).Within s :=
  ⟨rfl, rfl, Nat.le_refl _, Nat.le_refl _⟩

theorem IsView.within (hs : s.Inside) (h : s.IsView t) : t.Within s := by
  obtain ⟨first, last, rfl, hfirst, hlast, _⟩ := h
  exact ⟨rfl, rfl, (hfirst.inside hs).1, (hlast.inside hs).2⟩

/-- A command returns, and then a scanner that it returns is a narrower one, or it raises an
error that it documents. -/
def Answers (s : Scanner) (c : Command) : Prop :=
  (∃ value left, c.run s = .ok value left ∧ ∀ t, value = .scanner t → t.Inside ∧ t.Within s) ∨
    ∃ e left, c.run s = .error e left ∧ c.Documents e

theorem answers_of_total (hs : s.Inside) (hk : s.classifier.Total) (hc : c.Total) :
    s.Answers c := by
  cases c.run_outcome hs with
  | returns run value =>
      refine Or.inl ⟨_, _, run, ?_⟩
      intro t ht
      have hview := value.isView t ht
      exact ⟨hview.inside hs, hview.within hs⟩
  | raises run error => exact Or.inr ⟨_, _, run, error.documents hk hc⟩

/-! ### Any number of commands -/

/-- Reachable from a root by commands, on it and on what they return. -/
inductive Reachable (root : Scanner) : Scanner → Prop
  | root : Reachable root root
  | after {s : Scanner} (h : Reachable root s) (c : Command) : Reachable root (s.after c)
  | returned {s t left : Scanner} {c : Command} (h : Reachable root s)
      (hrun : c.run s = .ok (.scanner t) left) : Reachable root t

theorem Reachable.run (h : root.Reachable s) (hrun : c.run s = .ok value left) :
    root.Reachable left := by
  rw [← after_of_ok hrun]
  exact h.after c

/-- Reachable scanners lie inside, and in the root's window. -/
theorem Reachable.within (hroot : root.Inside) (h : root.Reachable s) :
    s.Inside ∧ s.Within root := by
  induction h with
  | root => exact ⟨hroot, .refl _⟩
  | @after s _ c ih =>
      obtain ⟨hs, hwithin⟩ := ih
      obtain ⟨pos, hvisits, heq⟩ := after_eq hs c
      rw [heq]
      exact ⟨hs.move hvisits, (within_move s pos).trans hwithin⟩
  | returned _ hrun ih =>
      obtain ⟨hs, hwithin⟩ := ih
      have hview := (run_value hs hrun).isView _ rfl
      exact ⟨hview.inside hs, (hview.within hs).trans hwithin⟩

theorem Reachable.inside (hroot : root.Inside) (h : root.Reachable s) : s.Inside :=
  (h.within hroot).1

/-- A property of the offsets that commands can lead to. -/
structure Kept (root : Scanner) (P : Nat → Prop) : Prop where
  boundary : ∀ o : Nat, root.buffer.isBoundary o = true → P o
  /-- It holds behind every sequence that starts where it holds. -/
  forward : ∀ (o : Nat) (width : Width), P o → root.buffer.measure o root.stop = .ok width →
    P (o + width.bytes)

/-- The property at both ends of the window and at the cursor. -/
structure Ends (P : Nat → Prop) (s : Scanner) : Prop where
  start : P s.start
  pos : P s.pos
  stop : P s.stop

theorem Visits.kept {P : Nat → Prop} {o : Nat} (hP : root.Kept P) (hs : s.Within root)
    (hends : s.Ends P) (h : s.Visits o) : P o := by
  induction h with
  | start => exact hends.start
  | stop => exact hends.stop
  | cursor => exact hends.pos
  | boundary _ _ h =>
      rw [hs.buffer] at h
      exact hP.boundary _ h
  | forward _ hstep ih =>
      obtain ⟨width, hwidth, rfl⟩ := hstep
      have hmeasure := measure_of_measureAt hs.stop_le hwidth
      rw [hs.buffer] at hmeasure
      exact hP.forward _ width ih hmeasure

/-- What commands keep holds at the ends and the cursors of all reachable scanners. -/
theorem Reachable.ends {P : Nat → Prop} (hroot : root.Inside) (hP : root.Kept P)
    (hends : root.Ends P) (h : root.Reachable s) : s.Ends P := by
  induction h with
  | root => exact hends
  | @after s hreach c ih =>
      obtain ⟨hs, hwithin⟩ := hreach.within hroot
      obtain ⟨pos, hvisits, heq⟩ := after_eq hs c
      rw [heq]
      exact ⟨ih.start, hvisits.kept hP hwithin ih, ih.stop⟩
  | returned hreach hrun ih =>
      obtain ⟨hs, hwithin⟩ := hreach.within hroot
      obtain ⟨first, last, rfl, hfirst, hlast, _⟩ := (run_value hs hrun).isView _ rfl
      have hstart := hfirst.kept hP hwithin ih
      exact ⟨hstart, hstart, hlast.kept hP hwithin ih⟩

/-! ### The root -/

/-- A buffer is accepted if it is not too large and does not start inside a character. -/
theorem ofBuffer_eq_ok_iff {b : Buffer} {maxSize : Int} {k : Classifier} :
    ofBuffer b maxSize k = .ok root ↔ (b.size ≤ maxSize ∧ b.isBoundary 0 = true) ∧
      root = { buffer := b, start := 0, stop := b.size, pos := 0, classifier := k } := by
  unfold ofBuffer
  by_cases hsize : maxSize < b.size
  · simp [hsize, Int.not_le.mpr hsize]
  · by_cases hstart : b.isBoundary 0 = true
    · simp [hsize, hstart, Int.not_lt.mp hsize, eq_comm]
    · simp [hsize, hstart]

theorem inside_of_ofBuffer {b : Buffer} {maxSize : Int} {k : Classifier}
    (h : ofBuffer b maxSize k = .ok root) : root.Inside := by
  obtain ⟨_, rfl⟩ := ofBuffer_eq_ok_iff.mp h
  exact ⟨Nat.le_refl _, Nat.zero_le _, Nat.le_refl _⟩

/-! ### Failures leave nothing behind -/

/-- **In every reachable state, a command that fails changes nothing, and neither does one that
answers no.**  The error may be any, also one that a test or the classifier raised in the middle
of the text. -/
theorem Reachable.run_atomic {b : Buffer} {maxSize : Int} {k : Classifier}
    (hroot : ofBuffer b maxSize k = .ok root) (h : root.Reachable s) (c : Command) :
    (∀ e left, c.run s = .error e left → left = s) ∧
      ∀ left, c.run s = .ok (.bool false) left → left = s := by
  have hs := h.inside (inside_of_ofBuffer hroot)
  refine ⟨fun e left hrun => (run_error hs hrun).1, ?_⟩
  intro left hrun
  obtain ⟨pos, _, heq⟩ := after_eq hs c
  rw [after_of_ok hrun] at heq
  have hpos : left.pos = s.pos := (run_value hs hrun).stays rfl
  rw [heq] at hpos ⊢
  have hpos : pos = s.pos := hpos
  rw [hpos]

/-- Reading a line fails here after its CR was read, on the malformed sequence behind that. -/
theorem Reachable.run_atomic_halfway :
    let root : Scanner := ⟨.ofList [0x61, 0x0D, 0xC3, 0x28], 0, 4, 0, .unicode⟩
    let s := root.after (.advance 1)
    ofBuffer root.buffer 4 .unicode = .ok root ∧ root.Reachable s ∧
      ∃ left, (Command.readLine false).run s
          = .error (.scan (.malformed 3 .continuationMissing)) left ∧ left = s := by
  intro root s
  have hroot : ofBuffer root.buffer 4 .unicode = .ok root := by cbv
  have hreach : root.Reachable s := .after .root _
  have hrun : (Command.readLine false).run s
      = .error (.scan (.malformed 3 .continuationMissing)) s := by cbv
  exact ⟨hroot, hreach, s, hrun, (Reachable.run_atomic hroot hreach (.readLine false)).1 _ _ hrun⟩

end Utf8Scan.Scanner
