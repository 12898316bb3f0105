/-
What passes a test.

Reading on while a test is passed, reading up to what passes the opposite test, and
counting what passes are three ways to go over the same characters.  `Passes` says which
these are: they can be read one after another, each of them passes, and behind them the
window ends or lies a character that does not.  If there are such characters, all three
come to their end; if there are none, because the reading breaks off or the test does,
all three fail alike.

What lies behind them still does not pass, so to go on once more passes nothing.
-/
import Utf8Scan.Proofs.Agreement
import Utf8Scan.Proofs.Reachable

namespace Utf8Scan

namespace Scanner

variable {s : Scanner} {test : CharTest} {o o' : Nat} {c : Char} {chars : List Char} {e : Error}

/-! ### The characters that pass -/

/-- The characters from an offset up to another pass a test one after another, and there the window
ends or the next character does not pass. -/
inductive Passes (s : Scanner) (test : CharTest) : Nat → List Char → Nat → Prop
  | ended : Passes s test s.stop [] s.stop
  | refused {o : Nat} {c : Char} {width : Width} (h : s.decodeAt o = .ok (c, width))
      (hc : test c = .ok false) : Passes s test o [] o
  | passed {o o' : Nat} {c : Char} {width : Width} {chars : List Char}
      (h : s.decodeAt o = .ok (c, width)) (hc : test c = .ok true)
      (hrest : Passes s test (o + width.bytes) chars o') : Passes s test o (c :: chars) o'

namespace Passes

theorem again (h : s.Passes test o chars o') : s.Passes test o' [] o' := by
  induction h with
  | ended => exact .ended
  | refused h hc => exact .refused h hc
  | passed _ _ _ ih => exact ih

/-- The cursor has no part in it. -/
theorem move (h : s.Passes test o chars o') (pos : Nat) :
    ({ s with pos := pos } : Scanner).Passes test o chars o' := by
  induction h with
  | ended => exact .ended
  | refused h hc => exact .refused h hc
  | passed h hc _ ih => exact .passed h hc ih

theorem forall_mem (h : s.Passes test o chars o') : ∀ c ∈ chars, test c = .ok true := by
  induction h with
  | ended => exact nofun
  | refused _ _ => exact nofun
  | passed _ hc _ ih => exact List.forall_mem_cons.mpr ⟨hc, ih⟩

theorem bounds (h : s.Passes test o chars o') : o ≤ o' ∧ o' ≤ s.stop := by
  induction h with
  | ended => exact ⟨Nat.le_refl _, Nat.le_refl _⟩
  | refused h _ => exact ⟨Nat.le_refl _, Nat.le_of_lt (decodeAt_lt h)⟩
  | passed _ _ _ ih => exact ⟨by omega, ih.2⟩

/-- Behind what passes, the window ends or a character does not pass. -/
theorem stopped (h : s.Passes test o chars o') :
    o' = s.stop ∨ ∃ c width, s.decodeAt o' = .ok (c, width) ∧ test c = .ok false := by
  induction h with
  | ended => exact Or.inl rfl
  | refused h hc => exact Or.inr ⟨_, _, h, hc⟩
  | passed _ _ _ ih => exact ih

/-- What is passed lies between the two offsets. -/
theorem between_eq (h : s.Passes test o chars o') : s.buffer.between o o' = spell chars := by
  induction h with
  | ended => rw [Buffer.between_eq, Nat.sub_self]; rfl
  | refused _ _ => rw [Buffer.between_eq, Nat.sub_self]; rfl
  | @passed o o' c width chars h _ hrest ih =>
      obtain ⟨rfl, hencode⟩ := Buffer.decode_natCast_eq_ok_iff.mp h
      have hchar := Buffer.between_of_prefix hencode
      rw [String.length_utf8EncodeChar, ← Width.bytes_ofChar] at hchar
      rw [← Buffer.between_append (Nat.le_add_right _ _) hrest.bounds.1, hchar, ih, spell_cons]

theorem tally_eq (h : s.Passes test o chars o') (n : Nat) :
    s.tally test o n = .ok (n + chars.length, o') := by
  induction h generalizing n with
  | ended => rw [tally, if_neg (Nat.lt_irrefl _)]; rfl
  | refused h hc =>
      rw [tally, if_pos (decodeAt_lt h), h]
      simp only [hc]
      rfl
  | passed h hc _ ih =>
      rw [tally, if_pos (decodeAt_lt h), h]
      simp only [hc]
      rw [ih, List.length_cons, Nat.add_right_comm, Nat.add_assoc]

theorem pass_eq (h : s.Passes test o chars o') : s.pass test o = .ok o' :=
  (pass_eq_ok_iff 0).mpr ⟨_, h.tally_eq 0⟩

end Passes

theorem exists_passes (ho : o ≤ s.stop) (h : s.pass test o = .ok o') :
    ∃ chars, s.Passes test o chars o' := by
  fun_induction pass s test o with
  | case1 o hlt e he => cases h
  | case2 o hlt c width hdecode e he => cases h
  | case3 o hlt c width hdecode hc ih =>
      obtain ⟨chars, hchars⟩ := ih (decodeAt_le hdecode) h
      exact ⟨c :: chars, .passed hdecode hc hchars⟩
  | case4 o hlt c width hdecode hc =>
      cases h
      exact ⟨[], .refused hdecode hc⟩
  | case5 o hge =>
      obtain rfl : o = s.stop := by omega
      cases h
      exact ⟨[], .ended⟩

/-! ### The opposite test -/

/-- Where the one loop stops, or fails, so does the other. -/
theorem seek_negate (test : CharTest) (ho : o ≤ s.stop) :
    (s.seek test.negate o).map (·.getD s.stop) = s.pass test o := by
  fun_induction pass s test o with
  | case1 o hlt e he => rw [seek, if_pos hlt, he]; rfl
  | case2 o hlt c width hdecode e he =>
      rw [seek, if_pos hlt, hdecode]
      simp only [CharTest.negate, he]
      rfl
  | case3 o hlt c width hdecode hc ih =>
      rw [seek, if_pos hlt, hdecode, ← ih (decodeAt_le hdecode)]
      simp only [CharTest.negate, hc]
      rfl
  | case4 o hlt c width hdecode hc =>
      rw [seek, if_pos hlt, hdecode]
      simp only [CharTest.negate, hc]
      rfl
  | case5 o hge =>
      obtain rfl : o = s.stop := by omega
      rw [seek, if_neg (Nat.lt_irrefl _)]
      rfl

theorem finish_optional (s : Scanner) (target : Target) (found? : Option Nat) :
    s.finish target false found?
      = .ok (s.view s.pos (found?.getD s.stop), found?.getD s.stop) := by
  cases found? <;> rfl

end Scanner

/-- Reading on is reading up to the first character that passes the opposite test. -/
theorem Scan.readWhile_eq_readUntil {s : Scanner} {test : CharTest} (hs : s.pos ≤ s.stop) :
    readWhile test s = readUntilTest test.negate false s := by
  let result : Nat → Scanner × Nat := fun after => (s.view s.pos after, after)
  unfold readWhile readUntilTest readUntil
  refine step_congr ?_
  calc (s.pass test s.pos).map result
    _ = ((s.seek test.negate s.pos).map (·.getD s.stop)).map result := by
        rw [Scanner.seek_negate test hs]
    _ = (s.seek test.negate s.pos).bind (s.finish .test false) := by
        cases s.seek test.negate s.pos with
        | error e => rfl
        | ok found? => exact (s.finish_optional .test found?).symm

/-! ### The commands that go on while a test is passed -/

namespace Command

open Scan

/-- The commands that read on, and the test that they go by. -/
inductive ReadsWhile : Command → CharTest → Prop
  | test (test : CharTest) : ReadsWhile (.readWhileTest test) test
  | set {chars : CharSource} {set : CharSet} (h : chars.resolve = .ok set) :
      ReadsWhile (.readWhileSet chars) fun c => .ok (chars.Has c)

/-- The commands that only count, and the test that they go by under a classifier. -/
inductive CountsWhile (k : Classifier) : Command → CharTest → Prop
  /-- No character equals a text of another length than one. -/
  | char (text : String) :
      CountsWhile k (.readWhileChar text) fun c => .ok (text = String.singleton c)
  | whitespace : CountsWhile k .skipWhitespace (k.test .whitespace)

variable {s : Scanner} {c : Command} {test : CharTest}

theorem ReadsWhile.run_eq (h : c.ReadsWhile test) (s : Scanner) :
    c.run s = (do return Value.scanner (← readWhile test) : Scan Value) s := by
  cases h with
  | test test => rfl
  | set h =>
      rw [← funext (CharTest.inSet_eq h)]
      exact bind_congr (withChars_of_ok h _ s)

theorem CountsWhile.run_eq (h : c.CountsWhile s.classifier test) :
    c.run s = (do return Value.number (← countWhile test) : Scan Value) s := by
  cases h with
  | char text =>
      rw [← funext (CharTest.equals_eq text)]
      rfl
  | whitespace => rfl

theorem ReadsWhile.run_eq_readUntil (h : c.ReadsWhile test) (hs : s.pos ≤ s.stop) :
    c.run s = (Command.readUntilTest test.negate false).run s := by
  rw [h.run_eq]
  exact bind_congr (readWhile_eq_readUntil hs)

theorem ReadsWhile.run_of_ok (h : c.ReadsWhile test) {o : Nat}
    (hpass : s.pass test s.pos = .ok o) :
    c.run s = .ok (.scanner (s.view s.pos o)) { s with pos := o } := by
  rw [h.run_eq]
  refine bind_of_ok ?_
  simp only [readWhile, step, hpass, Except.map]

theorem ReadsWhile.run_of_error (h : c.ReadsWhile test) {e : Error}
    (hpass : s.pass test s.pos = .error e) : c.run s = .error e s := by
  rw [h.run_eq]
  refine bind_of_error ?_
  simp only [readWhile, step, hpass, Except.map]

theorem CountsWhile.run_of_ok (h : c.CountsWhile s.classifier test) {count o : Nat}
    (htally : s.tally test s.pos 0 = .ok (count, o)) :
    c.run s = .ok (.number count) { s with pos := o } := by
  rw [h.run_eq]
  refine bind_of_ok ?_
  simp only [countWhile, step, htally]

theorem CountsWhile.run_of_error (h : c.CountsWhile s.classifier test) {e : Error}
    (htally : s.tally test s.pos 0 = .error e) : c.run s = .error e s := by
  rw [h.run_eq]
  refine bind_of_error ?_
  simp only [countWhile, step, htally]

end Command

namespace Scanner

variable {root s : Scanner} {b : Buffer} {maxSize : Int} {k : Classifier} {test : CharTest}
  {o : Nat} {chars : List Char}

/-- How the commands that go by a test end where the characters that pass are these. -/
structure EndsPassing (s : Scanner) (test : CharTest) (o : Nat) (chars : List Char) : Prop where
  read : ∀ c : Command, c.ReadsWhile test →
    c.run s = .ok (.scanner (s.view s.pos o)) { s with pos := o }
  /-- The scanner that is returned has these characters. -/
  characters : (s.view s.pos o).characters = .ok chars
  passed : ∀ c ∈ chars, test c = .ok true
  counted : ∀ c : Command, c.CountsWhile s.classifier test →
    c.run s = .ok (.number chars.length) { s with pos := o }
  /-- Going on once more passes nothing. -/
  again : ∀ c : Command, c.ReadsWhile test →
    c.run { s with pos := o } = .ok (.scanner (s.view o o)) { s with pos := o }
  countedAgain : ∀ c : Command, c.CountsWhile s.classifier test →
    c.run { s with pos := o } = .ok (.number 0) { s with pos := o }

theorem Passes.endsPassing (h : s.Passes test s.pos chars o) (hs : s.stop ≤ s.buffer.size) :
    s.EndsPassing test o chars where
  read c hc := hc.run_of_ok h.pass_eq
  characters := charactersFrom_of_between (Nat.le_trans h.bounds.2 hs) h.between_eq
  passed := h.forall_mem
  counted c hc := by
    rw [hc.run_of_ok (h.tally_eq 0), Nat.zero_add]
  again c hc := hc.run_of_ok (h.again.move o).pass_eq
  countedAgain c hc :=
    Command.CountsWhile.run_of_ok (s := { s with pos := o }) hc ((h.again.move o).tally_eq 0)

/-- **In every reachable state, reading on while a test is passed is reading up to the first
character that passes the opposite test, and counting is reading on without a result.**  They pass
the same characters, or raise the same error, and going on once more passes nothing.  The test may
raise errors, and the buffer may hold any bytes. -/
theorem Reachable.run_while (hroot : ofBuffer b maxSize k = .ok root) (h : root.Reachable s)
    (test : CharTest) :
    (∀ c : Command, c.ReadsWhile test →
      c.run s = (Command.readUntilTest test.negate false).run s) ∧
    ((∃ o chars, s.EndsPassing test o chars) ∨
      ∃ e, ∀ c : Command, c.ReadsWhile test ∨ c.CountsWhile s.classifier test →
        c.run s = .error e s) := by
  have hs := h.inside (inside_of_ofBuffer hroot)
  refine ⟨fun c hc => hc.run_eq_readUntil hs.pos_le_stop, ?_⟩
  cases hpass : s.pass test s.pos with
  | error e =>
      refine Or.inr ⟨e, ?_⟩
      rintro c (hc | hc)
      · exact hc.run_of_error hpass
      · exact hc.run_of_error (tally_eq_error_iff.mpr hpass)
  | ok o =>
      obtain ⟨chars, hchars⟩ := exists_passes hs.pos_le_stop hpass
      exact Or.inl ⟨o, chars, hchars.endsPassing hs.stop_le_size⟩

/-- Two blanks are passed and counted.  To pass everything fails behind them, where the bytes are
malformed. -/
theorem Reachable.run_while_malformed :
    let root : Scanner := ⟨.ofList [0x20, 0x09, 0x78, 0xC3, 0x28], 0, 5, 0, .unicode⟩
    let everything : CharTest := .const true
    let broken : Error := .scan (.malformed 4 .continuationMissing)
    ofBuffer root.buffer 5 .unicode = .ok root ∧ root.Reachable root ∧
      root.EndsPassing (root.classifier.test .whitespace) 2 [' ', '\t'] ∧
      (Command.readWhileTest everything).run root = .error broken root ∧
      (Command.readUntilTest everything.negate false).run root = .error broken root := by
  intro root everything broken
  have hroot : ofBuffer root.buffer 5 .unicode = .ok root := by cbv
  have hskip : Command.skipWhitespace.run root = .ok (.number 2) { root with pos := 2 } := by cbv
  have hblanks : (root.view 0 2).characters = .ok [' ', '\t'] := by cbv
  have hbroken : (Command.readWhileTest everything).run root = .error broken root := by cbv
  obtain ⟨_, hends⟩ := Reachable.run_while hroot .root (root.classifier.test .whitespace)
  obtain ⟨huntil, _⟩ := Reachable.run_while hroot .root everything
  rcases hends with ⟨o, chars, hends⟩ | ⟨e, hfails⟩
  · obtain ⟨_, hleft⟩ := EStateM.Result.ok.inj (hskip.symm.trans (hends.counted _ .whitespace))
    obtain rfl : 2 = o := congrArg Scanner.pos hleft
    obtain rfl := Except.ok.inj (hblanks.symm.trans hends.characters)
    exact ⟨hroot, .root, hends, hbroken, (huntil _ (.test everything)).symm.trans hbroken⟩
  · cases hskip.symm.trans (hfails _ (Or.inr .whitespace))

end Scanner

end Utf8Scan
