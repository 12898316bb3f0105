/-
Searches that accept the rest of the window.

A search that does not require a find reads to the end of the window where there is
none.  It can still run out of window: the reader of characters that it goes by finds a
sequence that the window cuts off, and that is an overflow for every reader, whatever
the search was told.  The search for a text compares bytes and has no such end.

Which buffers have windows that cut a sequence off is a property of their bytes.  A
window can end at any boundary, and nowhere inside a sequence that is all there, since
no boundary lies in one and no step ends in one.  So the searches never overflow exactly
if every byte that announces a sequence starts one.
-/
import Utf8Scan.Proofs.Settled

namespace Utf8Scan

/-! ### Sequences that are all there -/

namespace Buffer

variable {b : Buffer} {o : Nat} {lead : UInt8} {width : Width}

/-- What can be read from an offset on starts with the byte there. -/
theorem head?_ahead (b : Buffer) {count : Nat} (h : 0 < count) :
    (b.ahead o count).head? = b.toList[o]? := by
  rw [ahead_natCast, List.head?_take, if_neg (by omega), List.head?_drop]

/-- Whether the byte at an offset, if it announces a sequence, starts one. -/
def completeAt (b : Buffer) (o : Nat) : Bool :=
  match b.byte? o with
  | none => true
  | some lead =>
    match Sequence.announced lead with
    | .error _ => true
    | .ok _ => (b.measure o b.size).isOk

/-- Every byte that announces a sequence is followed by the rest of the sequence. -/
def Complete (b : Buffer) : Prop := ∀ o < b.size, b.completeAt o = true

instance (b : Buffer) : Decidable b.Complete :=
  inferInstanceAs (Decidable (∀ o < b.size, b.completeAt o = true))

theorem complete_iff : b.Complete ↔
    ∀ (o : Nat) (lead : UInt8) (width : Width), b.toList[o]? = some lead →
      Sequence.announced lead = .ok width → b.measure o b.size = .ok width := by
  constructor
  · intro h o lead width hlead hann
    have hcomplete := h o (lt_size_of_byte hlead)
    simp only [completeAt, byte?_eq, hlead, hann] at hcomplete
    cases hmeasure : b.measure o b.size with
    | error e =>
        rw [hmeasure] at hcomplete
        cases hcomplete
    | ok found =>
        obtain ⟨⟨lead', hlead', hann'⟩, _, _⟩ := measure_natCast_eq_ok_iff.mp hmeasure
        obtain rfl := Option.some.inj (hlead.symm.trans hlead')
        rw [Except.ok.inj (hann.symm.trans hann')]
  · intro h o _
    unfold completeAt
    rw [byte?_eq]
    cases hlead : b.toList[o]? with
    | none => rfl
    | some lead =>
        cases hann : Sequence.announced lead with
        | error reason => simp only [hann]
        | ok width =>
            simp only [hann, h o lead width hlead hann]
            rfl

/-- An offset inside a sequence of the buffer, not at either end of it. -/
def Splits (b : Buffer) (o : Nat) : Prop :=
  ∃ (o' : Nat) (width : Width), b.measure o' b.size = .ok width ∧ o' < o ∧ o < o' + width.bytes

/-- No sequence contains a boundary. -/
theorem not_splits_of_isBoundary (h : b.isBoundary o = true) : ¬ b.Splits o := by
  rintro ⟨o', width, hmeasure, hlow, hhigh⟩
  obtain ⟨_, _, htrail⟩ := measure_natCast_eq_ok_iff.mp hmeasure
  obtain ⟨byte, hbyte, hcontinues⟩ := htrail (o - o') (by omega) (by omega)
  rw [Nat.add_sub_cancel' (Nat.le_of_lt hlow)] at hbyte
  rw [isBoundary_eq hbyte, hcontinues] at h
  cases h

/-- A step over a sequence does not end inside another. -/
theorem not_splits_behind (ho : ¬ b.Splits o) (h : b.measure o b.size = .ok width) :
    ¬ b.Splits (o + width.bytes) := by
  rintro ⟨o', width', hmeasure, hlow, hhigh⟩
  rcases Nat.lt_trichotomy o' o with hlt | rfl | hgt
  · have hpos := width.bytes_pos
    exact ho ⟨o', width', hmeasure, hlt, by omega⟩
  · obtain rfl := Except.ok.inj (h.symm.trans hmeasure)
    exact absurd hhigh (Nat.lt_irrefl _)
  · exact not_splits_of_isBoundary (measure_spec hmeasure).1 ⟨o, width, h, hgt, hlow⟩

/-- Where a sequence is announced and is not there, a boundary lies before its end. -/
theorem exists_isBoundary_of_incomplete (hlead : b.toList[o]? = some lead)
    (hann : Sequence.announced lead = .ok width) (h : b.measure o b.size ≠ .ok width) :
    ∃ i, o < i ∧ i < o + width.bytes ∧ i ≤ b.size ∧ b.isBoundary i = true := by
  by_contra hnone
  have hsize := lt_size_of_byte hlead
  -- Without a boundary in between, the buffer goes on and every byte continues the sequence.
  have hend : o + width.bytes ≤ b.size := by
    by_contra hlt
    exact hnone ⟨b.size, hsize, by omega, Nat.le_refl _, b.isBoundary_size⟩
  refine h (measure_natCast_eq_ok_iff.mpr ⟨⟨lead, hlead, hann⟩, hend, ?_⟩)
  intro i hi hlt
  have hin : o + i < b.toList.length := by
    rw [length_toList]
    omega
  have hget := List.getElem?_eq_getElem hin
  refine ⟨_, hget, ?_⟩
  by_contra hcontinues
  rw [Bool.not_eq_true] at hcontinues
  exact hnone ⟨o + i, by omega, by omega, by omega, isBoundary_of_byte hget hcontinues⟩

end Buffer

/-! ### What the searches fail with -/

/-- The searches that read to the end of the window where there is no find. -/
inductive Command.Lenient : Command → Prop
  | char (text : String) : Lenient (.readUntilChar text false)
  | set (chars : CharSource) : Lenient (.readUntilSet chars false)
  | test (test : CharTest) : Lenient (.readUntilTest test false)
  | string {text : String} (h : text ≠ "") : Lenient (.readUntilString text false)
  | line : Lenient (.readLine false)

theorem Scan.SearchError.breaksFrom {s : Scanner} {test : CharTest} {target : Target} {e : Error}
    (h : SearchError s test target false e) (htest : test.Total) : s.BreaksFrom s.pos e := by
  rcases h with (h | ⟨c, h⟩) | ⟨hrequired, _⟩
  · exact h
  · exact absurd h (htest c e)
  · cases hrequired

/-- A search that accepts the rest of the window fails only where the reading breaks off. -/
theorem Command.Lenient.outcome {s : Scanner} {c : Command} (h : c.Lenient) (hs : s.Inside)
    (hk : s.classifier.Total) (hc : c.Total) :
    Scan.Outcome c.run s (fun value _ => ∃ t, value = .scanner t) (s.BreaksFrom s.pos) := by
  cases h with
  | char text =>
      refine .map ((Scan.readUntil_view hs (.equals text) _ false).mono ?_ ?_)
      · exact fun t _ _ => ⟨t, rfl⟩
      · exact fun e he => he.breaksFrom (CharTest.equals_total text)
  | set chars =>
      have hview (set : CharSet) := (Scan.readUntil_view hs (.inSet set) .charSet false).mono
        (fun _ _ h => h) fun _ he => he.breaksFrom (CharTest.inSet_total set)
      refine .map ((withChars_outcome hview).mono ?_ ?_)
      · exact fun t _ _ => ⟨t, rfl⟩
      · rintro e (he | he)
        · exact he
        · obtain ⟨set, hset⟩ := hc.chars chars rfl
          rw [hset] at he
          cases he
  | test test =>
      refine .map ((Scan.readUntil_view hs test .test false).mono ?_ ?_)
      · exact fun t _ _ => ⟨t, rfl⟩
      · exact fun e he => he.breaksFrom (hc.test test rfl)
  | string htext =>
      refine .map ((Scan.readUntilString_outcome hs _ false).mono ?_ ?_)
      · exact fun t _ _ => ⟨t, rfl⟩
      · rintro e (⟨hempty, _⟩ | ⟨hrequired, _⟩)
        · exact absurd hempty htext
        · cases hrequired
  | line =>
      refine .map ((Scan.readLine_outcome hs false).mono ?_ ?_)
      · exact fun t _ _ => ⟨t, rfl⟩
      · exact fun e he => he.breaksFrom (hk .newline)

namespace Scanner

variable {root s : Scanner} {b : Buffer} {maxSize : Int} {k : Classifier} {c : Command}
  {e : Error} {o : Nat} {lead : UInt8} {width : Width}

/-- The window ends inside the sequence that the byte at an offset announces. -/
structure CutsOff (s : Scanner) (o : Nat) (width : Width) : Prop where
  lead : ∃ lead, s.buffer.toList[o]? = some lead ∧ Sequence.announced lead = .ok width
  starts : o < s.stop
  ends : s.stop < o + width.bytes

/-- The reading breaks off at a byte that is not well formed, or at a sequence that is cut off. -/
theorem BreaksFrom.error (hs : s.Inside) (h : s.BreaksFrom o e) :
    (∃ o' reason, e = .scan (.malformed o' reason)) ∨
      ∃ (o' : Nat) (width : Width), e = .scan (.truncated o' width) ∧ o ≤ o' ∧
        s.CutsOff o' width := by
  obtain ⟨o', hwalk, hlt, he⟩ := h
  obtain ⟨fault, hfault, rfl⟩ := decodeAt_fault hs he
  cases hfault with
  | exhausted hroom => omega
  | @truncated lead width hlead hann hpos hroom =>
      refine Or.inr ⟨o', width, rfl, WalksTo.le hwalk, ⟨lead, ?_, hann⟩, hlt, by omega⟩
      rwa [s.buffer.head?_ahead (by omega)] at hlead
  | malformed => exact Or.inl ⟨_, _, rfl⟩

theorem CutsOff.decodeAt (h : s.CutsOff o width) :
    s.decodeAt o = .error (.scan (.truncated o width)) := by
  obtain ⟨⟨lead, hlead, hann⟩, hstart, hstop⟩ := h
  rw [← s.buffer.head?_ahead (show 0 < min 4 (s.stop - o) by omega)] at hlead
  obtain ⟨rest, hrest⟩ := List.head?_eq_some_iff.mp hlead
  rw [decodeAt_eq, hrest, Sequence.decode_truncated hann (by omega) (by omega)]
  rfl

/-- A search that begins at a sequence that is cut off fails with it, whatever it is for. -/
theorem CutsOff.run (h : s.CutsOff s.pos width) (test : CharTest) (required : Bool) :
    (Command.readUntilTest test required).run s = .error (.scan (.truncated s.pos width)) s := by
  have hseek : s.seek test s.pos = .error (.scan (.truncated s.pos width)) := by
    rw [seek, if_pos h.starts, h.decodeAt]
  have hrun : Scan.readUntilTest test required s = .error (.scan (.truncated s.pos width)) s := by
    simp only [Scan.readUntilTest, Scan.readUntil, Scan.step, hseek, Except.bind]
  exact Scan.bind_of_error hrun

/-! ### Which windows cut a sequence off -/

/-- Where every sequence is there, no window ends inside one. -/
theorem Reachable.not_cutsOff (hroot : ofBuffer b maxSize k = .ok root) (hb : b.Complete)
    (h : root.Reachable s) : ¬ s.CutsOff o width := by
  have hinside := inside_of_ofBuffer hroot
  have hbuffer := (h.within hinside).2.buffer
  obtain ⟨⟨_, hstart⟩, rfl⟩ := ofBuffer_eq_ok_iff.mp hroot
  have hkept : Kept ⟨b, 0, b.size, 0, k⟩ fun o => ¬ b.Splits o :=
    ⟨fun o => Buffer.not_splits_of_isBoundary, fun o width => Buffer.not_splits_behind⟩
  have hzero : ¬ b.Splits 0 := Buffer.not_splits_of_isBoundary hstart
  have hends := h.ends hinside hkept
    ⟨hzero, hzero, Buffer.not_splits_of_isBoundary b.isBoundary_size⟩
  rintro ⟨⟨lead, hlead, hann⟩, hstarts, hstops⟩
  rw [hbuffer] at hlead
  exact hends.stop ⟨o, width, Buffer.complete_iff.mp hb o lead width hlead hann, hstarts, hstops⟩

/-- Where a sequence is announced and is not there, some window ends inside it. -/
theorem exists_reachable_cutsOff (hroot : ofBuffer b maxSize k = .ok root)
    (hlead : b.toList[o]? = some lead) (hann : Sequence.announced lead = .ok width)
    (h : b.measure o b.size ≠ .ok width) :
    ∃ s, root.Reachable s ∧ s.CutsOff s.pos width := by
  obtain ⟨i, hlow, hhigh, hsize, hboundary⟩ := Buffer.exists_isBoundary_of_incomplete hlead hann h
  obtain ⟨_, rfl⟩ := ofBuffer_eq_ok_iff.mp hroot
  have hfirst := Buffer.isBoundary_of_byte hlead (Sequence.not_isContinuation_of_announced hann)
  have hcut := subScanner_run (s := ⟨b, 0, b.size, 0, k⟩) (Nat.zero_le o) (Nat.le_of_lt hlow) hsize
    hfirst hboundary
  exact ⟨_, .returned .root hcut, ⟨⟨lead, hlead, hann⟩, hlow, hhigh⟩⟩

/-! ### How the searches end -/

/-- The search gives a scanner, or fails on a byte that is not well formed. -/
def AcceptsRest (s : Scanner) (c : Command) : Prop :=
  (∃ t left, c.run s = .ok (.scanner t) left) ∨
    ∃ o reason, c.run s = .error (.scan (.malformed o reason)) s

/-- The search fails at a sequence ahead of the cursor that the window cuts off. -/
def RunsOut (s : Scanner) (c : Command) : Prop :=
  ∃ (o : Nat) (width : Width), c.run s = .error (.scan (.truncated o width)) s ∧
    s.pos ≤ o ∧ s.CutsOff o width

theorem acceptsRest_or_runsOut (hs : s.Inside) (hk : s.classifier.Total) (h : c.Lenient)
    (hc : c.Total) : s.AcceptsRest c ∨ s.RunsOut c := by
  cases h.outcome hs hk hc with
  | returns run value =>
      obtain ⟨t, rfl⟩ := value
      exact Or.inl (Or.inl ⟨t, _, run⟩)
  | raises run error =>
      rcases error.error hs with ⟨o, reason, rfl⟩ | ⟨o, width, rfl, hle, hcut⟩
      · exact Or.inl (Or.inr ⟨o, reason, run⟩)
      · exact Or.inr ⟨o, width, run, hle, hcut⟩

theorem CutsOff.not_acceptsRest (h : s.CutsOff s.pos width) (test : CharTest) (required : Bool) :
    ¬ s.AcceptsRest (.readUntilTest test required) := by
  have hrun := h.run test required
  rintro (⟨t, left, hvalue⟩ | ⟨o, reason, herror⟩)
  · cases hrun.symm.trans hvalue
  · cases hrun.symm.trans herror

/-- **Searches that accept the rest of the window never run out of it exactly if every byte that
announces a sequence starts one.**  In any other buffer some of them do, but only ever at a
sequence that the window cuts off. -/
theorem complete_iff_acceptsRest (hroot : ofBuffer b maxSize k = .ok root) (hk : k.Total) :
    (b.Complete ↔ ∀ (s : Scanner) (c : Command), root.Reachable s → c.Lenient → c.Total →
        s.AcceptsRest c) ∧
      ∀ (s : Scanner) (c : Command), root.Reachable s → c.Lenient → c.Total →
        s.AcceptsRest c ∨ s.RunsOut c := by
  have hends (s : Scanner) (c : Command) (h : root.Reachable s) (hlenient : c.Lenient)
      (hc : c.Total) : s.AcceptsRest c ∨ s.RunsOut c := by
    obtain ⟨hs, hwithin⟩ := h.within (inside_of_ofBuffer hroot)
    refine acceptsRest_or_runsOut hs ?_ hlenient hc
    obtain ⟨_, rfl⟩ := ofBuffer_eq_ok_iff.mp hroot
    rw [hwithin.classifier]
    exact hk
  refine ⟨⟨fun hb s c h hlenient hc => ?_, fun h => ?_⟩, hends⟩
  · refine (hends s c h hlenient hc).resolve_right ?_
    rintro ⟨o, width, _, _, hcut⟩
    exact h.not_cutsOff hroot hb hcut
  -- The window that ends inside a missing sequence is all that it takes.
  · refine Buffer.complete_iff.mpr fun o lead width hlead hann => ?_
    by_contra hmissing
    obtain ⟨s, hreach, hcut⟩ := exists_reachable_cutsOff hroot hlead hann hmissing
    have htotal : (Command.readUntilTest (.const false) false).Total := by
      refine ⟨?_, nofun⟩
      intro test htest
      cases htest
      exact CharTest.const_total false
    exact hcut.not_acceptsRest _ _ (h s _ hreach (.test _) htotal)

/-- Stray bytes and a sequence that is all there but is no character. -/
theorem complete_iff_acceptsRest_malformed :
    let b : Buffer := .ofList [0x61, 0x80, 0xF5, 0x80, 0x80, 0x80, 0xFF]
    let root : Scanner := ⟨b, 0, 7, 0, .unicode⟩
    ofBuffer b 7 .unicode = .ok root ∧ Classifier.unicode.Total ∧
      ∀ (s : Scanner) (c : Command), root.Reachable s → c.Lenient → c.Total → s.AcceptsRest c := by
  intro b root
  have hroot : ofBuffer b 7 .unicode = .ok root := by cbv
  have hb : b.Complete := by decide
  have hiff := (complete_iff_acceptsRest hroot Classifier.unicode_total).1
  exact ⟨hroot, Classifier.unicode_total, hiff.mp hb⟩

/-- A search for a character runs out of a buffer that ends inside a sequence, where the search
for the same text gives the rest. -/
theorem not_acceptsRest_truncated :
    let root : Scanner := ⟨.ofList [0x61, 0xE2, 0x82], 0, 3, 0, .unicode⟩
    let x : ScanError := .truncated 1 .three
    ofBuffer root.buffer 3 .unicode = .ok root ∧
      (Command.readUntilChar "x" false).Lenient ∧ (Command.readUntilChar "x" false).Total ∧
      (Command.readUntilChar "x" false).run root = .error (.scan x) root ∧ x.kind = .overflow ∧
      (Command.readUntilString "x" false).run root
        = .ok (.scanner (root.view 0 3)) { root with pos := 3 } := by
  intro root x
  have hchar : (Command.readUntilChar "x" false).run root
      = .error (.scan (.truncated 1 .three)) root := by cbv
  have hstring : (Command.readUntilString "x" false).run root
      = .ok (.scanner (root.view 0 3)) { root with pos := 3 } := by cbv
  exact ⟨by cbv, .char "x", Command.total_of_none rfl rfl, hchar, rfl, hstring⟩

end Scanner

end Utf8Scan
