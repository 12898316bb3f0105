/-
What a search leaves at the cursor.

A search stops at its find and does not consume it, so that a match can.  The two go by
different means.  A text is searched for by its bytes, and matched by counting its
characters and comparing then; but the bytes are an encoding, and a text that is ahead
is counted as it is read.  A character is searched for by reading on, and matched by
reading one; the find was read as well.  So the match succeeds, whatever the bytes
before the cursor or behind the find are.

What was passed on the way lies in the scanner that is returned.  None of it passes the
test, and it can be read to its end there, because a window that ends behind a character
does not change how the character is read.
-/
import Utf8Scan.Proofs.Ahead
import Utf8Scan.Proofs.FirstFind
import Utf8Scan.Proofs.Passing
import Utf8Scan.Proofs.TextSearch

namespace Utf8Scan

/-! ### What the search loop goes over -/

namespace CharTest

variable {test : CharTest} {c : Char}

theorem negate_negate (test : CharTest) : test.negate.negate = test := by
  funext c
  unfold negate
  cases test c <;> simp [Except.map]

theorem negate_eq_false_iff : test.negate c = .ok false ↔ test c = .ok true := by
  unfold negate
  cases test c <;> simp [Except.map]

theorem negate_eq_true_iff : test.negate c = .ok true ↔ test c = .ok false := by
  unfold negate
  cases test c <;> simp [Except.map]

end CharTest

namespace Scanner

variable {s t left : Scanner} {test : CharTest} {target : Target} {required : Bool}
  {o o' first last pos : Nat} {c : Char} {width : Width} {chars : List Char}

/-- The loop goes over the characters that pass the opposite test. -/
theorem seek_getD_eq_ok_iff (ho : o ≤ s.stop) :
    (s.seek test o).map (·.getD s.stop) = .ok o' ↔ ∃ chars, s.Passes test.negate o chars o' := by
  have hpass := seek_negate test.negate ho
  rw [CharTest.negate_negate] at hpass
  rw [hpass]
  constructor
  · exact exists_passes ho
  · intro h
    obtain ⟨chars, hchars⟩ := h
    exact hchars.pass_eq

theorem seek_eq_some_iff (ho : o ≤ s.stop) : s.seek test o = .ok (some o') ↔
    o' < s.stop ∧ ∃ chars, s.Passes test.negate o chars o' := by
  constructor
  · intro h
    obtain ⟨c, width, hdecode, _⟩ := seek_decodes h
    refine ⟨decodeAt_lt hdecode, (seek_getD_eq_ok_iff ho).mp ?_⟩
    rw [h]
    rfl
  · intro h
    obtain ⟨hlt, hchars⟩ := h
    obtain ⟨found?, hseek, hfound⟩ := Except.map_eq_ok_iff.mp ((seek_getD_eq_ok_iff ho).mpr hchars)
    cases found? with
    | none => exact absurd hfound.symm (Nat.ne_of_lt hlt)
    | some found =>
        obtain rfl : found = o' := hfound
        exact hseek

theorem seek_eq_none_iff (ho : o ≤ s.stop) : s.seek test o = .ok none ↔
    ∃ chars, s.Passes test.negate o chars s.stop := by
  rw [← seek_getD_eq_ok_iff ho]
  constructor
  · intro h
    rw [h]
    rfl
  · intro h
    obtain ⟨found?, hseek, hfound⟩ := Except.map_eq_ok_iff.mp h
    cases found? with
    | none => exact hseek
    | some found =>
        -- A find is not at the end of the window.
        obtain ⟨c, width, hdecode, _⟩ := seek_decodes hseek
        exact absurd hfound (Nat.ne_of_lt (decodeAt_lt hdecode))

/-- A character is read the same in a window that ends behind it. -/
theorem decodeAt_view (h : s.decodeAt o = .ok (c, width)) (hlast : o + width.bytes ≤ last) :
    (s.view first last).decodeAt o = .ok (c, width) := by
  obtain ⟨rfl, hchar⟩ := Buffer.decode_natCast_eq_ok_iff.mp h
  refine Buffer.decode_natCast_eq_ok_iff.mpr ⟨rfl, ?_⟩
  rw [Width.bytes_ofChar, ← String.length_utf8EncodeChar] at hlast
  rw [← Buffer.between_of_prefix hchar]
  exact ⟨_, Buffer.between_append (Nat.le_add_right _ _) hlast⟩

/-- What passes is all there is in the window that it fills. -/
theorem Passes.view (h : s.Passes test o chars o') (first : Nat) :
    (s.view first o').Passes test o chars o' := by
  induction h with
  | ended => exact .ended
  | @refused o c width _ _ => exact .ended (s := s.view first o)
  | passed h hc hrest ih => exact .passed (decodeAt_view h hrest.bounds.1) hc ih

/-! ### How a search ends -/

/-- A search ends at the find, or at the end of the window where one is not required. -/
theorem finish_eq_ok_iff {found? : Option Nat} : s.finish target required found? = .ok (t, pos) ↔
    t = s.view s.pos pos ∧ (found? = some pos ∨ found? = none ∧ required = false ∧ pos = s.stop) := by
  cases found? with
  | some found =>
      constructor
      · intro h
        cases h
        exact ⟨rfl, Or.inl rfl⟩
      · intro h
        obtain ⟨rfl, hfound | ⟨hnone, _⟩⟩ := h
        · cases hfound
          rfl
        · cases hnone
  | none =>
      cases required with
      | true => simp [finish]
      | false =>
          constructor
          · intro h
            cases h
            exact ⟨rfl, Or.inr ⟨rfl, rfl, rfl⟩⟩
          · intro h
            obtain ⟨rfl, hfound | ⟨_, _, rfl⟩⟩ := h
            · cases hfound
            · rfl

end Scanner

namespace Scan

open Scanner

variable {s t left : Scanner} {test : CharTest} {target : Target} {required : Bool}
  {needle : String}

/-- A search by test that returns has read what does not pass, up to what does or to the end. -/
theorem readUntil_eq_ok_iff (hs : s.pos ≤ s.stop) : readUntil test target required s = .ok t left ↔
    t = s.view s.pos left.pos ∧ left = { s with pos := left.pos } ∧
      (∃ chars, s.Passes test.negate s.pos chars left.pos) ∧
      (required = true → left.pos < s.stop) := by
  simp only [readUntil, step_eq_ok_iff, Except.bind_eq_ok_iff, finish_eq_ok_iff]
  constructor
  · intro h
    obtain ⟨pos, ⟨found?, hseek, rfl, rfl | ⟨rfl, rfl, rfl⟩⟩, rfl⟩ := h
    · obtain ⟨hlt, hpasses⟩ := (seek_eq_some_iff hs).mp hseek
      exact ⟨rfl, rfl, hpasses, fun _ => hlt⟩
    · exact ⟨rfl, rfl, (seek_eq_none_iff hs).mp hseek, by simp⟩
  · intro h
    obtain ⟨rfl, hleft, ⟨chars, hpasses⟩, hrequired⟩ := h
    rcases Nat.lt_or_eq_of_le hpasses.bounds.2 with hlt | hend
    · exact ⟨_, ⟨_, (seek_eq_some_iff hs).mpr ⟨hlt, chars, hpasses⟩, rfl, Or.inl rfl⟩, hleft⟩
    · rw [hend] at hpasses hrequired
      have hoptional : required = false := by simpa using hrequired
      have hseek := (seek_eq_none_iff hs).mpr ⟨chars, hpasses⟩
      exact ⟨_, ⟨none, hseek, rfl, Or.inr ⟨rfl, hoptional, hend⟩⟩, hleft⟩

theorem readUntilString_eq_ok_iff : readUntilString needle required s = .ok t left ↔
    needle ≠ "" ∧ t = s.view s.pos left.pos ∧ left = { s with pos := left.pos } ∧
      (s.find? needle = some left.pos ∨
        s.find? needle = none ∧ required = false ∧ left.pos = s.stop) := by
  by_cases hneedle : needle = ""
  · simp [readUntilString, step, hneedle]
  simp only [readUntilString, step_eq_ok_iff, if_neg hneedle, finish_eq_ok_iff]
  constructor
  · intro h
    obtain ⟨pos, ⟨rfl, hfound⟩, rfl⟩ := h
    exact ⟨hneedle, rfl, rfl, hfound⟩
  · intro h
    obtain ⟨_, rfl, hleft, hfound⟩ := h
    exact ⟨_, ⟨rfl, hfound⟩, hleft⟩

end Scan

/-! ### Searches and matches -/

namespace Scanner

variable {s t left : Scanner} {needle : String} {required : Bool} {o : Nat}

theorem encoded_ne_nil (hneedle : needle ≠ "") : Scan.encoded needle ≠ [] := by
  have htext := mt String.toList_eq_nil_iff.mp hneedle
  obtain ⟨c, chars, hchars⟩ := List.exists_cons_of_ne_nil htext
  rw [Scan.encoded_eq_spell, hchars]
  exact spell_cons_ne_nil c chars

/-- The bytes of the needle lie where the window goes on with them. -/
theorem lies_iff_between (hneedle : needle ≠ "") : s.Lies needle o ↔
    s.pos ≤ o ∧ Scan.encoded needle <+: s.buffer.between o s.stop := by
  constructor
  · intro h
    have hbetween := Buffer.holdsAt_iff_between.mp h.holdsAt
    refine ⟨h.pos_le, ?_⟩
    rw [← hbetween]
    exact ⟨_, Buffer.between_append (Nat.le_add_right _ _) h.le_stop⟩
  · intro h
    obtain ⟨hpos, hprefix⟩ := h
    refine ⟨hpos, ?_, Buffer.holdsAt_iff_between.mpr (Buffer.between_of_prefix hprefix)⟩
    have hlength := List.length_pos_of_ne_nil (encoded_ne_nil hneedle)
    have hle := hprefix.length_le
    have hroom := List.length_take_le (s.stop - o) (s.buffer.toList.drop o)
    rw [Buffer.between_eq] at hle
    omega

end Scanner

namespace Command

open Scan

/-- The commands that match a character, and the predicate they ask of it. -/
inductive Matches : Command → (Char → Bool) → Prop
  /-- No character equals a text of another length than one. -/
  | char (text : String) : Matches (.matchChar text) fun c => text = String.singleton c
  | set {chars : CharSource} {set : CharSet} (h : chars.resolve = .ok set) :
      Matches (.matchAny chars) fun c => chars.Has c

variable {s t left : Scanner} {m c : Command} {P : Char → Bool} {target : Target} {required : Bool}
  {char : Char}

/-- A character that satisfies the predicate is consumed. -/
theorem Matches.run_of_ahead (h : m.Matches P) (hahead : s.Ahead [char]) (hchar : P char = true) :
    m.run s = .ok (.bool true) (s.past [char]) := by
  have hdecode := Scanner.decodeAt_pos_eq_ok_iff.mpr ⟨rfl, hahead⟩
  have hmatch (test : CharTest) (htest : test char = .ok (P char)) :
      matchTest test s = .ok true (s.past [char]) := by
    rw [Scanner.past_singleton]
    simp [matchTest, step, hdecode, htest, hchar, Except.map]
  cases h with
  | char text => exact bind_of_ok (hmatch _ (CharTest.equals_eq text char))
  | set h =>
      have hmember := hmatch _ (CharTest.inSet_eq h char)
      exact (bind_congr (withChars_of_ok h _ s)).trans (bind_of_ok hmember)

/-- The searches are one loop, which stops where they do. -/
theorem Searches.exists_readUntil (h : c.Searches P target required)
    (hrun : c.run s = .ok (.scanner t) left) :
    ∃ test : CharTest, (∀ c, test c = .ok (P c)) ∧
      readUntil test target required s = .ok t left := by
  obtain ⟨test, htest, heq⟩ := h.run_eq s
  rw [heq] at hrun
  obtain ⟨_, hread, ⟨⟩⟩ := returning_eq_ok_iff.mp hrun
  exact ⟨test, htest, hread⟩

end Command

namespace Scanner

open Scan

variable {root s t left : Scanner} {b : Buffer} {maxSize : Int} {k : Classifier} {needle : String}
  {c : Command} {P : Char → Bool} {target : Target} {required : Bool}

/-- The first occurrence of a needle is at the cursor, where a match consumes it. -/
structure FindsText (s left : Scanner) (needle : String) : Prop where
  first : ∀ o, s.pos ≤ o → o < left.pos → ¬ encoded needle <+: s.buffer.between o s.stop
  consumed : (Command.matchString needle).run left = .ok (.bool true) (left.past needle.toList)

/-- The first character that satisfies a predicate is at the cursor, where a match consumes it, and
what was read up to there has none. -/
structure FindsChar (s t left : Scanner) (P : Char → Bool) (target : Target) : Prop where
  consumed : ∃ char, P char = true ∧
    ∀ m : Command, m.Matches P → m.run left = .ok (.bool true) (left.past [char])
  missing : ∀ c : Command, c.Searches P target true →
    ∃ x, c.run t = .error (.scan x) t ∧ x = .notFound target s.pos ∧ x.kind = .overflow

/-- What the search for a needle finds is consumed in one go. -/
theorem findsText_of_find? (hneedle : needle ≠ "")
    (hfind : s.find? needle = some left.pos) (hleft : left = { s with pos := left.pos }) :
    s.FindsText left needle := by
  obtain ⟨hlies, hleast⟩ := find?_eq_some_iff.mp hfind
  refine ⟨?_, ?_⟩
  · intro o hpos hlt hprefix
    have hle := hleast o ((lies_iff_between hneedle).mpr ⟨hpos, hprefix⟩)
    omega
  · obtain ⟨_, hprefix⟩ := (lies_iff_between hneedle).mp hlies
    have hahead : left.Ahead needle.toList := by
      rw [Ahead, ← encoded_eq_spell, hleft]
      exact hprefix
    exact bind_of_ok ((matchString_eq_true_iff hneedle).mpr ⟨hahead, rfl⟩)

/-- What the search for a character stops at is consumed, and what it has passed is not that. -/
theorem findsChar_of_passes {test : CharTest} {chars : List Char}
    (htest : ∀ c, test c = .ok (P c)) (hpasses : s.Passes test.negate s.pos chars left.pos)
    (hlt : left.pos < s.stop) (hleft : left = { s with pos := left.pos })
    (ht : t = s.view s.pos left.pos) : s.FindsChar t left P target where
  consumed := by
    obtain hend | ⟨char, width, hdecode, hstopped⟩ := hpasses.stopped
    · exact absurd hend (Nat.ne_of_lt hlt)
    have hchar : P char = true := by
      simpa [htest] using CharTest.negate_eq_false_iff.mp hstopped
    have hread : left.decodeAt left.pos = .ok (char, width) := by
      rw [hleft]
      exact hdecode
    obtain ⟨_, hahead⟩ := decodeAt_pos_eq_ok_iff.mp hread
    exact ⟨char, hchar, fun m hm => hm.run_of_ahead hahead hchar⟩
  missing := by
    intro c hc
    have hnone : t.seek test t.pos = .ok none := by
      rw [ht]
      exact (seek_eq_none_iff hpasses.bounds.1).mpr ⟨chars, hpasses.view s.pos⟩
    refine ⟨.notFound target t.pos, hc.run_of_error fun test' htest' => ?_, ?_, rfl⟩
    · obtain rfl : test' = test := funext fun char => (htest' char).trans (htest char).symm
      rw [hnone]
      rfl
    · rw [ht]
      rfl

/-- **In every reachable state, a match consumes what a search has found.**  A search that returns
has come to a find or, if none is required, to the end of the window.  A needle that was found
starts at no smaller offset, and a match for it succeeds at the cursor.  A character that was found
is consumed by every command that asks the same predicate, and every search for it fails in the
scanner that was returned.  The buffer may hold any bytes. -/
theorem Reachable.run_match_of_search (hroot : ofBuffer b maxSize k = .ok root)
    (h : root.Reachable s) :
    (∀ needle required t left,
      (Command.readUntilString needle required).run s = .ok (.scanner t) left →
        (required = true → left.pos < s.stop) ∧
        (left.pos < s.stop → s.FindsText left needle)) ∧
    ∀ (c : Command) P target required t left, c.Searches P target required →
      c.run s = .ok (.scanner t) left →
        (required = true → left.pos < s.stop) ∧
        (left.pos < s.stop → s.FindsChar t left P target) := by
  have hs := (h.inside (inside_of_ofBuffer hroot)).pos_le_stop
  refine ⟨?_, ?_⟩
  · intro needle required t left hrun
    obtain ⟨_, hread, ⟨⟩⟩ := returning_eq_ok_iff.mp hrun
    obtain ⟨hneedle, _, hleft, hfind | ⟨_, hrequired, hend⟩⟩ := readUntilString_eq_ok_iff.mp hread
    · refine ⟨fun _ => ?_, fun _ => findsText_of_find? hneedle hfind hleft⟩
      have hstop := (find?_eq_some_iff.mp hfind).1.le_stop
      have hlength := List.length_pos_of_ne_nil (encoded_ne_nil hneedle)
      omega
    · exact ⟨fun htrue => by simp [hrequired] at htrue, fun hlt => by omega⟩
  · intro c P target required t left hc hrun
    obtain ⟨test, htest, hread⟩ := hc.exists_readUntil hrun
    obtain ⟨ht, hleft, ⟨chars, hpasses⟩, hrequired⟩ := (readUntil_eq_ok_iff hs).mp hread
    exact ⟨hrequired, fun hlt => findsChar_of_passes htest hpasses hlt hleft ht⟩

/-- Malformed bytes lie between the two finds.  Behind them the search by bytes comes to the end of
the window, which the search by test cannot. -/
theorem Reachable.run_match_of_search_malformed :
    let root : Scanner := ⟨.ofList [0x61, 0x3B, 0xC3, 0x28, 0x3B], 0, 5, 0, .unicode⟩
    let semicolon : Char → Bool := fun c => ";" = String.singleton c
    let atText : Scanner := { root with pos := 3 }
    let atChar : Scanner := { root with pos := 1 }
    ofBuffer root.buffer 5 .unicode = .ok root ∧ root.Reachable root ∧
      (Command.readUntilString "(;" true).run root = .ok (.scanner (root.view 0 3)) atText ∧
      root.FindsText atText "(;" ∧
      (Command.readUntilChar ";" true).run root = .ok (.scanner (root.view 0 1)) atChar ∧
      (Command.readUntilChar ";" true).Searches semicolon (.text ";") true ∧
      (Command.matchChar ";").Matches semicolon ∧
      root.FindsChar (root.view 0 1) atChar semicolon (.text ";") := by
  intro root semicolon atText atChar
  have hroot : ofBuffer root.buffer 5 .unicode = .ok root := by cbv
  have htext : (Command.readUntilString "(;" true).run root
      = .ok (.scanner (root.view 0 3)) atText := by cbv
  have hchar : (Command.readUntilChar ";" true).run root
      = .ok (.scanner (root.view 0 1)) atChar := by cbv
  have hsearches : (Command.readUntilChar ";" true).Searches semicolon (.text ";") true :=
    .char ";" true
  obtain ⟨htexts, hchars⟩ := Reachable.run_match_of_search hroot .root
  exact ⟨hroot, .root, htext, (htexts _ _ _ _ htext).2 (by decide), hchar, hsearches, .char ";",
    (hchars _ _ _ _ _ _ hsearches hchar).2 (by decide)⟩

end Scanner

end Utf8Scan
