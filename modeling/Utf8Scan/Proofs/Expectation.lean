/-
Expectations and what they report.

To expect a text is to compare with it and, where the answer is no, to go over as many
characters again and show what they are.  The second pass starts where the first did,
so it comes as far, and reads what lies there as a whole.  That can fail: what was
counted need not be a text.  Then nothing is there to show, and the error is the one
that reading as many characters would raise.

What is shown is never the expected text.  It has as many characters, and if they were
the same, its encoding would have been ahead and the answer yes.
-/
import Utf8Scan.Proofs.Ahead

namespace Utf8Scan

namespace Scan

open Scanner

variable {s left : Scanner} {text : String} {n o first last : Nat} {e : Error}

/-! ### The answer of the comparison -/

theorem expectString_of_true (h : matchString text s = .ok true left) :
    expectString text s = .ok () left := by
  unfold expectString
  rw [bind_of_ok h]
  rfl

theorem expectString_of_error (h : matchString text s = .error e left) :
    expectString text s = .error e left := bind_of_error h

/-- The answer is no only where as many characters can be counted and the text is not ahead. -/
theorem matchString_eq_false (h : matchString text s = .ok false left) :
    left = s ∧ (∃ o, s.skip text.length s.pos = .ok o) ∧ ¬ s.Ahead text.toList := by
  have htext : text ≠ "" := by
    intro hempty
    simp [matchString, step, hempty] at h
  rcases matchString_cases (s := s) htext with ⟨_, hrun⟩ | ⟨hahead, ⟨hskip, hrun⟩ | ⟨e, _, hrun⟩⟩
  · simp [hrun] at h
  · simp only [hrun, EStateM.Result.ok.injEq, true_and] at h
    exact ⟨h.symm, hskip, hahead⟩
  · simp [hrun] at h

/-! ### What is there -/

/-- Bytes that are no text are refused as malformed. -/
theorem textBetween_eq_error (h : s.textBetween first last = .error e) :
    ∃ o reason, e = .scan (.malformed o reason) := by
  obtain ⟨⟨o, reason⟩, _, rfl⟩ := Except.mapError_eq_error_iff.mp h
  exact ⟨o, reason, rfl⟩

/-- The second pass of an expectation is the reading of as many characters. -/
theorem expectString_of_false (h : matchString text s = .ok false s) :
    (∃ found after, readCount text.length s = .ok found after ∧
        expectString text s = .error (.scan (.unexpected text found s.pos)) s) ∨
      ∃ o reason, readCount text.length s = .error (.scan (.malformed o reason)) s ∧
        expectString text s = .error (.scan (.malformed o reason)) s := by
  obtain ⟨_, ⟨o, hskip⟩, _⟩ := matchString_eq_false h
  have hcount : checkedCount text.length = .ok text.length := checkedCount_natCast text.length
  unfold expectString
  rw [bind_of_ok h]
  cases htext : s.textBetween s.pos o with
  | ok found =>
      refine Or.inl ⟨found, { s with pos := o }, ?_, ?_⟩
      · simp only [readCount, step, hcount, bind, Except.bind, hskip, htext, pure, Except.pure]
      · have hquery : query (fun s => (s.skip text.length s.pos).bind (s.textBetween s.pos)) s
            = .ok found s := by simp only [query, hskip, Except.bind, htext]
        exact (get_bind _ s).trans (bind_of_ok hquery)
  | error e =>
      obtain ⟨o', reason, rfl⟩ := textBetween_eq_error htext
      refine Or.inr ⟨o', reason, ?_, ?_⟩
      · simp only [readCount, step, hcount, bind, Except.bind, hskip, htext]
      · have hquery : query (fun s => (s.skip text.length s.pos).bind (s.textBetween s.pos)) s
            = .error (.scan (.malformed o' reason)) s := by
          simp only [query, hskip, Except.bind, htext]
        exact (get_bind _ s).trans (bind_of_error hquery)

/-- As many characters that are read where the answer is no are others. -/
theorem ne_of_matchString_eq_false {found : String} (hs : s.Inside)
    (h : matchString text s = .ok false s) (hread : readCount text.length s = .ok found left) :
    found ≠ text ∧ found.length = text.length := by
  obtain ⟨_, _, hahead⟩ := matchString_eq_false h
  obtain ⟨hlength, hfound, _⟩ := (readCount_eq_ok_iff hs).mp hread
  refine ⟨?_, by rw [← String.length_toList]; exact hlength⟩
  intro heq
  rw [heq] at hfound
  exact hahead hfound

end Scan

namespace Scanner

open Scan

variable {root s left : Scanner} {b : Buffer} {maxSize : Int} {k : Classifier} {text : String}

/-- The error at the cursor that shows what was expected and what is there instead. -/
structure Shows (s : Scanner) (x : ScanError) (expected found : String) : Prop where
  kind : x.kind = .unexpected
  position : x.position = s.pos
  diagnostic : ∃ d, x.diagnostic? = some d ∧ d.code = .unexpected ∧
    d.expected = Text.quoted expected ∧ d.found = Text.quoted found

theorem shows_unexpected (s : Scanner) (expected found : String) :
    s.Shows (.unexpected expected found s.pos) expected found :=
  ⟨rfl, rfl, _, rfl, rfl, rfl, rfl⟩

/-- How an expectation ends where the comparison says no.  Nothing moves, and the error is decided
by what comes of reading as many characters. -/
inductive EndsRefused (s : Scanner) (text : String) : EStateM.Result Error Scanner Unit → Prop
  /-- They are others, and the error shows them. -/
  | shown {found : String} {after : Scanner} {x : ScanError}
      (hread : readCount text.length s = .ok found after) (hother : found ≠ text)
      (hlength : found.length = text.length) (hx : s.Shows x text found) :
      EndsRefused s text (.error (.scan x) s)
  /-- They are not well formed, and the error is that of the reading. -/
  | unreadable {x : ScanError} (hread : readCount text.length s = .error (.scan x) s)
      (hx : x.kind = .invalidCharacter) : EndsRefused s text (.error (.scan x) s)

theorem endsRefused_of_matchString (hs : s.Inside) (h : matchString text s = .ok false s) :
    s.EndsRefused text (expectString text s) := by
  rcases expectString_of_false h with ⟨found, after, hread, hrun⟩ | ⟨o, reason, hread, hrun⟩
  · obtain ⟨hother, hlength⟩ := ne_of_matchString_eq_false hs h hread
    rw [hrun]
    exact .shown hread hother hlength (s.shows_unexpected text found)
  · rw [hrun]
    exact .unreadable hread rfl

theorem EndsRefused.ne_ok (h : s.EndsRefused text (expectString text s)) :
    expectString text s ≠ .ok () left := by
  intro hrun
  rw [hrun] at h
  cases h

/-- **In every reachable state, expecting a text is comparing with it, and where the answer is no,
the error shows what is there.**  It succeeds where the comparison says yes and fails where that
fails, in the same way.  Otherwise nothing moves, and as many characters can be read from the cursor
or not.  If they can, they are not the text and the error shows them; if not, the bytes are not well
formed and the error is that of the reading.  The buffer may hold any bytes. -/
theorem Reachable.expectString_iff_matchString (hroot : ofBuffer b maxSize k = .ok root)
    (h : root.Reachable s) (text : String) :
    (∀ left, expectString text s = .ok () left ↔ matchString text s = .ok true left) ∧
    (∀ e left, matchString text s = .error e left → expectString text s = .error e left) ∧
    ∀ left, matchString text s = .ok false left →
      left = s ∧ s.EndsRefused text (expectString text s) := by
  have hs := h.inside (inside_of_ofBuffer hroot)
  have hno (left : Scanner) (hmatch : matchString text s = .ok false left) :
      left = s ∧ s.EndsRefused text (expectString text s) := by
    obtain ⟨rfl, _⟩ := matchString_eq_false hmatch
    exact ⟨rfl, endsRefused_of_matchString hs hmatch⟩
  refine ⟨fun left => ⟨?_, expectString_of_true⟩, fun e left => expectString_of_error, hno⟩
  intro hrun
  cases hmatch : matchString text s with
  | error e left' => simp [expectString_of_error hmatch] at hrun
  | ok answer left' =>
      cases answer with
      | true =>
          simp only [expectString_of_true hmatch, EStateM.Result.ok.injEq, true_and] at hrun
          rw [hrun]
      | false => exact absurd hrun (hno left' hmatch).2.ne_ok

/-- A surrogate, which is counted and compared but not read, lies behind two characters. -/
theorem Reachable.expectString_iff_matchString_surrogate :
    let root : Scanner := ⟨.ofList [0x61, 0x62, 0xED, 0xA0, 0x80], 0, 5, 0, .unicode⟩
    ofBuffer root.buffer 5 .unicode = .ok root ∧ root.Reachable root ∧
      expectString "ab" root = .ok () { root with pos := 2 } ∧
      root.EndsRefused "ac" (expectString "ac" root) ∧
      (∃ after, readCount 2 root = .ok "ab" after) ∧
      root.EndsRefused "abc" (expectString "abc" root) ∧
      readCount 3 root = .error (.scan (.malformed 2 .invalidContinuation)) root := by
  intro root
  have hroot : ofBuffer root.buffer 5 .unicode = .ok root := by cbv
  have hyes : matchString "ab" root = .ok true { root with pos := 2 } := by cbv
  have hno : matchString "ac" root = .ok false root := by cbv
  have hmalformed : matchString "abc" root = .ok false root := by cbv
  refine ⟨hroot, .root, ?_, ?_, ⟨_, by cbv⟩, ?_, by cbv⟩
  · exact ((Reachable.expectString_iff_matchString hroot .root "ab").1 _).mpr hyes
  · exact ((Reachable.expectString_iff_matchString hroot .root "ac").2.2 _ hno).2
  · exact ((Reachable.expectString_iff_matchString hroot .root "abc").2.2 _ hmalformed).2

end Scanner

end Utf8Scan
