/-
Every error of scanning can be located.

The place of an error is kept apart from the message, which shows it as well, and from
the span, which is made when the error is explained.  They agree because the operations
only ever raise errors that lie in their own window: then the message shows the place,
the place lies in the buffer, and the explanation adds the span of that place and
changes nothing else.  Errors about an empty target have no place, and are explained as
they are.
-/
import Utf8Scan.Proofs.Reachable
import Utf8Scan.Proofs.TextPlace

namespace Utf8Scan

/-- The code that goes with a family of errors; a general error may have any. -/
def ErrorKind.code? : ErrorKind → Option Code
  | general => none
  | overflow => some .overflow
  | unexpected => some .unexpected
  | emptyInput => some .emptyInput
  | invalidCharacter => some .invalidCharacter

/-! ### Messages -/

/-- A message tells a byte offset, and its number ends where the offset does. -/
def NamesByte (message : String) (offset : Int) : Prop :=
  ∃ lead tail : String, message = lead ++ "byte " ++ toString offset ++ tail ∧
    ∀ c ∈ tail.toList.head?, c.isDigit = false

theorem namesByte_last (lead word : String) (offset : Int) :
    NamesByte (lead ++ (word ++ "byte ") ++ toString offset) offset := by
  refine ⟨lead ++ word, "", ?_, nofun⟩
  simp only [String.append_empty, String.append_assoc]

/-- What follows the number in a message starts with a punctuation mark. -/
theorem namesByte_before (lead word mark tail : String) (offset : Int)
    (hmark : mark.toList.head?.any (fun c => !c.isDigit) = true) :
    NamesByte (lead ++ (word ++ "byte ") ++ toString offset ++ mark ++ tail) offset := by
  refine ⟨lead ++ word, mark ++ tail, ?_, ?_⟩
  · simp only [String.append_assoc]
  · intro c hc
    cases hlist : mark.toList with
    | nil => simp [hlist] at hmark
    | cons d rest =>
        rw [String.toList_append, hlist] at hc
        obtain rfl : d = c := Option.some.inj hc
        simpa [hlist] using hmark

namespace Scanner

variable {s : Scanner} {x : ScanError}

/-- The message of an error shows its place, if it has one. -/
theorem Locates.namesByte (h : s.Locates x) (hkind : x.kind ≠ .emptyInput) :
    NamesByte x.message x.position := by
  cases x with
  | overflow offset => exact namesByte_last "Unexpected end of input " "at " offset
  | underflow offset => exact namesByte_last "Cannot retreat past start of range " "at " offset
  | notFound target offset =>
      exact namesByte_last ("Reached end of input searching for " ++ target.describe) " from "
        offset
  | truncated offset width =>
      exact namesByte_last ("Truncated " ++ toString width.bytes) "-byte UTF-8 sequence at " offset
  | malformed offset reason =>
      exact namesByte_before "Invalid UTF-8 " "at " ": " reason.text offset (by decide)
  | unexpected expected found offset =>
      exact namesByte_before ("Expected " ++ Text.quoted expected) " at " ", found "
        (Text.quoted found) offset (by decide)
  | emptyTarget operation => exact absurd rfl hkind
  | custom kind content position => exact h.elim

/-! ### Explanations -/

theorem Locates.diagnostic (h : s.Locates x) :
    ∃ d, x.diagnostic? = some d ∧ x.kind.code? = some d.code ∧ x.message = d.message := by
  cases x with
  | overflow offset => exact ⟨_, rfl, rfl, rfl⟩
  | underflow offset => exact ⟨_, rfl, rfl, rfl⟩
  | notFound target offset => exact ⟨_, rfl, rfl, rfl⟩
  | truncated offset width => exact ⟨_, rfl, rfl, rfl⟩
  | malformed offset reason => exact ⟨_, rfl, rfl, rfl⟩
  | unexpected expected found offset => exact ⟨_, rfl, rfl, rfl⟩
  | emptyTarget operation => exact ⟨_, rfl, rfl, rfl⟩
  | custom kind content position => exact h.elim

theorem Locates.position (h : s.Locates x) (hkind : x.kind ≠ .emptyInput) :
    s.start ≤ x.position ∧ x.position ≤ s.stop := by
  cases x with
  | emptyTarget operation => exact absurd rfl hkind
  | custom kind content position => exact h.elim
  | overflow | underflow | notFound | truncated | malformed | unexpected => exact h

theorem Locates.position_emptyInput (h : s.Locates x) (hkind : x.kind = .emptyInput) :
    x.position = -1 := by
  cases x with
  | emptyTarget operation => rfl
  | custom kind content position => exact h.elim
  | overflow | underflow | notFound | truncated | malformed | unexpected => cases hkind

/-- An error with a place in the window, which its message and its explanation show.  The
explanation is the diagnostic with a span at that place, whose numbers a span may have. -/
structure Placed (s : Scanner) (x : ScanError) (d : Diagnostic) : Prop where
  start_le : s.start ≤ x.position
  le_stop : x.position ≤ s.stop
  message : NamesByte x.message x.position
  diagnose : ∃ span : Span, s.diagnose x = some { d with span := some span } ∧
    span.start = x.position ∧ span.stop = x.position ∧
    s.lineColumn (some x.position) = .ok (span.line, span.column) ∧
    Span.ofInts x.position x.position span.line span.column = .ok span

/-- An error that is about no place, and is explained as it is. -/
structure Placeless (s : Scanner) (x : ScanError) (d : Diagnostic) : Prop where
  position : x.position = -1
  diagnose : s.diagnose x = some d

theorem Locates.placeless {d : Diagnostic} (h : s.Locates x) (hd : x.diagnostic? = some d)
    (hkind : x.kind = .emptyInput) : s.Placeless x d := by
  have hposition := h.position_emptyInput hkind
  refine ⟨hposition, ?_⟩
  rw [Scanner.diagnose, hd, Option.map_some, if_neg (by omega)]

theorem Locates.placed {d : Diagnostic} (hs : s.Inside) (h : s.Locates x)
    (hd : x.diagnostic? = some d) (hkind : x.kind ≠ .emptyInput) : s.Placed x d := by
  obtain ⟨hstart, hstop⟩ := h.position hkind
  have hsize := hs.stop_le_size
  obtain ⟨o, ho⟩ : ∃ o : Nat, x.position = o := Int.eq_ofNat_of_zero_le (by omega)
  refine ⟨hstart, hstop, h.namesByte hkind, s.buffer.span o o, ?_, ?_⟩
  · rw [Scanner.diagnose, hd, Option.map_some, if_pos ⟨by omega, by omega⟩, ho, Int.toNat_natCast]
  have hle : o ≤ s.buffer.size := by omega
  obtain ⟨hfirst, _, _, hline, hcolumn⟩ := s.buffer.span_spec hle o
  have hlast := Buffer.span_stop_self hle
  have hspan := Span.ofInts_self (s.buffer.span o o)
  rw [hfirst, hlast] at hspan
  rw [ho]
  refine ⟨by rw [hfirst], by rw [hlast], ?_, hspan⟩
  have hplaces := (Buffer.places_of_le hle).lineColumnOf
  rw [← hline, ← hcolumn] at hplaces
  show (s.buffer.lineColumnOf o).mapError .argument = _
  rw [hplaces]
  rfl

end Scanner

/-! ### Errors of commands -/

/-- What a caller's set of characters can be refused for is no matter of scanning. -/
theorem CharSource.resolve_eq_error {source : CharSource} {e : Error}
    (h : source.resolve = .error e) : ∃ a, e = .argument a := by
  cases source with
  | characters text => cases h
  | items list => cases h
  | singles list =>
      obtain ⟨a, _, rfl⟩ := Except.mapError_eq_error_iff.mp h
      exact ⟨a, rfl⟩

theorem Command.Raises.locates {s : Scanner} {c : Command} {x : ScanError}
    (h : c.Raises s (.scan x)) (hk : s.classifier.Total) (hc : ∀ test ∈ c.test?, test.Total) :
    s.Locates x := by
  cases h with
  | scan h => exact h
  | chars _ h =>
      obtain ⟨a, ha⟩ := CharSource.resolve_eq_error h
      cases ha
  | test htest h => exact absurd h (hc _ htest _ _)
  | classifier _ h => exact absurd h (hk _ _ _)

namespace Scanner

variable {root s left : Scanner} {b : Buffer} {maxSize : Int} {k : Classifier} {c : Command}
  {x : ScanError}

/-- **Every error of scanning can be located.**  In every reachable state and for every command
with tests that answer, an error of scanning carries the diagnostic of its family.  If the error is
about an empty target, it has no place and is explained by that diagnostic.  Any other lies in the
window of the scanner that raised it, and its message and its explanation say where. -/
theorem Reachable.run_error_placed (hroot : ofBuffer b maxSize k = .ok root) (hk : k.Total)
    (h : root.Reachable s) (hc : ∀ test ∈ c.test?, test.Total)
    (hrun : c.run s = .error (.scan x) left) :
    left = s ∧
      ∃ d, (x.diagnostic? = some d ∧ x.kind.code? = some d.code ∧ x.message = d.message) ∧
        (x.kind = .emptyInput → s.Placeless x d) ∧ (x.kind ≠ .emptyInput → s.Placed x d) := by
  have hinside := inside_of_ofBuffer hroot
  obtain ⟨hs, hwithin⟩ := h.within hinside
  obtain ⟨rfl, hraises⟩ := run_error hs hrun
  have hclassifier : left.classifier.Total := by
    obtain ⟨_, rfl⟩ := ofBuffer_eq_ok_iff.mp hroot
    rw [hwithin.classifier]
    exact hk
  have hlocates := hraises.locates hclassifier hc
  obtain ⟨d, hd, hcode, hmessage⟩ := hlocates.diagnostic
  refine ⟨rfl, d, ⟨hd, hcode, hmessage⟩, ?_, ?_⟩
  · exact hlocates.placeless hd
  · exact hlocates.placed hs hd

/-- A sequence that the window cuts off, on the second line of the buffer. -/
theorem Reachable.run_error_placed_truncated :
    let root : Scanner := ⟨.ofList [0x0A, 0x61, 0xE2, 0x82], 0, 4, 0, .unicode⟩
    let c : Command := .readUntilChar "x" true
    let x : ScanError := .truncated 2 .three
    ofBuffer root.buffer 4 .unicode = .ok root ∧ Classifier.unicode.Total ∧
      root.Reachable root ∧ (∀ test ∈ c.test?, test.Total) ∧
      c.run root = .error (.scan x) root ∧
      ∃ d, x.diagnostic? = some d ∧ root.Placed x d := by
  intro root c x
  have hroot : ofBuffer root.buffer 4 .unicode = .ok root := by cbv
  have hc : ∀ test ∈ c.test?, test.Total := by
    intro test htest
    cases htest
  have hkind : x.kind ≠ .emptyInput := by
    intro hkind
    cases hkind
  have hrun : (Command.readUntilChar "x" true).run root
      = .error (.scan (.truncated 2 .three)) root := by cbv
  obtain ⟨_, d, hd, _, hplaced⟩ :=
    Reachable.run_error_placed hroot Classifier.unicode_total .root hc hrun
  exact ⟨hroot, Classifier.unicode_total, .root, hc, hrun, d, hd.1, hplaced hkind⟩

end Scanner

end Utf8Scan
