/-
What one command can do to a scanner.

`run_outcome` is what is known of every operation, said once for all commands.  A
command that returns has moved the cursor to a place that the scanner `Visits`, and
not at all if its answer is no; a scanner that it returns is a view of the old one.
A command that raises an error has changed nothing.

The errors are of four kinds: errors of scanning, placed in the window; an argument
that the command refuses, whatever the text is; a set of characters that is none; and
what a test or the classifier raises when it is asked about a character.  The last two
cannot happen to a caller who hands over nothing that fails by itself.  A byte outside
the buffer is not among them, because no operation asks for one.
-/
import Utf8Scan.Proofs.Operation
import Utf8Scan.Session.Command

namespace Utf8Scan

/-! ### What a caller hands over -/

/-- A classifier that answers every question about a single character. -/
def Classifier.Total (k : Classifier) : Prop := ∀ property, CharTest.Total (k.test property)

/-- The character database has an answer for every character. -/
theorem Classifier.unicode_total : Classifier.unicode.Total := by
  intro property c e
  simp [test, unicode]

namespace Command

/-- The test that a command is given. -/
def test? : Command → Option CharTest
  | readUntilTest test _ | readWhileTest test => some test
  | _ => none

/-- What a command asks the classifier about. -/
def property? : Command → Option Property
  | skipWhitespace => some .whitespace
  | readLine _ => some .newline
  | _ => none

/-- The set of characters that a command is given. -/
def chars? : Command → Option CharSource
  | matchAny chars | readUntilSet chars _ | readWhileSet chars => some chars
  | _ => none

/-- What is handed over with a command raises no error of its own. -/
structure Total (c : Command) : Prop where
  test : ∀ test ∈ c.test?, test.Total
  chars : ∀ source ∈ c.chars?, ∃ set, source.resolve = .ok set

theorem total_of_none {c : Command} (htest : c.test? = none) (hchars : c.chars? = none) :
    c.Total where
  test := by
    rw [htest]
    nofun
  chars := by
    rw [hchars]
    nofun

/-! ### Errors -/

/-- The arguments that a command refuses, with the errors that say so. -/
inductive Refuses : Command → ArgumentError → Prop
  | advance {count : Int} (h : count < 0) : Refuses (.advance count) (.negativeCount count)
  | retreat {count : Int} (h : count < 0) : Refuses (.retreat count) (.negativeRetreat count)
  | readCount {count : Int} (h : count < 0) : Refuses (.readCount count) (.negativeCount count)
  | restore (mark : Int) (start stop : Nat) :
      Refuses (.restore mark) (.unusableMark mark start stop)
  | outsideWindow (first last : Int) (start stop : Nat) :
      Refuses (.subScanner first last) (.outsideWindow first last start stop)
  | startInsideCharacter (first last : Int) :
      Refuses (.subScanner first last) (.startInsideCharacter first)
  | stopInsideCharacter (first last : Int) :
      Refuses (.subScanner first last) (.stopInsideCharacter last)
  | lineColumn {position : Int} (h : position < 0) :
      Refuses (.lineColumn (some position)) (.negativePosition position)

/-- The errors that a command can raise. -/
inductive Raises (s : Scanner) (c : Command) : Error → Prop
  | scan {x : ScanError} (h : s.Locates x) : Raises s c (.scan x)
  | refused {a : ArgumentError} (h : c.Refuses a) : Raises s c (.argument a)
  | chars {source : CharSource} {e : Error} (hsource : source ∈ c.chars?)
      (h : source.resolve = .error e) : Raises s c e
  | test {test : CharTest} {char : Char} {e : Error} (htest : test ∈ c.test?)
      (h : test char = .error e) : Raises s c e
  | classifier {property : Property} {char : Char} {e : Error} (hproperty : property ∈ c.property?)
      (h : s.classifier.test property char = .error e) : Raises s c e

/-- The errors that a caller has to expect who hands over nothing that fails by itself. -/
def Documents (c : Command) (e : Error) : Prop :=
  (∃ x, e = .scan x) ∨ ∃ a, e = .argument a ∧ c.Refuses a

theorem Raises.documents {s : Scanner} {c : Command} {e : Error} (h : c.Raises s e)
    (hk : s.classifier.Total) (hc : c.Total) : c.Documents e := by
  cases h with
  | scan h => exact Or.inl ⟨_, rfl⟩
  | refused h => exact Or.inr ⟨_, rfl, h⟩
  | chars hsource h =>
      obtain ⟨set, hset⟩ := hc.chars _ hsource
      rw [hset] at h
      cases h
  | test htest h => exact absurd h (hc.test _ htest _ _)
  | classifier _ h => exact absurd h (hk _ _ _)

end Command

/-! ### Values -/

namespace Scanner

/-- What a command that returns has done. -/
structure Effect (s : Scanner) (value : Value) (pos : Nat) : Prop where
  visits : s.Visits pos
  /-- The answer no leaves the cursor where it is. -/
  stays : value = .bool false → pos = s.pos
  isView : ∀ t, value = .scanner t → s.IsView t

/-- A value that is neither an answer nor a scanner says nothing but where the cursor is. -/
theorem Effect.of_visits {s : Scanner} {value : Value} {pos : Nat} (h : s.Visits pos)
    (hbool : value ≠ .bool false) (hscanner : ∀ t, value ≠ .scanner t) : s.Effect value pos :=
  ⟨h, fun hv => absurd hv hbool, fun t ht => absurd ht (hscanner t)⟩

theorem Effect.of_answer {s : Scanner} {answer : Bool} {pos : Nat} (h : s.Visits pos)
    (hstays : answer = false → pos = s.pos) : s.Effect (.bool answer) pos :=
  ⟨h, fun hv => hstays (Value.bool.inj hv), nofun⟩

theorem Effect.of_view {s t : Scanner} {pos : Nat} (h : s.Visits pos) (ht : s.IsView t) :
    s.Effect (.scanner t) pos := by
  refine ⟨h, nofun, ?_⟩
  intro t' ht'
  cases ht'
  exact ht

end Scanner

namespace Command

open Scan

variable {s : Scanner} {c : Command}

theorem raises_of_fails {e : Error} (h : s.Fails e) : c.Raises s e := by
  obtain ⟨x, rfl, hx⟩ := h
  exact .scan hx

theorem raises_of_test {test : CharTest} (htest : test ∈ c.test?) {e : Error}
    (h : e.FromScan s test) : c.Raises s e := by
  rcases h with h | ⟨char, h⟩
  · exact raises_of_fails h
  · exact .test htest h

theorem raises_of_classifier {property : Property} (hproperty : property ∈ c.property?) {e : Error}
    (h : e.FromScan s (s.classifier.test property)) : c.Raises s e := by
  rcases h with h | ⟨char, h⟩
  · exact raises_of_fails h
  · exact .classifier hproperty h

theorem raises_of_refused {E : Prop} {a : ArgumentError} (ha : E → c.Refuses a) {e : Error}
    (h : s.Fails e ∨ E ∧ e = .argument a) : c.Raises s e := by
  rcases h with h | ⟨hE, rfl⟩
  · exact raises_of_fails h
  · exact .refused (ha hE)

/-! ### Commands by what they return -/

variable {α : Type} {E : Error → Prop}

/-- A question moves no cursor and returns no scanner. -/
theorem question_outcome {f : Scanner → Except Error α} {value : α → Value}
    (hvalue : ∀ a t, value a ≠ .scanner t)
    (herror : ∀ e, f s = .error e → c.Raises s e) :
    Outcome (query fun s => (f s).map value) s s.Effect (c.Raises s) := by
  refine .query ?_ fun e h => herror e (Except.map_eq_error_iff.mp h)
  intro v h
  obtain ⟨a, _, rfl⟩ := Except.map_eq_ok_iff.mp h
  exact ⟨.cursor, fun _ => rfl, fun t ht => absurd ht (hvalue a t)⟩

/-- A question that has an answer in every state. -/
theorem reading_outcome {value : Scanner → Value} (hvalue : ∀ t, value s ≠ .scanner t) :
    Outcome (query fun s => .ok (value s)) s s.Effect (c.Raises s) := by
  refine .query ?_ ?_
  · intro v h
    cases h
    exact ⟨.cursor, fun _ => rfl, fun t ht => absurd ht (hvalue t)⟩
  · intro e h
    cases h

theorem move_outcome {program : Scan α} {value : α → Value}
    (h : Outcome program s (fun _ pos => s.Visits pos) E) (hbool : ∀ a, value a ≠ .bool false)
    (hscanner : ∀ a t, value a ≠ .scanner t) (hE : ∀ e, E e → c.Raises s e) :
    Outcome (do return value (← program)) s s.Effect (c.Raises s) := by
  refine .map (h.mono ?_ hE)
  intro a pos hvisits
  exact .of_visits hvisits (hbool a) (hscanner a)

theorem answer_outcome {program : Scan Bool}
    (h : Outcome program s (fun answer pos => s.Visits pos ∧ (answer = false → pos = s.pos)) E)
    (hE : ∀ e, E e → c.Raises s e) :
    Outcome (do return .bool (← program)) s s.Effect (c.Raises s) := by
  refine .map (h.mono ?_ hE)
  intro answer pos hanswer
  exact .of_answer hanswer.1 hanswer.2

theorem view_outcome {program : Scan Scanner}
    (h : Outcome program s (fun t pos => s.Visits pos ∧ s.IsView t) E)
    (hE : ∀ e, E e → c.Raises s e) :
    Outcome (do return .scanner (← program)) s s.Effect (c.Raises s) := by
  refine .map (h.mono ?_ hE)
  intro t pos hview
  exact .of_view hview.1 hview.2

theorem withChars_of_ok {chars : CharSource} {set : CharSet} (h : chars.resolve = .ok set)
    (operation : CharSet → Scan α) (s : Scanner) :
    withChars chars operation s = operation set s := by
  have hrun : query (fun _ => chars.resolve) s = .ok set s := by simp only [query, h]
  exact bind_of_ok hrun

/-- With a set of characters to be made first, there is one more way to fail. -/
theorem withChars_outcome {chars : CharSource} {operation : CharSet → Scan α}
    {V : α → Nat → Prop} (h : ∀ set, Outcome (operation set) s V E) :
    Outcome (withChars chars operation) s V (fun e => E e ∨ chars.resolve = .error e) := by
  cases hset : chars.resolve with
  | error e =>
      have hrun : query (fun _ => chars.resolve) s = .error e s := by simp only [query, hset]
      exact .raises (bind_of_error hrun) (Or.inr rfl)
  | ok set =>
      have hrun := withChars_of_ok hset operation s
      cases h set with
      | returns run value => exact .returns (hrun.trans run) value
      | raises run error => exact .raises (hrun.trans run) (Or.inl error)

theorem raises_of_chars {source : CharSource} (hsource : source ∈ c.chars?)
    (hE : ∀ e, E e → c.Raises s e) {e : Error} (h : E e ∨ source.resolve = .error e) :
    c.Raises s e := by
  rcases h with h | h
  · exact hE e h
  · exact .chars hsource h

/-! ### The arguments of single commands -/

theorem subScanner_eq_ok_iff {t : Scanner} {first last : Int} :
    s.subScanner first last = .ok t ↔
      (s.start ≤ first ∧ first ≤ last ∧ last ≤ s.stop) ∧ s.buffer.isBoundary first = true ∧
        s.buffer.isBoundary last = true ∧ t = s.view first.toNat last.toNat := by
  unfold Scanner.subScanner
  by_cases hrange : (s.start : Int) ≤ first ∧ first ≤ last ∧ last ≤ s.stop
  · rw [if_neg (not_not_intro hrange)]
    cases hfirst : s.buffer.isBoundary first with
    | false => simp
    | true =>
        cases hlast : s.buffer.isBoundary last with
        | false => simp
        | true => simp [hrange, eq_comm]
  · simp [hrange]

/-- A window that is cut out has its ends at boundaries. -/
theorem subScanner_eq_ok {t : Scanner} {first last : Int} (h : s.subScanner first last = .ok t) :
    s.IsView t := by
  obtain ⟨hrange, hfirst, hlast, rfl⟩ := subScanner_eq_ok_iff.mp h
  have hcast : ((first.toNat : Nat) : Int) = first := Int.toNat_of_nonneg (by omega)
  have hcast' : ((last.toNat : Nat) : Int) = last := Int.toNat_of_nonneg (by omega)
  refine ⟨first.toNat, last.toNat, rfl, ?_, ?_, by omega⟩
  · exact .boundary (by omega) (by omega) (by rw [hcast]; exact hfirst)
  · exact .boundary (by omega) (by omega) (by rw [hcast']; exact hlast)

theorem subScanner_eq_error {e : Error} {first last : Int}
    (h : s.subScanner first last = .error e) : ∃ a, e = .argument a ∧
      (subScanner first last).Refuses a := by
  unfold Scanner.subScanner at h
  split at h
  · cases h
    exact ⟨_, rfl, .outsideWindow first last s.start s.stop⟩
  · split at h
    · cases h
      exact ⟨_, rfl, .startInsideCharacter first last⟩
    · split at h
      · cases h
        exact ⟨_, rfl, .stopInsideCharacter first last⟩
      · cases h

theorem lineColumn_eq_error {e : Error} {position? : Option Int}
    (h : s.lineColumn position? = .error e) : ∃ a, e = .argument a ∧
      (lineColumn position?).Refuses a := by
  obtain ⟨a, ha, rfl⟩ := Except.mapError_eq_error_iff.mp h
  have ha : Buffer.natOffset (position?.getD s.pos) = .error a := Except.map_eq_error_iff.mp ha
  unfold Buffer.natOffset at ha
  by_cases hneg : position?.getD s.pos < 0
  · rw [if_pos hneg] at ha
    cases ha
    cases position? with
    | none => exact absurd hneg (Int.not_lt.mpr (Int.natCast_nonneg s.pos))
    | some position => exact ⟨_, rfl, .lineColumn hneg⟩
  · rw [if_neg hneg] at ha
    cases ha

/-! ### All commands -/

/-- **A command returns with nothing but the cursor moved, or it raises one of its errors with
nothing moved at all.** -/
theorem run_outcome (c : Command) (hs : s.Inside) :
    Outcome c.run s s.Effect (c.Raises s) := by
  have scan {c : Command} : ∀ e, s.Fails e → c.Raises s e := fun e => raises_of_fails
  cases c with
  | start => exact reading_outcome nofun
  | stop => exact reading_outcome nofun
  | position => exact reading_outcome nofun
  | byteCount => exact reading_outcome nofun
  | remaining => exact reading_outcome nofun
  | atEnd => exact reading_outcome nofun
  | buffer => exact reading_outcome nofun
  | describe => exact reading_outcome nofun
  | text =>
      refine question_outcome nofun ?_
      intro e h
      exact scan e (textBetween_fails (Nat.le_refl _) (Nat.le_refl _) h)
  | lineColumn position? =>
      refine question_outcome (by rintro ⟨line, column⟩; nofun) ?_
      intro e h
      obtain ⟨a, rfl, ha⟩ := lineColumn_eq_error h
      exact .refused ha
  | peek =>
      refine question_outcome nofun ?_
      intro e h
      have herror := Except.map_eq_error_iff.mp h
      exact scan e (s.decodeAt_fails hs hs.start_le_pos hs.pos_le_stop herror)
  | current =>
      refine question_outcome nofun ?_
      intro e h
      unfold Scanner.current at h
      split at h
      · cases h
      · have herror := Except.map_eq_error_iff.mp h
        exact scan e (s.decodeAt_fails hs hs.start_le_pos hs.pos_le_stop herror)
  | characters =>
      refine question_outcome nofun ?_
      intro e h
      exact scan e (s.charactersFrom_fails hs hs.start_le_pos h)
  | subScanner first last =>
      refine .query ?_ ?_
      · intro value h
        obtain ⟨t, ht, rfl⟩ := Except.map_eq_ok_iff.mp h
        exact .of_view .cursor (subScanner_eq_ok ht)
      · intro e h
        obtain ⟨a, rfl, ha⟩ := subScanner_eq_error (Except.map_eq_error_iff.mp h)
        exact .refused ha
  | character => exact move_outcome (character_outcome hs) nofun nofun scan
  | readCount count =>
      exact move_outcome (readCount_outcome hs count) nofun nofun
        fun e => raises_of_refused .readCount
  | advance count =>
      exact move_outcome (advance_outcome hs count) nofun nofun fun e => raises_of_refused .advance
  | retreat count =>
      exact move_outcome (retreat_outcome hs count) nofun nofun fun e => raises_of_refused .retreat
  | reset => exact move_outcome reset_outcome nofun nofun fun e h => h.elim
  | restore mark =>
      refine move_outcome (restore_outcome mark) nofun nofun ?_
      rintro e rfl
      exact .refused (.restore mark s.start s.stop)
  | expectChar text => exact move_outcome (expectChar_outcome hs text) nofun nofun scan
  | expectString text => exact move_outcome (expectString_outcome hs text) nofun nofun scan
  | readWhileChar text =>
      refine move_outcome (countWhile_outcome hs _) nofun nofun ?_
      intro e h
      exact scan e (h.fails (CharTest.equals_total text))
  | skipWhitespace =>
      exact move_outcome (skipWhitespace_outcome hs) nofun nofun fun e => raises_of_classifier rfl
  | matchChar text => exact answer_outcome (matchChar_outcome hs text) scan
  | matchString text => exact answer_outcome (matchString_outcome hs text) scan
  | matchAny chars =>
      exact answer_outcome (withChars_outcome (matchAny_outcome hs))
        fun e => raises_of_chars rfl scan
  | readUntilChar text required =>
      refine view_outcome (readUntil_view hs (.equals text) _ required) ?_
      intro e h
      exact scan e ((h.fromScan hs).fails (CharTest.equals_total text))
  | readUntilSet chars required =>
      have hview (set : CharSet) := (readUntil_view hs (.inSet set) .charSet required).mono
        (fun _ _ h => h) fun _ h => (h.fromScan hs).fails (CharTest.inSet_total set)
      exact view_outcome (withChars_outcome hview) fun e => raises_of_chars rfl scan
  | readUntilTest test required =>
      refine view_outcome (readUntil_view hs test .test required) ?_
      intro e h
      exact raises_of_test rfl (h.fromScan hs)
  | readUntilString text required =>
      refine view_outcome (readUntilString_outcome hs text required) ?_
      rintro e (⟨_, rfl⟩ | ⟨_, rfl⟩)
      · exact .scan (Or.inr rfl)
      · exact .scan (locates_pos hs)
  | readToEnd => exact view_outcome (readToEnd_outcome hs) fun e h => h.elim
  | readWhileSet chars =>
      refine view_outcome (withChars_outcome fun set => readWhile_inSet hs set) ?_
      exact fun e => raises_of_chars rfl scan
  | readWhileTest test => exact view_outcome (readWhile_outcome hs test) fun e => raises_of_test rfl
  | readLine required =>
      refine view_outcome (readLine_outcome hs required) ?_
      intro e h
      exact raises_of_classifier rfl (h.fromScan hs)

end Command

end Utf8Scan
