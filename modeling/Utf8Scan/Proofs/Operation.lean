/-
What one operation can do to a scanner.

Every operation is all or nothing: it returns, and then the cursor is the only thing
that may have changed, or it raises an error, and then nothing has.  The lemmas below
say so of one operation each and add what the rest of the development needs to know
of the two cases: where the cursor and the ends of a returned window can lie, and
which errors there are.  An error of scanning has its place in the window, if it has
one, and a search fails where the reading breaks off or for want of a find.

Where they can lie is `Visits`: at the ends of the window, at the cursor, at any
boundary of the window, and wherever whole sequences lead from there.  A property of
offsets that these have and that steps forward keep is therefore kept by every
operation, and no later proof opens an operation again to show such a thing.

Reading a line is the one operation of several moving parts.  It can fail after the
cursor has moved, but only with an error of scanning, and backtracking undoes that.
-/
import Utf8Scan.Proofs.Searching

namespace Utf8Scan

namespace Scanner

/-! ### Where an operation can lead -/

/-- The offsets that an operation can put a cursor or an end of a window at. -/
inductive Visits (s : Scanner) : Nat → Prop
  | start : Visits s s.start
  | stop : Visits s s.stop
  | cursor : Visits s s.pos
  | boundary {o : Nat} (hstart : s.start ≤ o) (hstop : o ≤ s.stop)
      (h : s.buffer.isBoundary o = true) : Visits s o
  | forward {o o' : Nat} (h : Visits s o) (hstep : s.StepsTo o o') : Visits s o'

/-- A scanner for a part of the window whose ends an operation can lead to. -/
def IsView (s t : Scanner) : Prop :=
  ∃ first last, t = s.view first last ∧ s.Visits first ∧ s.Visits last ∧ first ≤ last

variable {s t : Scanner} {o o' : Nat}

theorem Inside.start_le_stop (hs : s.Inside) : s.start ≤ s.stop :=
  Nat.le_trans hs.start_le_pos hs.pos_le_stop

theorem Visits.walk (h : s.Visits o) (hwalk : s.WalksTo o o') : s.Visits o' := by
  induction hwalk with
  | refl => exact h
  | tail _ hstep ih => exact .forward ih hstep

theorem Visits.walkBack (hs : s.Inside) (h : s.Visits o) (ho : o ≤ s.stop)
    (hwalk : s.WalksBackTo o o') : s.Visits o' := by
  induction hwalk with
  | refl => exact h
  | @tail mid last hmid hstep ih =>
      obtain ⟨width, hwidth, rfl⟩ := hstep
      have hle := WalksBackTo.le hmid
      have hstart := measureBackAt_le hwidth
      have hstop := hs.stop_le_size
      exact .boundary (by omega) (by omega) (isBoundary_of_measureBackAt (by omega) hwidth)

/-- No operation leads out of the window. -/
theorem Visits.inside (hs : s.Inside) (h : s.Visits o) : s.start ≤ o ∧ o ≤ s.stop := by
  induction h with
  | start => exact ⟨Nat.le_refl _, hs.start_le_stop⟩
  | stop => exact ⟨hs.start_le_stop, Nat.le_refl _⟩
  | cursor => exact ⟨hs.start_le_pos, hs.pos_le_stop⟩
  | boundary hstart hstop _ => exact ⟨hstart, hstop⟩
  | forward _ hstep ih =>
      obtain ⟨width, hwidth, rfl⟩ := hstep
      have hle := measureAt_le hwidth
      exact ⟨by omega, hle⟩

theorem Inside.move (hs : s.Inside) (h : s.Visits o) : ({ s with pos := o } : Scanner).Inside :=
  ⟨(h.inside hs).1, (h.inside hs).2, hs.stop_le_size⟩

theorem IsView.inside (hs : s.Inside) (h : s.IsView t) : t.Inside := by
  obtain ⟨first, last, rfl, hfirst, hlast, hle⟩ := h
  exact ⟨Nat.le_refl _, hle, Nat.le_trans (hlast.inside hs).2 hs.stop_le_size⟩

end Scanner

/-- An error of scanning made in the window, or one that a test raised. -/
def Error.FromScan (s : Scanner) (test : CharTest) (e : Error) : Prop :=
  s.Fails e ∨ ∃ c, test c = .error e

theorem Error.FromScan.fails {s : Scanner} {test : CharTest} {e : Error} (h : e.FromScan s test)
    (htest : test.Total) : s.Fails e := by
  rcases h with h | ⟨c, h⟩
  · exact h
  · exact absurd h (htest c e)

theorem Scanner.Misreads.fromScan {s : Scanner} {test : CharTest} {e : Error} (hs : s.Inside)
    (h : s.Misreads test s.pos e) : e.FromScan s test :=
  h.imp_left fun h => h.fails hs hs.start_le_pos

/-- What the reader of whole texts finds fault with lies in the run that it reads. -/
theorem Buffer.text_error {b : Buffer} {first last o : Nat} {reason : Reason}
    (h : b.text first last = .error (o, reason)) : first ≤ o ∧ o < last := by
  unfold Buffer.text at h
  generalize "" = acc at h
  fun_induction Buffer.text.go b last first acc with
  | case1 => cases h
  | case2 offset acc lead rest hwindow broken hbroken =>
      cases h
      exact ⟨Nat.le_refl _, Buffer.lt_of_window_eq_cons hwindow⟩
  | case3 offset acc lead rest hwindow c width hdecode ih =>
      obtain ⟨hle, hlt⟩ := ih h
      exact ⟨by omega, hlt⟩

namespace Scan

variable {s : Scanner} {test : CharTest}

/-! ### Moves -/

theorem character_outcome (hs : s.Inside) :
    Outcome character s (fun _ pos => s.Visits pos) s.Fails := by
  refine .step ?_ ?_
  · intro c pos h
    obtain ⟨⟨c', width⟩, hdecode, heq⟩ := Except.map_eq_ok_iff.mp h
    cases heq
    exact .forward .cursor (s.stepsTo_of_decodeAt hdecode)
  · intro e h
    exact s.decodeAt_fails hs hs.start_le_pos hs.pos_le_stop (Except.map_eq_error_iff.mp h)

theorem checkedCount_eq_error {count : Int} {e : Error} (h : checkedCount count = .error e) :
    count < 0 ∧ e = .argument (.negativeCount count) := by
  unfold checkedCount at h
  by_cases hcount : count < 0
  · rw [if_pos hcount] at h
    cases h
    exact ⟨hcount, rfl⟩
  · rw [if_neg hcount] at h
    cases h

theorem advance_outcome (hs : s.Inside) (count : Int) :
    Outcome (advance count) s (fun _ pos => s.Visits pos)
      (fun e => s.Fails e ∨ count < 0 ∧ e = .argument (.negativeCount count)) := by
  refine .step ?_ ?_
  · intro _ pos h
    obtain ⟨n, _, h⟩ := Except.bind_eq_ok_iff.mp h
    obtain ⟨after, hskip, h⟩ := Except.bind_eq_ok_iff.mp h
    cases h
    exact .walk .cursor (s.skip_walksTo hskip)
  · intro e h
    rcases Except.bind_eq_error_iff.mp h with h | ⟨n, _, h⟩
    · exact Or.inr (checkedCount_eq_error h)
    · rcases Except.bind_eq_error_iff.mp h with h | ⟨after, _, h⟩
      · exact Or.inl (s.skip_fails hs hs.start_le_pos hs.pos_le_stop h)
      · cases h

theorem retreat_outcome (hs : s.Inside) (count : Int) :
    Outcome (retreat count) s (fun _ pos => s.Visits pos)
      (fun e => s.Fails e ∨ count < 0 ∧ e = .argument (.negativeRetreat count)) := by
  refine .step ?_ ?_
  · intro _ pos h
    by_cases hcount : count < 0
    · rw [if_pos hcount] at h
      cases h
    · rw [if_neg hcount] at h
      obtain ⟨before, hskip, heq⟩ := Except.map_eq_ok_iff.mp h
      cases heq
      exact .walkBack hs .cursor hs.pos_le_stop (s.skipBack_walksBackTo hskip)
  · intro e h
    by_cases hcount : count < 0
    · rw [if_pos hcount] at h
      cases h
      exact Or.inr ⟨hcount, rfl⟩
    · rw [if_neg hcount] at h
      have herror := Except.map_eq_error_iff.mp h
      exact Or.inl (s.skipBack_fails hs hs.start_le_pos hs.pos_le_stop herror)

/-- Where a part of the window is read as a whole. -/
theorem textBetween_fails {first last : Nat} {e : Error} (hfirst : s.start ≤ first)
    (hlast : last ≤ s.stop) (h : s.textBetween first last = .error e) : s.Fails e := by
  obtain ⟨⟨offset, reason⟩, htext, rfl⟩ := Except.mapError_eq_error_iff.mp h
  obtain ⟨hle, hlt⟩ := Buffer.text_error htext
  exact ⟨_, rfl, Int.ofNat_le.mpr (by omega), Int.ofNat_le.mpr (by omega)⟩

theorem readCount_outcome (hs : s.Inside) (count : Int) :
    Outcome (readCount count) s (fun _ pos => s.Visits pos)
      (fun e => s.Fails e ∨ count < 0 ∧ e = .argument (.negativeCount count)) := by
  refine .step ?_ ?_
  · intro _ pos h
    obtain ⟨n, _, h⟩ := Except.bind_eq_ok_iff.mp h
    obtain ⟨after, hskip, h⟩ := Except.bind_eq_ok_iff.mp h
    obtain ⟨text, _, h⟩ := Except.bind_eq_ok_iff.mp h
    cases h
    exact .walk .cursor (s.skip_walksTo hskip)
  · intro e h
    rcases Except.bind_eq_error_iff.mp h with h | ⟨n, _, h⟩
    · exact Or.inr (checkedCount_eq_error h)
    rcases Except.bind_eq_error_iff.mp h with h | ⟨after, hskip, h⟩
    · exact Or.inl (s.skip_fails hs hs.start_le_pos hs.pos_le_stop h)
    rcases Except.bind_eq_error_iff.mp h with h | ⟨text, _, h⟩
    · exact Or.inl (textBetween_fails hs.start_le_pos (s.skip_le hs.pos_le_stop hskip) h)
    · cases h

theorem reset_outcome : Outcome reset s (fun _ pos => s.Visits pos) (fun _ => False) := by
  refine .step ?_ ?_
  · intro _ pos h
    cases h
    exact .start
  · intro e h
    cases h

theorem restore_outcome (mark : Int) :
    Outcome (restore mark) s (fun _ pos => s.Visits pos)
      (fun e => e = .argument (.unusableMark mark s.start s.stop)) := by
  refine .step ?_ ?_
  · intro _ pos h
    split at h
    · rename_i hmark
      cases h
      obtain ⟨hstart, hstop, hboundary⟩ := hmark
      have hcast : ((mark.toNat : Nat) : Int) = mark := Int.toNat_of_nonneg (by omega)
      exact .boundary (by omega) (by omega) (by rw [hcast]; exact hboundary)
    · cases h
  · intro e h
    split at h
    · cases h
    · cases h; rfl

/-! ### Matches -/

theorem matchTest_outcome (s : Scanner) (test : CharTest) :
    Outcome (matchTest test) s (fun passed pos => s.Visits pos ∧ (passed = false → pos = s.pos))
      (fun e => s.decodeAt s.pos = .error e ∨ ∃ c, test c = .error e) := by
  refine .step ?_ ?_
  · intro passed pos h
    split at h
    · cases h
    · rename_i c width hdecode
      obtain ⟨answer, _, heq⟩ := Except.map_eq_ok_iff.mp h
      split at heq
      · cases heq
        refine ⟨.forward .cursor (s.stepsTo_of_decodeAt hdecode), ?_⟩
        intro hfalse
        cases hfalse
      · cases heq
        exact ⟨.cursor, fun _ => rfl⟩
  · intro e h
    split at h
    · rename_i e' he
      cases h
      exact Or.inl he
    · rename_i c width hdecode
      exact Or.inr ⟨c, Except.map_eq_error_iff.mp h⟩

/-- A test that answers for every character fails only where there is none. -/
theorem matchTest_fails (hs : s.Inside) (htest : test.Total) :
    Outcome (matchTest test) s (fun passed pos => s.Visits pos ∧ (passed = false → pos = s.pos))
      s.Fails := by
  refine (matchTest_outcome s test).mono (fun _ _ h => h) ?_
  intro e h
  rcases h with h | ⟨c, h⟩
  · exact s.decodeAt_fails hs hs.start_le_pos hs.pos_le_stop h
  · exact absurd h (htest c e)

theorem matchChar_outcome (hs : s.Inside) (text : String) :
    Outcome (matchChar text) s (fun passed pos => s.Visits pos ∧ (passed = false → pos = s.pos))
      s.Fails :=
  matchTest_fails hs (CharTest.equals_total text)

theorem matchAny_outcome (hs : s.Inside) (chars : CharSet) :
    Outcome (matchAny chars) s (fun passed pos => s.Visits pos ∧ (passed = false → pos = s.pos))
      s.Fails :=
  matchTest_fails hs (CharTest.inSet_total chars)

theorem matchString_outcome (hs : s.Inside) (text : String) :
    Outcome (matchString text) s (fun passed pos => s.Visits pos ∧ (passed = false → pos = s.pos))
      s.Fails := by
  refine .step ?_ ?_
  · intro passed pos h
    split at h
    · cases h
    · obtain ⟨after, hskip, heq⟩ := Except.map_eq_ok_iff.mp h
      simp only at heq
      split at heq
      · cases heq
        refine ⟨.walk .cursor (s.skip_walksTo hskip), ?_⟩
        intro hfalse
        cases hfalse
      · cases heq
        exact ⟨.cursor, fun _ => rfl⟩
  · intro e h
    split at h
    · cases h
      exact ⟨_, rfl, Or.inl rfl⟩
    · have herror := Except.map_eq_error_iff.mp h
      exact s.skip_fails hs hs.start_le_pos hs.pos_le_stop herror

/-- The cursor is a place in the window. -/
theorem locates_pos (hs : s.Inside) : (s.start : Int) ≤ s.pos ∧ (s.pos : Int) ≤ s.stop :=
  ⟨Int.ofNat_le.mpr hs.start_le_pos, Int.ofNat_le.mpr hs.pos_le_stop⟩

/-- The error of an expectation that was not met: it shows what is there, if that can be read. -/
theorem throw_found_outcome {α : Type} {V : Unit → Nat → Prop} {peek : Scanner → Except Error α}
    (hs : s.Inside) (hpeek : ∀ e, peek s = .error e → s.Fails e) (expected : String)
    (found : α → String) :
    Outcome (do
        let s ← get
        let a ← query peek
        throw (.scan (.unexpected expected (found a) s.pos)) : Scan Unit) s V s.Fails := by
  cases h : peek s with
  | ok a =>
      have hrun : query peek s = .ok a s := by simp only [query, h]
      exact .raises ((get_bind _ s).trans (bind_of_ok hrun)) ⟨_, rfl, locates_pos hs⟩
  | error e =>
      have hrun : query peek s = .error e s := by simp only [query, h]
      exact .raises ((get_bind _ s).trans (bind_of_error hrun)) (hpeek e h)

theorem expectChar_outcome (hs : s.Inside) (text : String) :
    Outcome (expectChar text) s (fun _ pos => s.Visits pos) s.Fails := by
  refine .bind (matchChar_outcome hs text) fun passed pos hpassed => ?_
  cases passed with
  | true => exact .returns rfl hpassed.1
  | false =>
      obtain rfl := hpassed.2 rfl
      refine (throw_found_outcome hs ?_ text String.singleton).mono (fun _ _ h => h)
        fun e he => ⟨he, rfl⟩
      intro e he
      exact s.decodeAt_fails hs hs.start_le_pos hs.pos_le_stop (Except.map_eq_error_iff.mp he)

theorem expectString_outcome (hs : s.Inside) (text : String) :
    Outcome (expectString text) s (fun _ pos => s.Visits pos) s.Fails := by
  refine .bind (matchString_outcome hs text) fun passed pos hpassed => ?_
  cases passed with
  | true => exact .returns rfl hpassed.1
  | false =>
      obtain rfl := hpassed.2 rfl
      refine (throw_found_outcome hs ?_ text id).mono (fun _ _ h => h) fun e he => ⟨he, rfl⟩
      intro e he
      rcases Except.bind_eq_error_iff.mp he with he | ⟨after, hskip, he⟩
      · exact s.skip_fails hs hs.start_le_pos hs.pos_le_stop he
      · exact textBetween_fails hs.start_le_pos (s.skip_le hs.pos_le_stop hskip) he

/-! ### Searches -/

/-- A view from the cursor to where a walk or the window ends. -/
theorem isView_to {o : Nat} (h : s.Visits o) (hle : s.pos ≤ o) : s.IsView (s.view s.pos o) :=
  ⟨s.pos, o, rfl, .cursor, h, hle⟩

theorem finish_ok {target : Target} {required : Bool} {found? : Option Nat} {t : Scanner}
    {pos : Nat} (hs : s.Inside) (hfound : ∀ o ∈ found?, s.Visits o ∧ s.pos ≤ o)
    (h : s.finish target required found? = .ok (t, pos)) : s.Visits pos ∧ s.IsView t := by
  unfold Scanner.finish at h
  split at h
  · rename_i found
    cases h
    obtain ⟨hvisits, hle⟩ := hfound pos rfl
    exact ⟨hvisits, isView_to hvisits hle⟩
  · split at h
    · cases h
    · cases h
      exact ⟨.stop, isView_to .stop hs.pos_le_stop⟩

/-- A search that is over fails only for want of a find that is required. -/
theorem finish_error {target : Target} {required : Bool} {found? : Option Nat} {e : Error}
    (h : s.finish target required found? = .error e) :
    required = true ∧ e = .scan (.notFound target s.pos) := by
  unfold Scanner.finish at h
  split at h
  · cases h
  · split at h
    · rename_i hrequired
      cases h
      exact ⟨hrequired, rfl⟩
    · cases h

/-- What a search by test fails with: the window does not read, or has no find. -/
def SearchError (s : Scanner) (test : CharTest) (target : Target) (required : Bool) (e : Error) :
    Prop :=
  s.Misreads test s.pos e ∨ required = true ∧ e = .scan (.notFound target s.pos)

theorem SearchError.fromScan {target : Target} {required : Bool} {e : Error} (hs : s.Inside)
    (h : SearchError s test target required e) : e.FromScan s test := by
  rcases h with h | ⟨_, rfl⟩
  · exact h.fromScan hs
  · exact Or.inl ⟨_, rfl, locates_pos hs⟩

/-- After a search by test there is a character at the cursor, or the window ends there. -/
theorem readUntil_outcome (hs : s.Inside) (test : CharTest) (target : Target) (required : Bool) :
    Outcome (readUntil test target required) s
      (fun t pos => (s.Visits pos ∧ s.IsView t) ∧ s.WalksTo s.pos pos ∧
        (pos = s.stop ∨ ∃ c width, s.decodeAt pos = .ok (c, width)))
      (SearchError s test target required) := by
  refine .step ?_ ?_
  · intro t pos h
    obtain ⟨found?, hseek, hfinish⟩ := Except.bind_eq_ok_iff.mp h
    refine ⟨finish_ok hs ?_ hfinish, ?_⟩
    · rintro o rfl
      have hwalk := s.seek_walksTo hseek
      exact ⟨.walk .cursor hwalk, Scanner.WalksTo.le hwalk⟩
    · cases found? with
      | some found =>
          cases hfinish
          obtain ⟨c, width, hdecode, _⟩ := s.seek_decodes hseek
          exact ⟨s.seek_walksTo hseek, Or.inr ⟨c, width, hdecode⟩⟩
      | none =>
          simp only [Scanner.finish] at hfinish
          split at hfinish
          · cases hfinish
          · cases hfinish
            exact ⟨s.seek_none_walksTo hs.pos_le_stop hseek, Or.inl rfl⟩
  · intro e h
    rcases Except.bind_eq_error_iff.mp h with h | ⟨found?, _, h⟩
    · exact Or.inl (s.seek_error h)
    · exact Or.inr (finish_error h)

theorem readUntil_view (hs : s.Inside) (test : CharTest) (target : Target) (required : Bool) :
    Outcome (readUntil test target required) s (fun t pos => s.Visits pos ∧ s.IsView t)
      (SearchError s test target required) :=
  (readUntil_outcome hs test target required).mono (fun _ _ h => h.1) (fun _ h => h)

theorem readUntilString_outcome (hs : s.Inside) (text : String) (required : Bool) :
    Outcome (readUntilString text required) s (fun t pos => s.Visits pos ∧ s.IsView t)
      (fun e => text = "" ∧ e = .scan (.emptyTarget "read_until_string") ∨
        required = true ∧ e = .scan (.notFound (.text text) s.pos)) := by
  refine .step ?_ ?_
  · intro t pos h
    split at h
    · cases h
    · rename_i htext
      refine finish_ok hs ?_ h
      intro o ho
      obtain ⟨hstart, hstop, hholds⟩ := Buffer.find?_spec ho
      have hlow := hs.start_le_pos
      exact ⟨.boundary (by omega) (by omega) (Buffer.isBoundary_of_holdsAt htext hholds), hstart⟩
  · intro e h
    split at h
    · rename_i htext
      cases h
      exact Or.inl ⟨htext, rfl⟩
    · exact Or.inr (finish_error h)

theorem readToEnd_outcome (hs : s.Inside) :
    Outcome readToEnd s (fun t pos => s.Visits pos ∧ s.IsView t) (fun _ => False) := by
  refine .step ?_ ?_
  · intro t pos h
    cases h
    exact ⟨.stop, isView_to .stop hs.pos_le_stop⟩
  · intro e h
    cases h

theorem countWhile_outcome (hs : s.Inside) (test : CharTest) :
    Outcome (countWhile test) s (fun _ pos => s.Visits pos) (Error.FromScan s test) := by
  refine .step ?_ fun e he => (s.pass_error (s.tally_eq_error_iff.mp he)).fromScan hs
  intro count pos h
  exact .walk .cursor (s.pass_walksTo ((s.pass_eq_ok_iff 0).mpr ⟨count, h⟩))

theorem skipWhitespace_outcome (hs : s.Inside) :
    Outcome skipWhitespace s (fun _ pos => s.Visits pos)
      (Error.FromScan s (s.classifier.test .whitespace)) := by
  cases countWhile_outcome hs (s.classifier.test .whitespace) with
  | returns run value => exact .returns ((get_bind _ s).trans run) value
  | raises run error => exact .raises ((get_bind _ s).trans run) error

theorem readWhile_outcome (hs : s.Inside) (test : CharTest) :
    Outcome (readWhile test) s (fun t pos => s.Visits pos ∧ s.IsView t)
      (Error.FromScan s test) := by
  refine .step ?_ fun e he => (s.pass_error (Except.map_eq_error_iff.mp he)).fromScan hs
  intro t pos h
  obtain ⟨after, hpass, heq⟩ := Except.map_eq_ok_iff.mp h
  cases heq
  have hwalk := s.pass_walksTo hpass
  have hvisits : s.Visits pos := .walk .cursor hwalk
  exact ⟨hvisits, isView_to hvisits (Scanner.WalksTo.le hwalk)⟩

theorem readWhile_inSet (hs : s.Inside) (set : CharSet) :
    Outcome (readWhileSet set) s (fun t pos => s.Visits pos ∧ s.IsView t) s.Fails :=
  (readWhile_outcome hs _).mono (fun _ _ h => h) fun _ h => h.fails (CharTest.inSet_total set)

/-! ### Lines -/

/-- What can be reached from a cursor that was moved could be reached before. -/
theorem visits_of_move {pos o : Nat} (hpos : s.Visits pos)
    (h : ({ s with pos := pos } : Scanner).Visits o) : s.Visits o := by
  induction h with
  | start => exact .start
  | stop => exact .stop
  | cursor => exact hpos
  | boundary hstart hstop h => exact .boundary hstart hstop h
  | forward _ hstep ih => exact .forward ih hstep

/-- A line end can fail only after its first character, on what cannot be read there. -/
theorem lineEnd_halfway (hs : s.Inside)
    (hchar : s.pos = s.stop ∨ ∃ c width, s.decodeAt s.pos = .ok (c, width)) :
    Halfway lineEnd s (fun _ pos => s.Visits pos) (s.BreaksFrom s.pos) := by
  by_cases hend : s.atEnd
  · have hrun : lineEnd s = .ok () { s with pos := s.pos } := by
      rw [lineEnd, get_bind, if_pos hend]
      rfl
    exact .returns hrun .cursor
  rcases hchar with hstop | ⟨c, width, hdecode⟩
  · exact absurd (by simpa [Scanner.atEnd] using hstop) hend
  have hfirst : character s = .ok c { s with pos := s.pos + width.bytes } := by
    simp only [character, step, hdecode, Except.map]
  have hvisits : s.Visits (s.pos + width.bytes) := .forward .cursor (s.stepsTo_of_decodeAt hdecode)
  by_cases hcr : c = '\r'
  · by_cases hend' : ({ s with pos := s.pos + width.bytes } : Scanner).atEnd
    · have hrun : lineEnd s = .ok () { s with pos := s.pos + width.bytes } := by
        rw [lineEnd, get_bind, if_neg hend, bind_of_ok hfirst, if_pos hcr, get_bind, if_pos hend']
        rfl
      exact .returns hrun hvisits
    -- Only here can a step fail behind one that has moved the cursor.
    · cases matchTest_outcome { s with pos := s.pos + width.bytes } (.equals "\n") with
      | @returns matched pos run value =>
          have hrun : lineEnd s = .ok () { s with pos := pos } := by
            rw [lineEnd, get_bind, if_neg hend, bind_of_ok hfirst, if_pos hcr, get_bind,
              if_neg hend']
            exact bind_of_ok run
          exact .returns hrun (visits_of_move hvisits value.1)
      | @raises e run error =>
          have hrun : lineEnd s = .error e { s with pos := s.pos + width.bytes } := by
            rw [lineEnd, get_bind, if_neg hend, bind_of_ok hfirst, if_pos hcr, get_bind,
              if_neg hend']
            exact bind_of_error run
          rcases error with hdecode' | ⟨char, h⟩
          · have hle := (hs.move hvisits).pos_le_stop
            have hne : s.pos + width.bytes ≠ s.stop := by simpa [Scanner.atEnd] using hend'
            have hbreaks : s.BreaksFrom s.pos e :=
              ⟨_, .single (s.stepsTo_of_decodeAt hdecode), Nat.lt_of_le_of_ne hle hne, hdecode'⟩
            obtain ⟨x, rfl, _⟩ := hbreaks.fails hs hs.start_le_pos
            exact .fails hrun hbreaks
          · exact absurd h (CharTest.equals_total "\n" char e)
  · have hrun : lineEnd s = .ok () { s with pos := s.pos + width.bytes } := by
      rw [lineEnd, get_bind, if_neg hend, bind_of_ok hfirst, if_neg hcr]
      rfl
    exact .returns hrun hvisits

theorem readLine_outcome (hs : s.Inside) (required : Bool) :
    Outcome (readLine required) s (fun t pos => s.Visits pos ∧ s.IsView t)
      (SearchError s (s.classifier.test .newline) .test required) := by
  refine Halfway.backtrack ?_
  cases readUntil_outcome hs (s.classifier.test .newline) .test required with
  | raises run error => exact .raises ((get_bind _ s).trans (bind_of_error run)) error
  | @returns line pos run value =>
      obtain ⟨⟨hvisits, hview⟩, hwalk, hchar⟩ := value
      have hbreaks {e : Error} (h : ({ s with pos := pos } : Scanner).BreaksFrom pos e) :
          SearchError s (s.classifier.test .newline) .test required e :=
        Or.inl (Or.inl (Scanner.BreaksFrom.head hwalk h))
      cases lineEnd_halfway (hs.move hvisits) hchar with
      | @returns _ last run' value =>
          have hrest : (lineEnd >>= fun _ => pure line : Scan Scanner) { s with pos := pos }
              = .ok line { s with pos := last } := bind_of_ok run'
          exact .returns ((get_bind _ s).trans ((bind_of_ok run).trans hrest))
            ⟨visits_of_move hvisits value, hview⟩
      | @raises e run' error =>
          obtain ⟨x, rfl, _⟩ := error.fails (hs.move hvisits) (hvisits.inside hs).1
          have hrest : (lineEnd >>= fun _ => pure line : Scan Scanner) { s with pos := pos }
              = .error (.scan x) { s with pos := pos } := bind_of_error run'
          exact .fails ((get_bind _ s).trans ((bind_of_ok run).trans hrest)) (hbreaks error)
      | @fails x last run' error =>
          have hrest : (lineEnd >>= fun _ => pure line : Scan Scanner) { s with pos := pos }
              = .error (.scan x) { s with pos := last } := bind_of_error run'
          exact .fails ((get_bind _ s).trans ((bind_of_ok run).trans hrest)) (hbreaks error)

end Scan

end Utf8Scan
