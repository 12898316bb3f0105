/-
Reading one line, whatever is a line end and whatever the bytes are.

The classifier decides where a line ends, but not what is consumed there.  The search
stops at the first character that the classifier calls a line end.  That character is
consumed in any case, and LF behind it if it is CR, whether or not the classifier calls
LF a line end.  So CR is consumed alone only where no LF follows, because the window
ends behind it or goes on with another character.

Each of the three parts is told as the characters it goes over: the search passes those
of the line, and `LineEnd` says which are consumed behind them.  `LineAhead` is the same
in offsets and bytes.  To read a line succeeds exactly where one is ahead, so nothing
between the old cursor and the new one is left out.
-/
import Utf8Scan.Proofs.Finding

namespace Utf8Scan

/-! ### Characters that lie in the window -/

namespace Scanner

variable {s left : Scanner} {test : CharTest} {o o' : Nat} {c : Char} {chars : List Char}

theorem Inside.forward (hs : s.Inside) (hpos : s.pos ≤ o) (hstop : o ≤ s.stop) :
    ({ s with pos := o } : Scanner).Inside :=
  ⟨Nat.le_trans hs.start_le_pos hpos, hstop, hs.stop_le_size⟩

/-- A text is ahead up to the offset where its bytes end. -/
theorem ahead_iff_between (hs : s.Inside) : s.Ahead chars ∧ o = (s.past chars).pos ↔
    s.pos ≤ o ∧ o ≤ s.stop ∧ s.buffer.between s.pos o = spell chars := by
  have hle := hs.pos_le_stop
  constructor
  · intro h
    obtain ⟨hahead, rfl⟩ := h
    have hlength := hahead.length_le
    rw [Buffer.length_between hs.stop_le_size] at hlength
    rw [pos_past]
    exact ⟨by omega, by omega, Buffer.between_of_prefix hahead⟩
  · intro h
    obtain ⟨hpos, hstop, hbetween⟩ := h
    have hlength : (s.buffer.between s.pos o).length = o - s.pos :=
      Buffer.length_between (Nat.le_trans hstop hs.stop_le_size)
    rw [hbetween] at hlength
    refine ⟨?_, by rw [pos_past]; omega⟩
    rw [Ahead, ← hbetween]
    exact ⟨_, Buffer.between_append hpos hstop⟩

/-- What passes is a text of the window in which every character passes, and none behind it. -/
theorem passes_iff (hs : s.Inside) : s.Passes test s.pos chars o ↔
    (s.Ahead chars ∧ o = (s.past chars).pos) ∧ (∀ c ∈ chars, test c = .ok true) ∧
      (o = s.stop ∨ ∃ c width, s.decodeAt o = .ok (c, width) ∧ test c = .ok false) := by
  constructor
  · intro h
    have hbounds := h.bounds
    exact ⟨(ahead_iff_between hs).mpr ⟨hbounds.1, hbounds.2, h.between_eq⟩, h.forall_mem, h.stopped⟩
  · intro h
    obtain ⟨⟨hahead, rfl⟩, hall, hstopped⟩ := h
    clear hs
    induction chars generalizing s with
    | nil =>
        change s.pos = s.stop ∨ ∃ c width, s.decodeAt s.pos = .ok (c, width) ∧ _ at hstopped
        show s.Passes test s.pos [] s.pos
        obtain hend | ⟨c, width, hdecode, hc⟩ := hstopped
        · rw [hend]
          exact .ended
        · exact .refused hdecode hc
    | cons c chars ih =>
        obtain ⟨hchar, hrest⟩ := ahead_cons_iff.mp hahead
        obtain ⟨hc, hall⟩ := List.forall_mem_cons.mp hall
        have hpasses := ih hrest hall (by rw [← past_cons]; exact hstopped)
        rw [← past_cons, past_singleton] at hpasses
        exact .passed (decodeAt_pos_eq_ok_iff.mpr ⟨rfl, hchar⟩) hc (hpasses.move s.pos)

/-- The same of the characters that do not pass, up to one that does. -/
theorem passes_negate_iff (hs : s.Inside) : s.Passes test.negate s.pos chars o ↔
    (s.Ahead chars ∧ o = (s.past chars).pos) ∧ (∀ c ∈ chars, test c = .ok false) ∧
      (o = s.stop ∨ ∃ c width, s.decodeAt o = .ok (c, width) ∧ test c = .ok true) := by
  simp only [passes_iff hs, CharTest.negate_eq_true_iff, CharTest.negate_eq_false_iff]

/-- What ends a line at the cursor: the end of the window, one character, or CR LF.  CR alone does
only if the window ends behind it or goes on with another character than LF. -/
inductive LineEnd (s : Scanner) : List Char → Prop
  | nothing (h : s.atEnd = true) : LineEnd s []
  | single {c : Char} (h : s.Ahead [c])
      (hcr : c = '\r' → (s.past [c]).atEnd = true ∨ ∃ d, d ≠ '\n' ∧ (s.past [c]).Ahead [d]) :
      LineEnd s [c]
  | pair (h : s.Ahead ['\r', '\n']) : LineEnd s ['\r', '\n']

end Scanner

/-! ### Consuming a line end -/

namespace Scan

open Scanner

variable {s t left : Scanner} {test : CharTest} {target : Target} {required : Bool}

/-- Behind a CR, an LF is consumed, and another character is not. -/
theorem lineFeed_eq_ok_iff : (do unless (← get).atEnd do discard (matchChar "\n") : Scan Unit) s
      = .ok () left ↔
    left = s ∧ (s.atEnd = true ∨ ∃ d, d ≠ '\n' ∧ s.Ahead [d]) ∨
      s.Ahead ['\n'] ∧ left = s.past ['\n'] := by
  rw [get_bind]
  by_cases hend : s.atEnd = true
  · rw [if_pos hend]
    constructor
    · intro h
      cases h
      exact Or.inl ⟨rfl, Or.inl hend⟩
    · intro h
      obtain ⟨rfl, _⟩ | ⟨hahead, _⟩ := h
      · rfl
      · exact absurd hahead (not_ahead_of_atEnd hend)
  · rw [if_neg hend]
    show (matchChar (String.singleton '\n') >>= fun _ => pure ()) s = .ok () left ↔ _
    rw [bind_eq_ok_iff]
    constructor
    · intro h
      obtain ⟨answer, mid, hmatch, ⟨⟩⟩ := h
      cases answer with
      | true => exact Or.inr (matchChar_eq_true_iff.mp hmatch)
      | false =>
          obtain ⟨hleft, hother⟩ := matchChar_eq_false_iff.mp hmatch
          exact Or.inl ⟨hleft, Or.inr hother⟩
    · intro h
      obtain ⟨hleft, hatEnd | hother⟩ | hfeed := h
      · exact absurd hatEnd hend
      · exact ⟨false, left, matchChar_eq_false_iff.mpr ⟨hleft, hother⟩, rfl⟩
      · exact ⟨true, left, matchChar_eq_true_iff.mpr hfeed, rfl⟩

theorem lineEnd_eq_ok_iff : lineEnd s = .ok () left ↔
    ∃ ending, s.LineEnd ending ∧ left = s.past ending := by
  unfold lineEnd
  rw [get_bind]
  by_cases hend : s.atEnd = true
  · rw [if_pos hend]
    constructor
    · intro h
      cases h
      exact ⟨[], .nothing hend, rfl⟩
    · intro h
      obtain ⟨_, hending, rfl⟩ := h
      cases hending with
      | nothing => rfl
      | single hahead _ => exact absurd hahead (not_ahead_of_atEnd hend)
      | pair hahead => exact absurd (ahead_cons_iff.mp hahead).1 (not_ahead_of_atEnd hend)
  · rw [if_neg hend, bind_eq_ok_iff]
    simp only [character_eq_ok_iff]
    constructor
    · intro h
      obtain ⟨c, mid, ⟨hahead, rfl⟩, hrest⟩ := h
      by_cases hcr : c = '\r'
      · rw [if_pos hcr] at hrest
        subst hcr
        obtain ⟨rfl, hstops⟩ | ⟨hfeed, rfl⟩ := lineFeed_eq_ok_iff.mp hrest
        · exact ⟨_, .single hahead fun _ => hstops, rfl⟩
        · exact ⟨_, .pair (ahead_cons_iff.mpr ⟨hahead, hfeed⟩), (past_cons _ _ _).symm⟩
      · rw [if_neg hcr] at hrest
        cases hrest
        exact ⟨_, .single hahead fun h => absurd h hcr, rfl⟩
    · intro h
      obtain ⟨_, hending, rfl⟩ := h
      cases hending with
      | nothing h => exact absurd h hend
      | @single c hahead hstops =>
          refine ⟨c, _, ⟨hahead, rfl⟩, ?_⟩
          by_cases hcr : c = '\r'
          · rw [if_pos hcr]
            exact lineFeed_eq_ok_iff.mpr (Or.inl ⟨rfl, hstops hcr⟩)
          · rw [if_neg hcr]
            rfl
      | pair hahead =>
          obtain ⟨hreturn, hfeed⟩ := ahead_cons_iff.mp hahead
          refine ⟨'\r', _, ⟨hreturn, rfl⟩, ?_⟩
          rw [if_pos rfl]
          exact lineFeed_eq_ok_iff.mpr (Or.inr ⟨hfeed, past_cons _ _ _⟩)

/-- Reading a line is the search for its end, and consuming that. -/
theorem readLine_eq_ok_iff : readLine required s = .ok t left ↔
    ∃ mid, readUntilTest (s.classifier.test .newline) required s = .ok t mid ∧
      ∃ ending, mid.LineEnd ending ∧ left = mid.past ending := by
  rw [readLine, backtrack_eq_ok_iff, get_bind, bind_eq_ok_iff]
  simp only [bind_eq_ok_iff, ← lineEnd_eq_ok_iff]
  constructor
  · intro h
    obtain ⟨line, mid, hread, ⟨⟩, _, hend, ⟨⟩⟩ := h
    exact ⟨mid, hread, hend⟩
  · intro h
    obtain ⟨mid, hread, hend⟩ := h
    exact ⟨t, mid, hread, (), left, hend, rfl⟩

end Scan

/-! ### Lines of any bytes -/

namespace Scanner

open Scan

variable {root s left : Scanner} {b : Buffer} {maxSize : Int} {k : Classifier} {f g : Nat}
  {ending : List Char}

/-- What lies behind a line: nothing, where the window ends; one line end, which is CR only if the
window ends behind it or goes on with another character than LF; or CR LF. -/
inductive EndsLine (s : Scanner) (f g : Nat) : Prop
  | stopped (hf : f = s.stop) (hg : g = s.stop)
  | single {c : Char} (hc : s.classifier.test .newline c = .ok true)
      (hbytes : s.buffer.between f g = spell [c])
      (hcr : c = '\r' → g = s.stop ∨ ∃ d width, s.decodeAt g = .ok (d, width) ∧ d ≠ '\n')
  | pair (hcr : s.classifier.test .newline '\r' = .ok true)
      (hbytes : s.buffer.between f g = spell ['\r', '\n'])

/-- A line from the cursor to an offset, and what ends it, up to another. -/
structure LineAhead (s : Scanner) (f g : Nat) : Prop where
  pos_le : s.pos ≤ f
  le : f ≤ g
  le_stop : g ≤ s.stop
  /-- The line can be read, and none of its characters is a line end. -/
  line : ∃ text, (s.view s.pos f).characters = .ok text ∧ s.buffer.between s.pos f = spell text ∧
    ∀ c ∈ text, s.classifier.test .newline c = .ok false
  ends : s.EndsLine f g

/-- The line goes no further. -/
def StopsLine (s : Scanner) (o : Nat) : Prop :=
  o = s.stop ∨ ∃ c width, s.decodeAt o = .ok (c, width) ∧ s.classifier.test .newline c = .ok true

/-- The cursor has no part in it. -/
theorem EndsLine.move (h : s.EndsLine f g) (pos : Nat) :
    ({ s with pos := pos } : Scanner).EndsLine f g := by
  cases h with
  | stopped hf hg => exact .stopped hf hg
  | single hc hbytes hcr => exact .single hc hbytes hcr
  | pair hcr hbytes => exact .pair hcr hbytes

theorem LineEnd.ahead (h : s.LineEnd ending) : s.Ahead ending := by
  cases h with
  | nothing => exact ahead_nil s
  | single hahead => exact hahead
  | pair hahead => exact hahead

/-- Where the search for a line end stops, what is consumed is a line end. -/
theorem LineEnd.endsLine (h : s.LineEnd ending) (hstops : s.StopsLine s.pos) :
    s.EndsLine s.pos (s.past ending).pos := by
  have hnewline {c : Char} (hahead : s.Ahead [c]) : s.classifier.test .newline c = .ok true := by
    have hread := decodeAt_pos_eq_ok_iff.mpr ⟨rfl, hahead⟩
    obtain hend | ⟨d, width, hdecode, hd⟩ := hstops
    · exact absurd hahead (not_ahead_of_atEnd (atEnd_iff.mpr hend))
    · cases hread.symm.trans hdecode
      exact hd
  cases h with
  | nothing h => exact .stopped (atEnd_iff.mp h) (atEnd_iff.mp h)
  | @single c hahead hcr =>
      refine .single (hnewline hahead) (Buffer.between_of_prefix hahead) fun hc => ?_
      obtain hend | ⟨d, hd, hnext⟩ := hcr hc
      · exact Or.inl (atEnd_iff.mp hend)
      · exact Or.inr ⟨d, _, decodeAt_pos_eq_ok_iff.mpr ⟨rfl, hnext⟩, hd⟩
  | pair hahead =>
      exact .pair (hnewline (ahead_cons_iff.mp hahead).1) (Buffer.between_of_prefix hahead)

/-- A line end is consumed, and the search for one stops at it. -/
theorem EndsLine.exists_lineEnd (hs : s.Inside) (h : s.EndsLine s.pos g) (hle : s.pos ≤ g)
    (hstop : g ≤ s.stop) :
    (∃ ending, s.LineEnd ending ∧ g = (s.past ending).pos) ∧ s.StopsLine s.pos := by
  cases h with
  | stopped hf hg =>
      exact ⟨⟨[], .nothing (atEnd_iff.mpr hf), hg.trans hf.symm⟩, Or.inl hf⟩
  | @single c hc hbytes hcr =>
      obtain ⟨hahead, rfl⟩ := (ahead_iff_between hs).mpr ⟨hle, hstop, hbytes⟩
      refine ⟨⟨[c], .single hahead fun h => ?_, rfl⟩,
        Or.inr ⟨c, _, decodeAt_pos_eq_ok_iff.mpr ⟨rfl, hahead⟩, hc⟩⟩
      obtain hend | ⟨d, width, hdecode, hd⟩ := hcr h
      · exact Or.inl (atEnd_iff.mpr hend)
      · have hnext : (s.past [c]).decodeAt (s.past [c]).pos = .ok (d, width) := hdecode
        exact Or.inr ⟨d, hd, (decodeAt_pos_eq_ok_iff.mp hnext).2⟩
  | pair hcr hbytes =>
      obtain ⟨hahead, rfl⟩ := (ahead_iff_between hs).mpr ⟨hle, hstop, hbytes⟩
      have hread := decodeAt_pos_eq_ok_iff.mpr ⟨rfl, (ahead_cons_iff.mp hahead).1⟩
      exact ⟨⟨_, .pair hahead, rfl⟩, Or.inr ⟨'\r', _, hread, hcr⟩⟩

/-- Where a line and its end are read, a line is ahead. -/
theorem lineAhead_of_passes {text : List Char} (hs : s.Inside)
    (hpasses : s.Passes (CharTest.negate (s.classifier.test .newline)) s.pos text f)
    (hending : ({ s with pos := f } : Scanner).LineEnd ending) :
    s.LineAhead f (({ s with pos := f } : Scanner).past ending).pos := by
  obtain ⟨hline, hall, hstops⟩ := (passes_negate_iff hs).mp hpasses
  obtain ⟨hpos, hstop, hbetween⟩ := (ahead_iff_between hs).mp hline
  obtain ⟨hle, hend, _⟩ := (ahead_iff_between (hs.forward hpos hstop)).mp ⟨hending.ahead, rfl⟩
  have hcharacters : (s.view s.pos f).characters = .ok text :=
    charactersFrom_of_between (Nat.le_trans hstop hs.stop_le_size) hbetween
  exact ⟨hpos, hle, hend, ⟨text, hcharacters, hbetween, hall⟩,
    (LineEnd.endsLine hending hstops).move s.pos⟩

/-- Where a line is ahead, it is what the search for its end goes over, and its end is consumed. -/
theorem LineAhead.exists_passes (hs : s.Inside) (h : s.LineAhead f g) :
    (∃ text, s.Passes (CharTest.negate (s.classifier.test .newline)) s.pos text f) ∧
      ∃ ending, ({ s with pos := f } : Scanner).LineEnd ending ∧
        { s with pos := g } = ({ s with pos := f } : Scanner).past ending := by
  have hstop := Nat.le_trans h.le h.le_stop
  have hmid := hs.forward h.pos_le hstop
  obtain ⟨⟨ending, hending, hg⟩, hstops⟩ := (h.ends.move f).exists_lineEnd hmid h.le h.le_stop
  obtain ⟨text, _, hbetween, hall⟩ := h.line
  have hline := (ahead_iff_between hs).mpr ⟨h.pos_le, hstop, hbetween⟩
  exact ⟨⟨text, (passes_negate_iff hs).mpr ⟨hline, hall, hstops⟩⟩, ending, hending,
    by rw [hg]; rfl⟩

theorem readLine_iff_lineAhead (hs : s.Inside) {t : Scanner} {required : Bool} :
    readLine required s = .ok t left ↔ ∃ f g, s.LineAhead f g ∧
      (required = true → f < s.stop) ∧ t = s.view s.pos f ∧ left = { s with pos := g } := by
  rw [readLine_eq_ok_iff]
  constructor
  · intro h
    obtain ⟨mid, hread, ending, hending, rfl⟩ := h
    obtain ⟨rfl, hmid, ⟨text, hpasses⟩, hrequired⟩ :=
      (readUntil_eq_ok_iff hs.pos_le_stop).mp hread
    rw [hmid] at hending ⊢
    exact ⟨_, _, lineAhead_of_passes hs hpasses hending, hrequired, rfl, rfl⟩
  · intro h
    obtain ⟨f, g, hline, hrequired, rfl, rfl⟩ := h
    obtain ⟨hpasses, hending⟩ := hline.exists_passes hs
    exact ⟨{ s with pos := f },
      (readUntil_eq_ok_iff hs.pos_le_stop).mpr ⟨rfl, rfl, hpasses, hrequired⟩, hending⟩

/-- Reading a line goes on if the window does. -/
theorem LineAhead.lt (h : s.LineAhead f g) (hlt : s.pos < s.stop) : s.pos < g := by
  have hpos := h.pos_le
  have hconsumed {c : Char} {chars : List Char}
      (hbytes : s.buffer.between f g = spell (c :: chars)) : f < g :=
    Buffer.lt_of_between_ne_nil (by rw [hbytes]; exact spell_cons_ne_nil c chars)
  cases h.ends with
  | stopped hf hg => omega
  | single hc hbytes hcr => exact Nat.lt_of_le_of_lt hpos (hconsumed hbytes)
  | pair hcr hbytes => exact Nat.lt_of_le_of_lt hpos (hconsumed hbytes)

/-- **In every reachable state, reading a line accounts for every byte, whatever the classifier
calls a line end.**  It succeeds exactly where a line is ahead, with a line end if one is required,
returns the line, and moves the cursor behind what ends it.  No character of the line is a line
end, and the cursor moves if the window goes on.  The buffer may hold any bytes, and the window may
end between CR and LF. -/
theorem Reachable.run_readLine_iff (hroot : ofBuffer b maxSize k = .ok root)
    (h : root.Reachable s) (required : Bool) :
    (∀ value left, (Command.readLine required).run s = .ok value left ↔
      ∃ f g, s.LineAhead f g ∧ (required = true → f < s.stop) ∧
        value = .scanner (s.view s.pos f) ∧ left = { s with pos := g }) ∧
    ∀ f g, s.LineAhead f g → s.pos < s.stop → s.pos < g := by
  have hs := h.inside (inside_of_ofBuffer hroot)
  refine ⟨?_, fun f g hline => hline.lt⟩
  intro value left
  show (readLine required >>= fun line => pure (Value.scanner line)) s = .ok value left ↔ _
  rw [returning_eq_ok_iff]
  constructor
  · intro hrun
    obtain ⟨line, hread, rfl⟩ := hrun
    obtain ⟨f, g, hline, hrequired, rfl, rfl⟩ := (readLine_iff_lineAhead hs).mp hread
    exact ⟨f, g, hline, hrequired, rfl, rfl⟩
  · intro hrun
    obtain ⟨f, g, hline, hrequired, rfl, rfl⟩ := hrun
    exact ⟨_, (readLine_iff_lineAhead hs).mpr ⟨f, g, hline, hrequired, rfl, rfl⟩, rfl⟩

/-- To the classifier CR is the only line end.  CR LF ends the line, and CR alone does in a window
that ends between them.  The bytes behind them are malformed. -/
theorem Reachable.run_readLine_iff_between :
    let root : Scanner :=
      ⟨.ofList [0x61, 0x0D, 0x0A, 0xC3, 0x28], 0, 5, 0, .listed fun _ => "\r"⟩
    let part := root.view 0 2
    ofBuffer root.buffer 5 root.classifier = .ok root ∧ root.Reachable root ∧ root.Reachable part ∧
      (Command.readLine true).run root
        = .ok (.scanner (root.view 0 1)) { root with pos := 3 } ∧ root.LineAhead 1 3 ∧
      (Command.readLine true).run part
        = .ok (.scanner (part.view 0 1)) { part with pos := 2 } ∧ part.LineAhead 1 2 := by
  intro root part
  have hroot : ofBuffer root.buffer 5 root.classifier = .ok root := by cbv
  have hpart : root.Reachable part := by
    have hrun : (Command.subScanner 0 2).run root = .ok (.scanner part) root := by cbv
    exact .returned .root hrun
  have hrun : (Command.readLine true).run root
      = .ok (.scanner (root.view 0 1)) { root with pos := 3 } := by cbv
  have hrun' : (Command.readLine true).run part
      = .ok (.scanner (part.view 0 1)) { part with pos := 2 } := by cbv
  obtain ⟨f, g, hline, _, hvalue, hleft⟩ :=
    ((Reachable.run_readLine_iff hroot .root true).1 _ _).mp hrun
  obtain ⟨f', g', hline', _, hvalue', hleft'⟩ :=
    ((Reachable.run_readLine_iff hroot hpart true).1 _ _).mp hrun'
  obtain rfl : 1 = f := congrArg Scanner.stop (Value.scanner.inj hvalue)
  obtain rfl : 3 = g := congrArg Scanner.pos hleft
  obtain rfl : 1 = f' := congrArg Scanner.stop (Value.scanner.inj hvalue')
  obtain rfl : 2 = g' := congrArg Scanner.pos hleft'
  exact ⟨hroot, .root, hpart, hrun, hline, hrun', hline'⟩

end Scanner

end Utf8Scan
