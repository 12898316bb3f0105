/-
Reading lines and numbering them.

A scanner that reads a line looks for a character that the classifier calls a line end,
and takes CR LF for one.  A buffer that numbers lines counts LF bytes from its start and
knows neither characters nor CR.  The two agree on a text in which LF is the only line
end, alone or behind a CR.

The invariant is that the cursor stands at the start of a line of the text.  A read keeps
it and goes on by one line if it consumes a line end, and a read that does not is the
last.  So the reads number the lines as the buffer does, and there is one more of them
than line ends exactly if the text ends in the middle of a line.
-/
import Utf8Scan.Proofs.TextLines
import Utf8Scan.Proofs.TextPlace

namespace Utf8Scan

/-! ### Texts whose line ends are LF -/

/-- LF is the only line end of a text, alone or behind a CR. -/
structure EndsLinesWithFeed (chars : List Char) : Prop where
  newline : ∀ c ∈ chars, Classifier.unicode.test .newline c = .ok true → c = '\n' ∨ c = '\r'
  carriage : ∀ before after, chars = before ++ '\r' :: after → ['\n'] <+: after

section Counting

variable {chars before line : List Char} {n : Nat}

theorem EndsLinesWithFeed.drop (h : EndsLinesWithFeed chars) (n : Nat) :
    EndsLinesWithFeed (chars.drop n) where
  newline c hc := h.newline c (List.mem_of_mem_drop hc)
  carriage before after hdrop := by
    refine h.carriage (chars.take n ++ before) after ?_
    rw [List.append_assoc, ← hdrop, List.take_append_drop]

/-- The default classifier knows the line ends that reading a line is about. -/
theorem test_newline (c : Char) : Classifier.unicode.test .newline c = .ok (isNewline c) := by
  simp [Classifier.test, Classifier.unicode, holds_newline]

/-- What ends a line ends with the LF that the line numbers count. -/
theorem EndsLinesWithFeed.lineEnding_eq (h : EndsLinesWithFeed chars)
    (hhead : ∀ c ∈ chars.head?, isNewline c = true) (hne : chars ≠ []) :
    ∃ init, '\n' ∉ init ∧ lineEnding chars = init ++ ['\n'] := by
  cases chars with
  | nil => exact absurd rfl hne
  | cons c rest =>
      have hnewline : Classifier.unicode.test .newline c = .ok true := by
        rw [test_newline, hhead c rfl]
      rcases h.newline c List.mem_cons_self hnewline with rfl | rfl
      · exact ⟨[], List.not_mem_nil, lineEnding_singleton nofun⟩
      · obtain ⟨after, rfl⟩ := h.carriage [] rest rfl
        exact ⟨['\r'], by decide, rfl⟩

theorem lineAfter_append (before : List Char) (hline : '\n' ∉ line) :
    lineAfter (before ++ line) = lineAfter before := by
  rw [lineAfter, List.count_append, List.count_eq_zero_of_not_mem hline, Nat.add_zero, lineAfter]

theorem lineAfter_concat_feed (before : List Char) :
    lineAfter (before ++ ['\n']) = lineAfter before + 1 := by
  rw [lineAfter, List.count_append, List.count_singleton_self, lineAfter]

theorem columnAfter_concat_feed (before : List Char) : columnAfter (before ++ ['\n']) = 0 := by
  rw [columnAfter, List.rtakeWhile_concat_neg _ _ _ (by decide), List.length_nil]

/-- No character stands behind the last line end if the last character is one. -/
theorem columnAfter_eq_zero_iff :
    columnAfter chars = 0 ↔ ∀ c ∈ chars.getLast?, c = '\n' := by
  induction chars using List.reverseRecOn with
  | nil => simp [columnAfter]
  | append_singleton chars c _ =>
      simp only [List.getLast?_concat, Option.mem_some_iff, forall_eq']
      by_cases hc : c = '\n'
      · rw [hc]
        exact iff_of_true (columnAfter_concat_feed chars) rfl
      · rw [columnAfter, List.rtakeWhile_concat_pos _ _ _ (by simpa using hc), List.length_append]
        exact iff_of_false (Nat.succ_ne_zero _) hc

/-- A text ends in the middle of a line if its last character is there and is no LF. -/
theorem endsInLine_iff {text : String} :
    (text ≠ "" ∧ text.toList.getLast? ≠ some '\n') ↔ columnAfter text.toList ≠ 0 := by
  rw [Ne, Ne, Ne, columnAfter_eq_zero_iff, ← String.toList_eq_nil_iff]
  cases hlast : text.toList.getLast? with
  | none => simp [List.getLast?_eq_none_iff.mp hlast]
  | some c =>
      have hne : text.toList ≠ [] := by
        intro hnil
        rw [hnil] at hlast
        cases hlast
      simp [hne]

end Counting

/-! ### Calls that read a line -/

/-- One call that reads a line: the scanner before it, what it returned, and the scanner after
it. -/
structure LineCall where
  before : Scanner
  line : Scanner
  after : Scanner

/-- Reading lines for as long as the window goes on, call by call. -/
inductive Scanner.CallsReadLine : Scanner → List LineCall → Scanner → Prop
  | done {s : Scanner} (hend : s.atEnd = true) : CallsReadLine s [] s
  | call {s line after last : Scanner} {calls : List LineCall} (hopen : s.atEnd = false)
      (hrun : (Command.readLine false).run s = .ok (.scanner line) after)
      (hrest : CallsReadLine after calls last) : CallsReadLine s (⟨s, line, after⟩ :: calls) last

namespace Scanner.CallsReadLine

variable {s last last' : Scanner} {calls calls' : List LineCall}

theorem atEnd (h : s.CallsReadLine calls last) : last.atEnd = true := by
  induction h with
  | done hend => exact hend
  | call _ _ _ ih => exact ih

theorem unique (h : s.CallsReadLine calls last) (h' : s.CallsReadLine calls' last') :
    calls' = calls ∧ last' = last := by
  induction h generalizing calls' last' with
  | done hend =>
      cases h' with
      | done => exact ⟨rfl, rfl⟩
      | call hopen => exact absurd (hend.symm.trans hopen) nofun
  | call hopen hrun _ ih =>
      cases h' with
      | done hend => exact absurd (hend.symm.trans hopen) nofun
      | call _ hrun' hrest' =>
          obtain ⟨hvalue, rfl⟩ := EStateM.Result.ok.inj (hrun.symm.trans hrun')
          obtain rfl := Value.scanner.inj hvalue
          obtain ⟨rfl, rfl⟩ := ih hrest'
          exact ⟨rfl, rfl⟩

end Scanner.CallsReadLine

/-- The call has read something behind the line. -/
def LineCall.Consumes (call : LineCall) : Prop := call.line.stop < call.after.pos

/-- The call reads the line that the buffer gives a number, counted from zero, and goes on to the
start of the next line if it consumes a line end. -/
structure LineCall.Numbered (call : LineCall) (n : Nat) : Prop where
  start : call.line.start = call.before.pos
  lineColumn : call.before.lineColumn (some call.line.start) = .ok (n + 1, 1)
  next : call.Consumes → call.after.lineColumn none = .ok (n + 2, 1)

/-! ### The start of a line -/

namespace TextScanner

variable {r : TextScanner} {n : Nat}

/-- A scanner for the rest of a text whose cursor is at the start of a line. -/
structure AtLine (r : TextScanner) (n : Nat) : Prop where
  valid : r.Valid
  classifier : r.classifier = .unicode
  stop : r.stop = r.chars.length
  feed : EndsLinesWithFeed r.chars
  line : lineAfter (r.chars.take r.pos) = n
  column : columnAfter (r.chars.take r.pos) = 0

theorem AtLine.rest_eq (h : r.AtLine n) : r.rest = r.chars.drop r.pos := by
  rw [rest, segment, h.stop, List.take_length]

theorem AtLine.lineColumn (h : r.AtLine n) :
    r.encode.lineColumn (some r.encode.pos) = .ok (n + 1, 1) := by
  have hpos : r.pos ≤ r.chars.length := Nat.le_trans h.valid.pos_le_stop h.valid.stop_le_length
  have hholds := h.valid.spans.holds
  have hplaces := (Buffer.places_of_le (hholds.offsetOf_le_size hpos)).lineColumnOf
  rw [hholds.line_offsetOf hpos, hholds.column_offsetOf hpos, h.line, h.column] at hplaces
  show (r.encode.buffer.lineColumnOf (offsetOf r.chars r.pos)).mapError .argument = _
  rw [hplaces]
  rfl

/-- Behind the next LF stands the start of the next line. -/
theorem AtLine.next (h : r.AtLine n) {line : List Char} (hline : '\n' ∉ line)
    (hrest : line ++ ['\n'] <+: r.rest) :
    ({ r with pos := r.pos + (line ++ ['\n']).length } : TextScanner).AtLine (n + 1) := by
  have htake : r.chars.take (r.pos + (line ++ ['\n']).length)
      = r.chars.take r.pos ++ line ++ ['\n'] := by
    rw [List.take_add, ← h.rest_eq, ← List.prefix_iff_eq_take.mp hrest, List.append_assoc]
  refine ⟨h.valid.move (h.valid.covers_add hrest.length_le), h.classifier, h.stop, h.feed, ?_, ?_⟩
  · show lineAfter (r.chars.take (r.pos + (line ++ ['\n']).length)) = n + 1
    rw [htake, lineAfter_concat_feed, lineAfter_append _ hline, h.line]
  · show columnAfter (r.chars.take (r.pos + (line ++ ['\n']).length)) = 0
    rw [htake, columnAfter_concat_feed]

/-- A text of which nothing is left ends here, at the start of a line. -/
theorem AtLine.stops (h : r.AtLine n) (hnil : r.rest = []) :
    lineAfter r.chars = n ∧ columnAfter r.chars = 0 := by
  have hall : r.chars.take r.pos = r.chars := by
    rw [h.rest_eq, List.drop_eq_nil_iff] at hnil
    exact List.take_of_length_le hnil
  have hline := h.line
  have hcolumn := h.column
  rw [hall] at hline hcolumn
  exact ⟨hline, hcolumn⟩

/-- A text without a further LF ends on its current line, and in the middle of it. -/
theorem AtLine.ends (h : r.AtLine n) (hne : r.rest ≠ []) (hfeed : '\n' ∉ r.rest) :
    lineAfter r.chars = n ∧ columnAfter r.chars ≠ 0 := by
  have happend : r.chars = r.chars.take r.pos ++ r.rest := by
    rw [h.rest_eq, List.take_append_drop]
  constructor
  · rw [happend, lineAfter_append _ hfeed, h.line]
  · intro hcolumn
    rw [columnAfter_eq_zero_iff, happend, List.getLast?_append_of_ne_nil _ hne] at hcolumn
    have hlast := List.getLast?_eq_some_getLast hne
    refine hfeed ?_
    rw [← hcolumn _ hlast]
    exact List.getLast_mem hne

/-- What a line of the text is, and what stands behind it. -/
theorem AtLine.split (h : r.AtLine n) : ∃ text tail, text ++ tail = r.rest ∧
    r.runLength (fun c => !isNewline c) = text.length ∧ '\n' ∉ text ∧
    (tail ≠ [] → ∃ init, '\n' ∉ init ∧ lineEnding tail = init ++ ['\n']) := by
  refine ⟨r.rest.takeWhile fun c => !isNewline c, r.rest.dropWhile fun c => !isNewline c,
    List.takeWhile_append_dropWhile, rfl, ?_, ?_⟩
  · intro hmem
    have hpass := isNewline_of_mem_takeWhile r.rest '\n' hmem
    exact absurd hpass (by decide)
  · intro htail
    have hfeed : EndsLinesWithFeed (r.rest.dropWhile fun c => !isNewline c) := by
      rw [← drop_runLength, h.rest_eq]
      exact (h.feed.drop _).drop _
    exact hfeed.lineEnding_eq (isNewline_of_mem_head?_dropWhile r.rest) htail

/-- A call that finds no line end is the last, and the text ends in the middle of its line. -/
theorem AtLine.readLine_last (h : r.AtLine n) (hne : r.rest ≠ [])
    (hlength : r.runLength (fun c => !isNewline c) = r.rest.length) (hfeed : '\n' ∉ r.rest) :
    ∃ (line : Scanner) (after : TextScanner),
      (Command.readLine false).run r.encode = .ok (.scanner line) after.encode ∧
      LineCall.Numbered ⟨r.encode, line, after.encode⟩ n ∧
      after.encode.atEnd = true ∧ lineAfter r.chars = n ∧ columnAfter r.chars ≠ 0 := by
  have hrun := readLine_run_eq h.valid h.classifier hlength rfl
  rw [List.drop_length] at hrun
  have hmoved := h.valid.move (h.valid.covers_add (Nat.le_refl _))
  have hend : ({ r with pos := r.pos + r.rest.length } : TextScanner).encode.atEnd = true := by
    rw [atEnd_encode hmoved, rest_move, List.drop_length, List.isEmpty_nil]
  refine ⟨_, { r with pos := r.pos + r.rest.length }, hrun, ⟨rfl, h.lineColumn, ?_⟩, hend,
    h.ends hne hfeed⟩
  intro hconsumes
  exact absurd hconsumes (Nat.lt_irrefl _)

/-- A call that finds a line end consumes it, and the cursor is at the start of the next line. -/
theorem AtLine.readLine_next (h : r.AtLine n) {text tail init : List Char}
    (happend : text ++ tail = r.rest)
    (hlength : r.runLength (fun c => !isNewline c) = text.length)
    (hending : lineEnding tail = init ++ ['\n']) (hfeed : '\n' ∉ text ++ init) :
    ∃ (line : Scanner) (after : TextScanner), after.chars = r.chars ∧
      (Command.readLine false).run r.encode = .ok (.scanner line) after.encode ∧
      LineCall.Numbered ⟨r.encode, line, after.encode⟩ n ∧
      LineCall.Consumes ⟨r.encode, line, after.encode⟩ ∧
      after.rest.length < r.rest.length ∧ after.AtLine (n + 1) := by
  have hrun := readLine_run_eq h.valid h.classifier hlength rfl
  rw [← happend, List.drop_left, hending, Nat.add_assoc, ← List.length_append,
    ← List.append_assoc] at hrun
  have hprefix : text ++ init ++ ['\n'] <+: r.rest := by
    rw [← happend, List.append_assoc, ← hending, List.prefix_append_right_inj]
    exact ⟨_, lineEnding_append tail⟩
  have hnext := h.next hfeed hprefix
  have hle := Nat.le_trans hnext.valid.pos_le_stop hnext.valid.stop_le_length
  have hless : text.length < (text ++ init ++ ['\n']).length := by
    rw [List.length_append, List.length_append, List.length_singleton]
    omega
  refine ⟨_, { r with pos := r.pos + (text ++ init ++ ['\n']).length }, rfl, hrun,
    ⟨rfl, h.lineColumn, fun _ => hnext.lineColumn⟩, ?_, ?_, hnext⟩
  · exact offsetOf_lt (Nat.add_lt_add_left hless r.pos) hle
  · have hshort := hprefix.length_le
    rw [rest_move, List.length_drop]
    omega

/-- All calls from the start of a line on: they are numbered from there, every one but the last
consumes a line end, and so does the last unless the text ends in the middle of its line. -/
theorem AtLine.exists_calls (h : r.AtLine n) :
    ∃ calls last, r.encode.CallsReadLine calls last ∧
      (∀ (k : Nat) (call : LineCall), calls[k]? = some call →
        call.Numbered (n + k) ∧ (k + 1 < calls.length → call.Consumes)) ∧
      calls.length + n = lineAfter r.chars + if columnAfter r.chars = 0 then 0 else 1 := by
  induction hleft : r.rest.length using Nat.strong_induction_on generalizing r n with
  | _ left ih =>
      have hend := atEnd_encode h.valid
      by_cases hnil : r.rest = []
      · obtain ⟨hline, hcolumn⟩ := h.stops hnil
        rw [hnil, List.isEmpty_nil] at hend
        refine ⟨[], r.encode, .done hend, nofun, ?_⟩
        rw [hline, if_pos hcolumn, List.length_nil, Nat.zero_add, Nat.add_zero]
      have hopen : r.encode.atEnd = false := by
        rw [hend, List.isEmpty_eq_false_iff]
        exact hnil
      obtain ⟨text, tail, happend, hlength, hfeed, hending⟩ := h.split
      by_cases htail : tail = []
      · rw [htail, List.append_nil] at happend
        rw [happend] at hlength hfeed
        obtain ⟨line, after, hrun, hnumbered, hdone, hline, hcolumn⟩ :=
          h.readLine_last hnil hlength hfeed
        refine ⟨_, _, .call hopen hrun (.done hdone), ?_, ?_⟩
        · intro k call hk
          cases k with
          | zero =>
              obtain rfl := Option.some.inj hk
              exact ⟨hnumbered, fun hlt => absurd hlt (Nat.lt_irrefl _)⟩
          | succ k => cases hk
        · rw [if_neg hcolumn, hline, List.length_singleton, Nat.add_comm]
      · obtain ⟨init, hinit, heq⟩ := hending htail
        have hline : '\n' ∉ text ++ init := by
          rw [List.mem_append]
          exact not_or.mpr ⟨hfeed, hinit⟩
        obtain ⟨line, after, hchars, hrun, hnumbered, hconsumes, hless, hnext⟩ :=
          h.readLine_next happend hlength heq hline
        obtain ⟨calls, last, hcalls, hall, hcount⟩ := ih _ (hleft ▸ hless) hnext rfl
        refine ⟨_, last, .call hopen hrun hcalls, ?_, ?_⟩
        · intro k call hk
          cases k with
          | zero =>
              obtain rfl := Option.some.inj hk
              exact ⟨hnumbered, fun _ => hconsumes⟩
          | succ k =>
              obtain ⟨hcall, hrest⟩ := hall k call hk
              rw [Nat.add_assoc, Nat.add_comm 1] at hcall
              exact ⟨hcall, fun hlt => hrest (Nat.lt_of_succ_lt_succ hlt)⟩
        · rw [hchars] at hcount
          rw [List.length_cons]
          omega

end TextScanner

theorem TextScanner.atLine_ofText {text : String} (h : EndsLinesWithFeed text.toList) :
    (TextScanner.ofText text .unicode).AtLine 0 :=
  ⟨TextSession.valid_ofText text .unicode, rfl, rfl, h, rfl, rfl⟩

/-- **Reading the lines of a text numbers them as its buffer does.**  Where LF is the only line end
of a text, alone or behind a CR, the reads until the window ends start at lines one, two and so on,
each in its first column, and behind a line end that a read consumes the next line starts.  There
are as many reads as the buffer counts lines, and one more exactly if the text is not empty and
does not end with LF. -/
theorem callsReadLine_lineColumn {text : String} {maxSize : Int} {root : Scanner}
    (htext : EndsLinesWithFeed text.toList)
    (hroot : Scanner.ofBuffer (.ofString text) maxSize .unicode = .ok root) :
    ∃ calls last, (root.CallsReadLine calls last ∧ last.atEnd = true) ∧
      (∀ calls' last', root.CallsReadLine calls' last' → calls' = calls ∧ last' = last) ∧
      (∀ (k : Nat) (call : LineCall), calls[k]? = some call →
        call.Numbered k ∧ (k + 1 < calls.length → call.Consumes)) ∧
      ∃ lines, (Buffer.ofString text).lineOf (Buffer.ofString text).size = .ok lines ∧
        calls.length
          = lines + if text ≠ "" ∧ text.toList.getLast? ≠ some '\n' then 1 else 0 := by
  obtain ⟨⟨hsize, _⟩, _⟩ := Scanner.ofBuffer_eq_ok_iff.mp hroot
  obtain rfl := Except.ok.inj (hroot.symm.trans (TextSession.ofBuffer_ofString hsize .unicode))
  obtain ⟨calls, last, hcalls, hall, hcount⟩ := (TextScanner.atLine_ofText htext).exists_calls
  have hlines := (Buffer.ofString_places text text.toList.length (Nat.le_refl _)).lineOf
  rw [List.take_length, ← (Buffer.holds_ofString text).size_eq] at hlines
  refine ⟨calls, last, ⟨hcalls, hcalls.atEnd⟩, fun _ _ h => hcalls.unique h, ?_, _, hlines, ?_⟩
  · intro k call hk
    obtain ⟨hcall, hconsumes⟩ := hall k call hk
    rw [Nat.zero_add] at hcall
    exact ⟨hcall, hconsumes⟩
  · rw [Nat.add_zero] at hcount
    rw [hcount]
    show lineAfter text.toList + (if columnAfter text.toList = 0 then 0 else 1) = _
    by_cases hcolumn : columnAfter text.toList = 0
    · rw [if_pos hcolumn, if_neg (mt endsInLine_iff.mp (not_not_intro hcolumn))]
    · rw [if_neg hcolumn, if_pos (endsInLine_iff.mpr hcolumn)]

/-- A line end that is CR LF, an empty line, and a last line without a line end. -/
theorem callsReadLine_lineColumn_crlf :
    let text := "a\r\n\nb"
    EndsLinesWithFeed text.toList ∧ (Buffer.ofString text).lineOf 5 = .ok 2 ∧
      ∃ root calls last, Scanner.ofBuffer (.ofString text) 5 .unicode = .ok root ∧
        root.CallsReadLine calls last ∧ calls.length = 3 ∧
        ∀ (k : Nat) (call : LineCall), calls[k]? = some call → call.Numbered k := by
  intro text
  have htext : EndsLinesWithFeed text.toList := by
    have hlist : text.toList = ['a', '\r', '\n', '\n', 'b'] := by decide
    rw [hlist]
    refine ⟨?_, ?_⟩
    · simp [test_newline, isNewline, newlines]
    · intro before after h
      have h : before = ['a'] ∧ after = ['\n', '\n', 'b'] := by
        simpa [List.cons_eq_append_iff] using h
      rw [h.2]
      exact ⟨_, rfl⟩
  have hroot : Scanner.ofBuffer (.ofString text) 5 .unicode = .ok _ :=
    TextSession.ofBuffer_ofString (by decide) .unicode
  obtain ⟨calls, last, ⟨hcalls, _⟩, _, hall, lines, hlines, hcount⟩ :=
    callsReadLine_lineColumn htext hroot
  have htwo : (Buffer.ofString text).lineOf 5 = .ok 2 := by decide
  obtain rfl : lines = 2 := Except.ok.inj (hlines.symm.trans htwo)
  refine ⟨htext, htwo, _, calls, last, hroot, hcalls, ?_, fun k call hk => (hall k call hk).1⟩
  rw [hcount]
  decide

end Utf8Scan
