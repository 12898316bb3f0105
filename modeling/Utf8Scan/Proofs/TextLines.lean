/-
Lines of a text.

`IsSplit` says what it means to split a text into lines: each line is a text without
line ends and one line end behind it, CR LF counts as one, and only the last line may
have none.  There is one such split and no other, because what a text starts with
determines its first line: the characters before the first line end, and what ends
there.

Reading a line does just that to the characters that are left, so reading lines until
the window ends gives the split.  Every read consumes something, so the reading ends.
-/
import Utf8Scan.Proofs.RangeTable
import Utf8Scan.Proofs.TextSession

namespace Utf8Scan

/-! ### Line ends -/

/-- The characters that end a line. -/
def newlines : List Char := ['\n', '\x0B', '\x0C', '\r', '\u0085', '\u2028', '\u2029']

def isNewline (c : Char) : Bool := newlines.contains c

/-- The character database knows the same line ends. -/
theorem holds_newline (c : Char) : Property.newline.holds c.toNat = isNewline c := by
  have hchar (d : Char) : c = d ↔ c.toNat = d.toNat := Char.toNat_inj.symm
  rw [Bool.eq_iff_iff, Property.holds_iff]
  simp only [Property.tables, Unicode.RangeTable.Holds, Unicode.lineEnd, isNewline, newlines,
    List.contains_iff_mem, List.mem_cons, List.not_mem_nil, or_false, exists_eq_or_imp,
    exists_eq_left, hchar]
  simp only [Char.reduceToNat]
  omega

/-- No character of the first line ends it. -/
theorem isNewline_of_mem_takeWhile (chars : List Char) :
    ∀ c ∈ chars.takeWhile (fun c => !isNewline c), isNewline c = false := by
  intro c hc
  simpa using List.mem_takeWhile_imp hc

/-- Behind the first line there is nothing, or a line end. -/
theorem isNewline_of_mem_head?_dropWhile (chars : List Char) :
    ∀ c ∈ (chars.dropWhile fun c => !isNewline c).head?, isNewline c = true := by
  intro c hc
  have hhead := List.head?_dropWhile_not (fun c => !isNewline c) chars
  rw [hc] at hhead
  simpa using hhead

/-- What the first line end of a text is, if the text starts with one. -/
def lineEnding : List Char → List Char
  | [] => []
  | '\r' :: '\n' :: _ => ['\r', '\n']
  | c :: _ => [c]

theorem lineEnding_append (tail : List Char) :
    lineEnding tail ++ tail.drop (lineEnding tail).length = tail := by
  fun_cases lineEnding tail with
  | case1 => rfl
  | case2 rest => rfl
  | case3 c rest hcrlf => rfl

theorem lineEnding_length_le (tail : List Char) : (lineEnding tail).length ≤ tail.length := by
  have hlength := congrArg List.length (lineEnding_append tail)
  rw [List.length_append] at hlength
  omega

theorem lineEnding_eq_take (tail : List Char) :
    tail.take (lineEnding tail).length = lineEnding tail :=
  (List.prefix_iff_eq_take.mp ⟨_, lineEnding_append tail⟩).symm

theorem lineEnding_eq_nil_iff {tail : List Char} : lineEnding tail = [] ↔ tail = [] := by
  fun_cases lineEnding tail with
  | case1 => simp
  | case2 rest => simp
  | case3 c rest hcrlf => simp

theorem lineEnding_length_pos {tail : List Char} (h : tail ≠ []) : 0 < (lineEnding tail).length :=
  List.length_pos_iff.mpr (mt lineEnding_eq_nil_iff.mp h)

/-- Without its first line a text is shorter: it lacks that line's characters, or else its end. -/
theorem length_drop_lineEnding_lt {text tail : List Char} (h : text ++ tail ≠ []) :
    (tail.drop (lineEnding tail).length).length < (text ++ tail).length := by
  have hpos := List.length_pos_iff.mpr h
  rw [List.length_append] at hpos ⊢
  rw [List.length_drop]
  by_cases htail : tail = []
  · rw [htail, List.length_nil] at hpos ⊢
    omega
  · have hending := lineEnding_length_pos htail
    have hle := lineEnding_length_le tail
    omega

/-- A CR is taken for a line end only where no LF follows. -/
theorem lineEnding_carriage {tail : List Char} :
    lineEnding tail = ['\r'] → ¬ ['\n'] <+: tail.drop 1 := by
  fun_cases lineEnding tail with
  | case1 => nofun
  | case2 rest => nofun
  | case3 c rest hcrlf =>
      intro h
      obtain rfl : c = '\r' := List.singleton_inj.mp h
      rintro ⟨after, hafter⟩
      exact hcrlf after rfl hafter.symm

/-- A line end that is one character, or CR LF, is what its text starts with. -/
theorem lineEnding_singleton {c : Char} {rest : List Char} (h : c = '\r' → ¬ ['\n'] <+: rest) :
    lineEnding (c :: rest) = [c] := by
  unfold lineEnding
  split
  · cases ‹c :: rest = []›
  · rename_i after heq
    obtain ⟨rfl, rfl⟩ := List.cons.inj heq
    exact absurd ⟨after, rfl⟩ (h rfl)
  · rename_i heq
    obtain ⟨rfl, rfl⟩ := List.cons.inj heq
    rfl

/-! ### Splitting a text -/

/-- A line and the line end behind it, which the last line of a text may lack. -/
structure Line where
  text : List Char
  ending : List Char
  deriving DecidableEq, Repr

/-- The characters of lines with their line ends. -/
def joined (lines : List Line) : List Char := lines.flatMap fun line => line.text ++ line.ending

theorem joined_cons (line : Line) (lines : List Line) :
    joined (line :: lines) = line.text ++ (line.ending ++ joined lines) := by
  rw [joined, List.flatMap_cons, List.append_assoc, joined]

/-- A text is the lines that it is split into, and the splits are at its line ends. -/
structure IsSplit (chars : List Char) (lines : List Line) : Prop where
  joined_eq : joined lines = chars
  text : ∀ line ∈ lines, ∀ c ∈ line.text, isNewline c = false
  ending : ∀ line ∈ lines,
    line.ending = [] ∨ line.ending = ['\r', '\n'] ∨ ∃ c, isNewline c = true ∧ line.ending = [c]
  /-- Only the last line may lack its end. -/
  last : ∀ before line after, lines = before ++ line :: after → line.ending = [] → after = []
  /-- A CR that is a line end has no LF behind it. -/
  carriage : ∀ before line after, lines = before ++ line :: after → line.ending = ['\r'] →
    ¬ ['\n'] <+: joined after
  /-- No line is made of nothing, so no line follows the last line end. -/
  nonempty : ∀ line ∈ lines, line.text ++ line.ending ≠ []

namespace IsSplit

variable {chars text tail : List Char} {line : Line} {lines lines' : List Line}

theorem nil : IsSplit [] [] where
  joined_eq := rfl
  text := nofun
  ending := nofun
  last := by simp
  carriage := by simp
  nonempty := nofun

theorem eq_nil (h : IsSplit [] lines) : lines = [] := by
  cases lines with
  | nil => rfl
  | cons line rest =>
      have hjoined := h.joined_eq
      rw [joined_cons, ← List.append_assoc, List.append_eq_nil_iff] at hjoined
      exact absurd hjoined.1 (h.nonempty line List.mem_cons_self)

/-- The first line goes up to the first line end, and takes that with it. -/
theorem cons (htext : ∀ c ∈ text, isNewline c = false)
    (htail : ∀ c ∈ tail.head?, isNewline c = true) (hne : text ++ tail ≠ [])
    (h : IsSplit (tail.drop (lineEnding tail).length) lines) :
    IsSplit (text ++ tail) (⟨text, lineEnding tail⟩ :: lines) where
  joined_eq := by rw [joined_cons, h.joined_eq, lineEnding_append]
  text := List.forall_mem_cons.mpr ⟨htext, h.text⟩
  ending := by
    refine List.forall_mem_cons.mpr ⟨?_, h.ending⟩
    show lineEnding tail = [] ∨ lineEnding tail = ['\r', '\n'] ∨
      ∃ c, isNewline c = true ∧ lineEnding tail = [c]
    fun_cases lineEnding tail with
    | case1 => exact Or.inl rfl
    | case2 rest => exact Or.inr (Or.inl rfl)
    | case3 c rest hcrlf => exact Or.inr (Or.inr ⟨c, htail c rfl, rfl⟩)
  last := by
    intro before line after hlines hending
    cases before with
    | cons first before => exact h.last before line after (List.cons.inj hlines).2 hending
    | nil =>
        obtain ⟨rfl, rfl⟩ := List.cons.inj hlines
        rw [lineEnding_eq_nil_iff.mp hending, List.drop_nil] at h
        exact h.eq_nil
  carriage := by
    intro before line after hlines hending
    cases before with
    | cons first before => exact h.carriage before line after (List.cons.inj hlines).2 hending
    | nil =>
        obtain ⟨rfl, rfl⟩ := List.cons.inj hlines
        have hending : lineEnding tail = ['\r'] := hending
        have hbehind := lineEnding_carriage hending
        have hjoined := h.joined_eq
        rw [hending, List.length_singleton] at hjoined
        rwa [hjoined]
  nonempty := by
    refine List.forall_mem_cons.mpr ⟨?_, h.nonempty⟩
    show text ++ lineEnding tail ≠ []
    intro hnil
    rw [List.append_eq_nil_iff, lineEnding_eq_nil_iff] at hnil
    exact hne (List.append_eq_nil_iff.mpr hnil)

/-- What remains of a split without its first line. -/
theorem rest (h : IsSplit chars (line :: lines)) : IsSplit (joined lines) lines where
  joined_eq := rfl
  text := (List.forall_mem_cons.mp h.text).2
  ending := (List.forall_mem_cons.mp h.ending).2
  last := by
    intro before found after hlines
    exact h.last (line :: before) found after (by rw [hlines, List.cons_append])
  carriage := by
    intro before found after hlines
    exact h.carriage (line :: before) found after (by rw [hlines, List.cons_append])
  nonempty := (List.forall_mem_cons.mp h.nonempty).2

/-- The end of the first line is what the text behind it starts with. -/
theorem lineEnding_eq (h : IsSplit chars (line :: lines)) :
    lineEnding (line.ending ++ joined lines) = line.ending := by
  rcases h.ending line List.mem_cons_self with hnil | hcrlf | ⟨c, _, hc⟩
  · obtain rfl := h.last [] line lines rfl hnil
    rw [hnil]
    rfl
  · rw [hcrlf]
    rfl
  · rw [hc]
    refine lineEnding_singleton ?_
    rintro rfl
    exact h.carriage [] line lines rfl hc

/-- The first line is the characters before the first line end. -/
theorem takeWhile_eq (h : IsSplit chars (line :: lines)) :
    chars.takeWhile (fun c => !isNewline c) = line.text ∧
      chars.dropWhile (fun c => !isNewline c) = line.ending ++ joined lines := by
  have hpass : ∀ c ∈ line.text, (!isNewline c) = true := by
    intro c hc
    rw [h.text line List.mem_cons_self c hc, Bool.not_false]
  have hstop : (line.ending ++ joined lines).takeWhile (fun c => !isNewline c) = [] ∧
      (line.ending ++ joined lines).dropWhile (fun c => !isNewline c)
        = line.ending ++ joined lines := by
    rcases h.ending line List.mem_cons_self with hnil | hcrlf | ⟨c, hc, hone⟩
    · obtain rfl := h.last [] line lines rfl hnil
      rw [hnil]
      exact ⟨rfl, rfl⟩
    · rw [hcrlf]
      exact ⟨rfl, rfl⟩
    · simp [hone, hc]
  rw [← h.joined_eq, joined_cons, List.takeWhile_append_of_pos hpass,
    List.dropWhile_append_of_pos hpass, hstop.1, hstop.2, List.append_nil]
  exact ⟨rfl, rfl⟩

/-- **A text is split into lines in one way only.** -/
theorem unique (h : IsSplit chars lines) (h' : IsSplit chars lines') : lines = lines' := by
  induction lines generalizing chars lines' with
  | nil =>
      obtain rfl : [] = chars := h.joined_eq
      exact h'.eq_nil.symm
  | cons line rest ih =>
      cases lines' with
      | nil =>
          obtain rfl : [] = chars := h'.joined_eq
          exact h.eq_nil
      | cons line' rest' =>
          obtain ⟨htake, hdrop⟩ := h.takeWhile_eq
          obtain ⟨htake', hdrop'⟩ := h'.takeWhile_eq
          have htext : line.text = line'.text := htake.symm.trans htake'
          have htail : line.ending ++ joined rest = line'.ending ++ joined rest' :=
            hdrop.symm.trans hdrop'
          have hending : line.ending = line'.ending := by
            rw [← h.lineEnding_eq, ← h'.lineEnding_eq, htail]
          rw [hending, List.append_cancel_left_eq] at htail
          have hrest := h.rest
          rw [htail] at hrest
          have hline : line = line' := by
            cases line
            cases line'
            exact congrArg₂ Line.mk htext hending
          rw [hline, ih hrest h'.rest]

end IsSplit

/-! ### Reading a line of a text -/

namespace TextScanner

variable {r : TextScanner}

/-- The index behind the line end at the cursor, which is any character, or CR LF. -/
def behindLineEnd (r : TextScanner) : Nat := r.pos + (lineEnding r.rest).length

/-- Reads up to the next line end and moves behind that. -/
def readLine (r : TextScanner) (required : Bool) : Except TextError (TextScanner × Nat) :=
  (r.readUntil (CharTest.holds (r.classifier.test .newline)) .test required).map fun (line, k) =>
    (line, ({ r with pos := k } : TextScanner).behindLineEnd)

theorem rest_move (r : TextScanner) (n : Nat) :
    ({ r with pos := r.pos + n } : TextScanner).rest = r.rest.drop n := by
  rw [rest, rest, segment, segment, List.drop_drop]

/-- Behind a CR there may be nothing, an LF, or the next line. -/
theorem lineFeed_encode (hr : r.Valid) :
    (do unless (← get).atEnd do discard (Scan.matchChar "\n") : Scan Unit) r.encode
      = .ok () ({ r with pos := r.pos + ((lineEnding ('\r' :: r.rest)).length - 1) }
          : TextScanner).encode := by
  have hend := atEnd_encode hr
  have hmatch := matchChar_encode hr "\n"
  rw [Scan.get_bind]
  cases hrest : r.rest with
  | nil =>
      rw [hrest, List.isEmpty_nil] at hend
      rw [if_pos hend]
      rfl
  | cons c tail =>
      have hnext : r.next = .ok c := by simp only [next, hrest]
      rw [hrest, List.isEmpty_cons] at hend
      rw [if_neg (by simp [hend])]
      rw [matchTest, hnext] at hmatch
      by_cases hlf : c = '\n'
      · rw [hlf] at hmatch ⊢
        exact Scan.bind_of_ok hmatch
      · have hother : ("\n" = String.singleton c) = False := by
          rw [eq_iff_iff, iff_false, ← String.toList_inj, String.toList_singleton]
          intro h
          exact hlf (List.singleton_inj.mp h).symm
        have hending : lineEnding ('\r' :: c :: tail) = ['\r'] := by
          refine lineEnding_singleton ?_
          intro _ hprefix
          exact hlf (List.cons_prefix_cons.mp hprefix).1.symm
        simp only [Except.map, hother, decide_false] at hmatch
        rw [hending]
        exact Scan.bind_of_ok hmatch

theorem lineEnd_encode (hr : r.Valid) :
    Scan.lineEnd r.encode = .ok () ({ r with pos := r.behindLineEnd } : TextScanner).encode := by
  have hchar := character_encode hr
  have hend := atEnd_encode hr
  unfold behindLineEnd
  cases hrest : r.rest with
  | nil =>
      rw [hrest, List.isEmpty_nil] at hend
      rw [Scan.lineEnd, Scan.get_bind, if_pos hend]
      rfl
  | cons c tail =>
      have hnext : r.next = .ok c := by simp only [next, hrest]
      have hfirst : Scan.character r.encode
          = .ok c ({ r with pos := r.pos + 1 } : TextScanner).encode := by
        rw [hchar, hnext]
        rfl
      rw [hrest, List.isEmpty_cons] at hend
      rw [Scan.lineEnd, Scan.get_bind, if_neg (by simp [hend]), Scan.bind_of_ok hfirst]
      by_cases hcr : c = '\r'
      · have hcovers : r.Covers (r.pos + 1) := hr.covers_add (by simp [hrest])
        have htail : ({ r with pos := r.pos + 1 } : TextScanner).rest = tail := by
          rw [rest_move, hrest, List.drop_one, List.tail_cons]
        have hpos := lineEnding_length_pos (List.cons_ne_nil '\r' tail)
        have hfeed := lineFeed_encode (hr.move hcovers)
        rw [htail, Nat.add_assoc, Nat.add_sub_cancel' hpos] at hfeed
        rw [if_pos hcr, hcr]
        exact hfeed
      · rw [if_neg hcr, lineEnding_singleton fun h => absurd h hcr]
        rfl

/-- The cursor that a search by test leaves behind lies at the end of the line that it returns. -/
theorem readLine_encode (hr : r.Valid) (hk : CharTest.Total (r.classifier.test .newline))
    (required : Bool) :
    Scan.readLine required r.encode = r.result encode (r.readLine required) := by
  have huntil := readUntil_encode hr hk .test required
  unfold readLine
  cases hread : r.readUntil (CharTest.holds (r.classifier.test .newline)) .test required with
  | error e =>
      rw [hread] at huntil
      refine Scan.backtrack_of_error ?_
      refine (Scan.get_bind _ _).trans ?_
      exact Scan.bind_of_error huntil
  | ok found =>
      obtain ⟨line, k⟩ := found
      rw [hread] at huntil
      have hcovers := (stays_readUntil hr hread).1
      have hend := lineEnd_encode (hr.move hcovers)
      refine Scan.backtrack_of_ok ?_
      refine (Scan.get_bind _ _).trans ?_
      refine (Scan.bind_of_ok huntil).trans ?_
      exact Scan.bind_of_ok hend

/-- The characters in a row that pass a test, and those behind them. -/
theorem take_runLength (r : TextScanner) (test : Char → Bool) :
    r.rest.take (r.runLength test) = r.rest.takeWhile test :=
  (List.prefix_iff_eq_take.mp (List.takeWhile_prefix test)).symm

theorem drop_runLength (r : TextScanner) (test : Char → Bool) :
    r.rest.drop (r.runLength test) = r.rest.dropWhile test := by
  have happend := List.takeWhile_append_dropWhile (p := test) (l := r.rest)
  rw [← r.take_runLength test] at happend
  exact (List.append_cancel_left (happend.trans (List.take_append_drop _ r.rest).symm)).symm

/-- The search by test stops behind the characters that fail it. -/
theorem readUntil_eq (hr : r.Valid) (test : Char → Bool) (target : Target) :
    r.readUntil test target false =
      .ok (r.view r.pos (r.pos + r.runLength (fun c => !test c)),
        r.pos + r.runLength (fun c => !test c)) := by
  have hlength := hr.length_rest
  have htake : r.runLength (fun c => !test c) = min (r.rest.findIdx test) r.rest.length := by
    rw [runLength, List.takeWhile_eq_take_findIdx_not, List.length_take]
    simp only [Bool.not_not]
  unfold readUntil
  cases hfind : r.rest.findIdx? test with
  | some i =>
      obtain ⟨hlt, heq⟩ := List.findIdx?_eq_some_iff_findIdx_eq.mp hfind
      rw [htake, heq, Nat.min_eq_left (Nat.le_of_lt hlt)]
  | none =>
      have heq := List.findIdx?_eq_none_iff_findIdx_eq.mp hfind
      rw [htake, heq, Nat.min_self, hlength]
      rfl

end TextScanner

/-! ### Reading all lines -/

/-- Reading lines for as long as the window goes on.  What ends a line is what the cursor has moved
over behind it. -/
inductive Scanner.ReadsLines : Scanner → List Line → Scanner → Prop
  | done {s : Scanner} (hend : s.atEnd = true) : ReadsLines s [] s
  | line {s t after last : Scanner} {text ending : List Char} {lines : List Line}
      (hopen : s.atEnd = false)
      (hrun : (Command.readLine false).run s = .ok (.scanner t) after)
      (htext : t.text = .ok (String.ofList text))
      (hending : s.textBetween t.stop after.pos = .ok (String.ofList ending))
      (hrest : ReadsLines after lines last) : ReadsLines s (⟨text, ending⟩ :: lines) last

namespace Scanner.ReadsLines

variable {s last last' : Scanner} {lines lines' : List Line}

theorem atEnd (h : s.ReadsLines lines last) : last.atEnd = true := by
  induction h with
  | done hend => exact hend
  | line _ _ _ _ _ ih => exact ih

/-- There is one way to read the lines. -/
theorem unique (h : s.ReadsLines lines last) (h' : s.ReadsLines lines' last') :
    lines = lines' ∧ last = last' := by
  induction h generalizing lines' last' with
  | done hend =>
      cases h' with
      | done => exact ⟨rfl, rfl⟩
      | line hopen => exact absurd (hend.symm.trans hopen) nofun
  | line hopen hrun htext hending _ ih =>
      cases h' with
      | done hend => exact absurd (hend.symm.trans hopen) nofun
      | line _ hrun' htext' hending' hrest' =>
          obtain ⟨hvalue, rfl⟩ := EStateM.Result.ok.inj (hrun.symm.trans hrun')
          obtain rfl := Value.scanner.inj hvalue
          have htexts := Except.ok.inj (htext.symm.trans htext')
          have hendings := Except.ok.inj (hending.symm.trans hending')
          obtain ⟨hlines, hlast⟩ := ih hrest'
          rw [String.ofList_injective htexts, String.ofList_injective hendings, hlines, hlast]
          exact ⟨rfl, rfl⟩

end Scanner.ReadsLines

namespace TextScanner

variable {r : TextScanner}

/-- Reading a line of a text gives the characters up to the next line end, and moves behind that. -/
theorem readLine_run_eq (hr : r.Valid) (hk : r.classifier = .unicode) {n m : Nat}
    (hn : r.runLength (fun c => !isNewline c) = n)
    (hm : (lineEnding (r.rest.drop n)).length = m) :
    (Command.readLine false).run r.encode =
      .ok (.scanner (r.view r.pos (r.pos + n)).encode)
        ({ r with pos := r.pos + n + m } : TextScanner).encode := by
  have htotal : CharTest.Total (r.classifier.test .newline) := by
    rw [hk]
    exact Classifier.unicode_total .newline
  have htest : CharTest.holds (r.classifier.test .newline) = isNewline := by
    funext c
    simp [hk, ← holds_newline, CharTest.holds, Classifier.test, Classifier.unicode]
  have hbehind : ({ r with pos := r.pos + n } : TextScanner).behindLineEnd = r.pos + n + m := by
    rw [behindLineEnd, rest_move, hm]
  have hread := readLine_encode hr htotal false
  rw [readLine, htest, readUntil_eq hr, hn] at hread
  simp only [Except.map, hbehind] at hread
  exact Scan.bind_of_ok hread

/-- Reading a line of a text, in terms of the characters that are left. -/
theorem readLine_run (hr : r.Valid) (hk : r.classifier = .unicode) :
    ∃ t after : TextScanner, after.Valid ∧ after.classifier = .unicode ∧
      (Command.readLine false).run r.encode = .ok (.scanner t.encode) after.encode ∧
      t.encode.text = .ok (String.ofList (r.rest.takeWhile fun c => !isNewline c)) ∧
      r.encode.textBetween t.encode.stop after.encode.pos
        = .ok (String.ofList (lineEnding (r.rest.dropWhile fun c => !isNewline c))) ∧
      after.rest = (r.rest.dropWhile fun c => !isNewline c).drop
        (lineEnding (r.rest.dropWhile fun c => !isNewline c)).length := by
  have hn := r.runLength_le fun c => !isNewline c
  have htake := r.take_runLength fun c => !isNewline c
  have hdrop := r.drop_runLength fun c => !isNewline c
  generalize hlength : r.runLength (fun c => !isNewline c) = n at hn htake hdrop
  -- The scanner at the end of the line, and the one behind the line end.
  have hmiddle := hr.move (hr.covers_add hn)
  have hrest : ({ r with pos := r.pos + n } : TextScanner).rest = r.rest.drop n := r.rest_move n
  have hm := lineEnding_length_le (r.rest.drop n)
  generalize hending : lineEnding (r.rest.drop n) = ending at hm
  have hlast := hmiddle.move (hmiddle.covers_add (hrest ▸ hm))
  refine ⟨r.view r.pos (r.pos + n), { r with pos := r.pos + n + ending.length }, hlast, hk, ?_, ?_,
    ?_, ?_⟩
  · exact readLine_run_eq hr hk hlength (congrArg List.length hending)
  · rw [← htake]
    exact take_encode hr hn
  · rw [← hdrop, hending]
    have htext := take_encode hmiddle (hrest ▸ hm)
    rw [hrest, ← hending, lineEnding_eq_take, hending] at htext
    exact htext
  · rw [← hdrop, hending]
    have hbehind := ({ r with pos := r.pos + n } : TextScanner).rest_move ending.length
    rw [hrest] at hbehind
    exact hbehind

/-- The lines of what is left of a text can be read, and they are its lines. -/
theorem exists_readsLines (hr : r.Valid) (hk : r.classifier = .unicode) :
    ∃ lines last, r.encode.ReadsLines lines last ∧ IsSplit r.rest lines := by
  induction hn : r.rest.length using Nat.strong_induction_on generalizing r with
  | _ n ih =>
      have hend := atEnd_encode hr
      by_cases hnil : r.rest = []
      · rw [hnil, List.isEmpty_nil] at hend
        rw [hnil]
        exact ⟨[], r.encode, .done hend, .nil⟩
      have hopen : r.encode.atEnd = false := by rw [hend, List.isEmpty_eq_false_iff]; exact hnil
      obtain ⟨t, after, hafter, hk', hrun, htext, hending, hrest⟩ := readLine_run hr hk
      have happend := List.takeWhile_append_dropWhile (p := fun c => !isNewline c) (l := r.rest)
      have hpass := isNewline_of_mem_takeWhile r.rest
      have hstop := isNewline_of_mem_head?_dropWhile r.rest
      generalize r.rest.takeWhile (fun c => !isNewline c) = line at happend hpass htext
      generalize r.rest.dropWhile (fun c => !isNewline c) = tail at happend hstop hending hrest
      rw [← happend] at hnil hn ⊢
      have hless : after.rest.length < n := by
        rw [hrest, ← hn]
        exact length_drop_lineEnding_lt hnil
      obtain ⟨lines, last, hreads, hlines⟩ := ih _ hless hafter hk' rfl
      rw [hrest] at hlines
      exact ⟨_, last, .line hopen hrun htext hending hreads, .cons hpass hstop hnil hlines⟩

end TextScanner

/-- **Reading lines until a text ends splits the text into its lines.**  The reading ends, each read
returns, and what the reads return with what they consume behind it is the one split there is. -/
theorem readsLines_split {text : String} {maxSize : Int} {root : Scanner}
    (hroot : Scanner.ofBuffer (.ofString text) maxSize .unicode = .ok root) :
    ∃ lines last, (root.ReadsLines lines last ∧ last.atEnd = true) ∧
      IsSplit text.toList lines ∧
      (∀ lines', IsSplit text.toList lines' → lines' = lines) ∧
      ∀ lines' last', root.ReadsLines lines' last' → lines' = lines ∧ last' = last := by
  obtain ⟨⟨hsize, _⟩, _⟩ := Scanner.ofBuffer_eq_ok_iff.mp hroot
  obtain rfl := Except.ok.inj (hroot.symm.trans (TextSession.ofBuffer_ofString hsize .unicode))
  have hvalid := TextSession.valid_ofText text .unicode
  obtain ⟨lines, last, hreads, hsplit⟩ := TextScanner.exists_readsLines hvalid rfl
  have hrest : (TextScanner.ofText text .unicode).rest = text.toList := by
    simp [TextScanner.rest, TextScanner.ofText, segment]
  rw [hrest] at hsplit
  refine ⟨lines, last, ⟨hreads, hreads.atEnd⟩, hsplit, ?_, ?_⟩
  · intro lines' hsplit'
    exact hsplit'.unique hsplit
  · intro lines' last' hreads'
    exact hreads'.unique hreads

/-- A CR before a CR LF, a line end of three bytes, and a last line without one. -/
theorem readsLines_split_mixed :
    let text := "a\r\r\n\u2028b"
    let lines : List Line := [⟨['a'], ['\r']⟩, ⟨[], ['\r', '\n']⟩, ⟨[], ['\u2028']⟩, ⟨['b'], []⟩]
    ∃ root last, Scanner.ofBuffer (.ofString text) 8 .unicode = .ok root ∧
      root.ReadsLines lines last ∧ last.atEnd = true := by
  intro text lines
  have hroot : Scanner.ofBuffer (.ofString text) 8 .unicode = .ok _ :=
    TextSession.ofBuffer_ofString (by decide) .unicode
  -- The split from its last line on.
  have hb : ∀ c ∈ ['b'], isNewline c = false := by simp [isNewline, newlines]
  have hlast : IsSplit ['b'] [⟨['b'], []⟩] := @IsSplit.cons ['b'] [] [] hb nofun (by simp) .nil
  have hthird : IsSplit ['\u2028', 'b'] (lines.drop 2) :=
    @IsSplit.cons [] ['\u2028', 'b'] _ nofun (by simp [isNewline, newlines]) (by simp) hlast
  have hsecond : IsSplit ['\r', '\n', '\u2028', 'b'] (lines.drop 1) :=
    @IsSplit.cons [] ['\r', '\n', '\u2028', 'b'] _ nofun (by simp [isNewline, newlines]) (by simp)
      hthird
  have ha : ∀ c ∈ ['a'], isNewline c = false := by simp [isNewline, newlines]
  have htext : text.toList = ['a'] ++ ['\r', '\r', '\n', '\u2028', 'b'] := by decide
  have hsplit : IsSplit text.toList lines := by
    rw [htext]
    exact .cons ha (by simp [isNewline, newlines]) (by simp) hsecond
  obtain ⟨found, last, ⟨hreads, hend⟩, _, hunique, _⟩ := readsLines_split hroot
  rw [← hunique lines hsplit] at hreads
  exact ⟨_, last, hroot, hreads, hend⟩

end Utf8Scan
