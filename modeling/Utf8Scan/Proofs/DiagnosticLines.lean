/-
How many lines a diagnostic takes.

Messages show what the input holds and what the caller asked for.  Both reach them only
between quotes, so every message of scanning is printable, and so are the parts that go
with it.  Cutting a text comes after the quoting and adds dots to what it keeps, so a
layout shows printable texts again.

So the only line breaks of a laid out diagnostic are those that the layout puts between
its lines, and neither the input nor the caller can add one.
-/
import Utf8Scan.Diagnostic.Layout
import Utf8Scan.Proofs.Location
import Utf8Scan.Proofs.Printable

namespace Utf8Scan

/-! ### Printable diagnostics -/

/-- A part of a diagnostic that is nothing or a text. -/
inductive Datum.TextOrNull : Datum → Prop
  | null : TextOrNull .null
  | text (value : String) : TextOrNull (.text value)

/-- A diagnostic whose parts are texts where they are there at all. -/
structure Diagnostic.OfTexts (d : Diagnostic) : Prop where
  expected : d.expected.TextOrNull
  found : d.found.TextOrNull
  hint : d.hint.TextOrNull

/-- A part of a diagnostic that is nothing, or a text that is there and is printable. -/
inductive Datum.Plain : Datum → Prop
  | null : Plain .null
  | text {text : String} (hne : text ≠ "") (h : Printable text) : Plain (.text text)

/-- A diagnostic of an error whose message and parts are printable. -/
structure Diagnostic.Plain (d : Diagnostic) : Prop where
  message : Printable d.message
  expected : d.expected.Plain
  found : d.found.Plain
  hint : d.hint.Plain
  severity : d.severity = "error"

theorem Datum.Plain.textOrNull {part : Datum} (h : part.Plain) : part.TextOrNull := by
  cases h with
  | null => exact .null
  | @text text => exact .text text

theorem Diagnostic.Plain.ofTexts {d : Diagnostic} (h : d.Plain) : d.OfTexts :=
  ⟨h.expected.textOrNull, h.found.textOrNull, h.hint.textOrNull⟩

theorem plain_words (text : String) (hne : text ≠ "") (h : text.toList.all isVisible = true) :
    (Datum.text text).Plain := .text hne (printable_of_isVisible text h)

theorem plain_quoted (text : String) : (Datum.text (Text.quoted text)).Plain := by
  refine .text ?_ (Text.printable_quoted text)
  intro hempty
  have hlist := congrArg String.toList hempty
  rw [Text.quoted, String.toList_ofList] at hlist
  exact absurd hlist (List.cons_ne_nil _ _)

theorem Target.plain_describe (target : Target) : (Datum.text target.describe).Plain := by
  cases target with
  | text string => exact plain_quoted string
  | charSet => exact plain_words "character in set" (by decide) (by decide +kernel)
  | test => exact plain_words "matching character" (by decide) (by decide +kernel)

theorem Datum.Plain.printable {text : String} (h : (Datum.text text).Plain) : Printable text := by
  cases h with
  | text _ h => exact h

/-- What scanning says of its errors is printable. -/
theorem Scanner.Locates.plain {s : Scanner} {x : ScanError} (h : s.Locates x) :
    ∃ d, x.diagnostic? = some d ∧ d.Plain := by
  cases x with
  | overflow offset =>
      refine ⟨_, rfl, ?_, .null, .null, plain_words _ (by decide) (by decide +kernel), rfl⟩
      have hwords := printable_of_isVisible "Unexpected end of input at byte " (by decide +kernel)
      exact hwords.append (printable_int offset)
  | underflow offset =>
      refine ⟨_, rfl, ?_, .null, .null, plain_words _ (by decide) (by decide +kernel), rfl⟩
      have hwords :=
        printable_of_isVisible "Cannot retreat past start of range at byte " (by decide +kernel)
      exact hwords.append (printable_int offset)
  | notFound target offset =>
      have htarget := target.plain_describe
      refine ⟨_, rfl, ?_, htarget, .null, plain_words _ (by decide) (by decide +kernel), rfl⟩
      have hwords :=
        printable_of_isVisible "Reached end of input searching for " (by decide +kernel)
      have hfrom := printable_of_isVisible " from byte " (by decide +kernel)
      exact ((hwords.append htarget.printable).append hfrom).append (printable_int offset)
  | truncated offset width =>
      refine ⟨_, rfl, ?_, .null, .null, plain_words _ (by decide) (by decide +kernel), rfl⟩
      have hwords := printable_of_isVisible "Truncated " (by decide +kernel)
      have hat := printable_of_isVisible "-byte UTF-8 sequence at byte " (by decide +kernel)
      exact ((hwords.append (printable_nat width.bytes)).append hat).append (printable_int offset)
  | malformed offset reason =>
      refine ⟨_, rfl, ?_, .null, .null, plain_words _ (by decide) (by decide +kernel), rfl⟩
      have hwords := printable_of_isVisible "Invalid UTF-8 at byte " (by decide +kernel)
      have hcolon := printable_of_isVisible ": " (by decide +kernel)
      exact ((hwords.append (printable_int offset)).append hcolon).append reason.printable_text
  | unexpected expected found offset =>
      refine ⟨_, rfl, ?_, plain_quoted expected, plain_quoted found, .null, rfl⟩
      have hwords := printable_of_isVisible "Expected " (by decide +kernel)
      have hat := printable_of_isVisible " at byte " (by decide +kernel)
      have hfound := printable_of_isVisible ", found " (by decide +kernel)
      have hexpected := hwords.append (Text.printable_quoted expected)
      exact (((hexpected.append hat).append (printable_int offset)).append hfound).append
        (Text.printable_quoted found)
  | emptyTarget operation =>
      refine ⟨_, rfl, ?_, .null, .null, plain_words _ (by decide) (by decide +kernel), rfl⟩
      have hwords := printable_of_isVisible "() requires a non-empty target" (by decide +kernel)
      rcases h with rfl | rfl
      · exact (printable_of_isVisible "match_string" (by decide +kernel)).append hwords
      · exact (printable_of_isVisible "read_until_string" (by decide +kernel)).append hwords
  | custom kind content position => exact h.elim

/-- Explaining an error adds a place, and no text. -/
theorem Scanner.Locates.diagnose_plain {s : Scanner} {x : ScanError} (h : s.Locates x) :
    ∃ d, s.diagnose x = some d ∧ d.Plain := by
  obtain ⟨d, hd, hplain⟩ := h.plain
  unfold Scanner.diagnose
  rw [hd, Option.map_some]
  split
  · exact ⟨_, rfl, hplain.message, hplain.expected, hplain.found, hplain.hint, hplain.severity⟩
  · exact ⟨d, rfl, hplain⟩

/-! ### Laying them out -/

/-- What a line of a block starts with if it shows a part, or nothing if there is no such line. -/
def Datum.lineStart? (start : String) : Datum → Option String
  | null => none
  | _ => some start

/-- What the lines of a block start with: the headline, then those details that are present. -/
def Diagnostic.lineStarts (d : Diagnostic) : List String :=
  [ some "error[",
    d.span.map fun _ => "  --> line ",
    d.expected.lineStart? "  = expected: ",
    d.found.lineStart? "  = found: ",
    d.hint.lineStart? "  = help: " ].filterMap id

/-- A line that is printable and has a given start. -/
def Starts (start line : String) : Prop := start.toList <+: line.toList ∧ Printable line

theorem starts_append {start rest : String} (hstart : Printable start) (hrest : Printable rest) :
    Starts start (start ++ rest) := by
  refine ⟨?_, hstart.append hrest⟩
  rw [String.toList_append]
  exact List.prefix_append _ _

namespace Layout

variable {l : Layout} {d : Diagnostic} {text : String}

theorem mem_of_mem_firstChars {count : Int} {chars : List Char} {c : Char}
    (h : c ∈ firstChars count chars) : c ∈ chars := by
  unfold firstChars at h
  split at h
  · exact List.mem_of_mem_take h
  · exact List.mem_of_mem_take h

/-- Cutting a text keeps some of its characters and adds dots. -/
theorem printable_shorten (l : Layout) (h : Printable text) : Printable (l.shorten text) := by
  unfold shorten
  split
  · refine Printable.append ?_ (printable_of_isVisible "..." (by decide))
    intro c hc
    rw [String.toList_ofList] at hc
    exact h c (mem_of_mem_firstChars hc)
  · exact h

theorem printable_name (code : Code) : Printable code.name := by
  cases code with
  | overflow => exact printable_of_isVisible "OVERFLOW" (by decide)
  | unexpected => exact printable_of_isVisible "UNEXPECTED" (by decide)
  | emptyInput => exact printable_of_isVisible "EMPTY_INPUT" (by decide)
  | invalidCharacter => exact printable_of_isVisible "INVALID_CHARACTER" (by decide)

theorem starts_headline (hcolor : l.color = false) (hd : d.Plain) :
    Starts "error[" (l.headline d) := by
  have hword : l.severityWord d.severity = "error" := by
    rw [severityWord, hd.severity, hcolor]
    rfl
  have hmessage :=
    (printable_of_isVisible "]: " (by decide)).append (l.printable_shorten hd.message)
  have hstart := starts_append (printable_of_isVisible "error[" (by decide))
    ((printable_name d.code).append hmessage)
  rw [headline, hword, String.append_assoc, String.append_assoc]
  exact hstart

theorem starts_place (span : Span) :
    Starts "  --> line " s!"  --> line {span.line}, column {span.column}" := by
  have hcolumn :=
    (printable_of_isVisible ", column " (by decide)).append (printable_nat span.column)
  have hrest := (printable_nat span.line).append hcolumn
  have hstart := starts_append (printable_of_isVisible "  --> line " (by decide)) hrest
  rw [← String.append_assoc, ← String.append_assoc] at hstart
  exact hstart

/-- A detail is a line exactly if its part is present. -/
theorem starts_part {part : Datum} (l : Layout) (start : String) (hstart : Printable start)
    (h : part.Plain) :
    Option.Rel Starts (part.lineStart? start)
      ((l.shown? part).map fun part => start ++ part.shown) := by
  cases h with
  | null => exact .none
  | @text text hne h =>
      have hsomething : (Datum.text text).isSomething = true := bne_iff_ne.mpr hne
      rw [shown?, if_pos hsomething]
      exact .some (starts_append hstart (l.printable_shorten h))

/-- The lines of a block are those that are due, in their order. -/
theorem forall₂_blockLines (hcolor : l.color = false) (hd : d.Plain) :
    List.Forall₂ Starts d.lineStarts (l.blockLines d) := by
  have hplace : Option.Rel Starts (d.span.map fun _ => "  --> line ")
      (d.span.map fun span => s!"  --> line {span.line}, column {span.column}") := by
    cases d.span with
    | none => exact .none
    | some span => exact .some (starts_place span)
  have hexpected :=
    starts_part l "  = expected: " (printable_of_isVisible _ (by decide)) hd.expected
  have hfound := starts_part l "  = found: " (printable_of_isVisible _ (by decide)) hd.found
  have hhint := starts_part l "  = help: " (printable_of_isVisible _ (by decide)) hd.hint
  refine List.rel_filterMap (fun _ _ h => h) ?_
  exact .cons (.some (starts_headline hcolor hd)) (.cons hplace (.cons hexpected (.cons hfound
    (.cons hhint .nil))))

theorem fits_part {part : Datum} (l : Layout) (h : part.TextOrNull) :
    (!part.isSomething || l.fits part) = true := by
  cases h with
  | null => rfl
  | text value => exact Bool.or_true _

/-- Parts that are texts or nothing are none that a layout cannot cut. -/
theorem layOut_of_texts (l : Layout) (hd : d.OfTexts) : l.layOut d = .ok (l.render d) := by
  have htakes : l.takes d = true := by
    rw [takes, List.all_cons, List.all_cons, List.all_cons, List.all_nil, fits_part l hd.expected,
      fits_part l hd.found, fits_part l hd.hint]
    simp
  rw [layOut, if_pos htakes]

theorem layOut_of_plain (l : Layout) (hd : d.Plain) : l.layOut d = .ok (l.render d) :=
  l.layOut_of_texts hd.ofTexts

theorem printable_renderLine (l : Layout) (hd : d.Plain) : Printable (l.renderLine d) :=
  ((printable_name d.code).append (printable_of_isVisible ": " (by decide))).append
    (l.printable_shorten hd.message)

/-- Splitting a block gives the lines that it was made of. -/
theorem splitOn_renderBlock (hne : l.blockLines d ≠ [])
    (hlines : ∀ line ∈ l.blockLines d, Printable line) :
    (l.renderBlock d).toList.splitOn '\n' = (l.blockLines d).map String.toList := by
  rw [renderBlock, String.toList_intercalate]
  refine List.splitOn_intercalate '\n' ?_ (mt List.map_eq_nil_iff.mp hne)
  intro chars hchars
  obtain ⟨line, hline, rfl⟩ := List.mem_map.mp hchars
  exact (hlines line hline).not_mem_lineBreaks (by decide)

end Layout

/-- A laid out block: split at LF it has the lines that are due, in their order. -/
structure Diagnostic.LaidOut (d : Diagnostic) (lines : List (List Char)) : Prop where
  starts : List.Forall₂ (fun start line => start.toList <+: line) d.lineStarts lines
  printable : ∀ line ∈ lines, ∀ c ∈ line, PrintableChar c
  length : lines.length = 1 + (if d.span.isSome then 1 else 0)
    + (if d.expected ≠ .null then 1 else 0) + (if d.found ≠ .null then 1 else 0)
    + (if d.hint ≠ .null then 1 else 0)

theorem Datum.isSome_lineStart? (start : String) (part : Datum) :
    (part.lineStart? start).isSome = true ↔ part ≠ .null := by
  cases part with
  | null => simp [lineStart?]
  | _ => simp [lineStart?]

theorem Diagnostic.length_lineStarts (d : Diagnostic) :
    d.lineStarts.length = 1 + (if d.span.isSome then 1 else 0)
      + (if d.expected ≠ .null then 1 else 0) + (if d.found ≠ .null then 1 else 0)
      + (if d.hint ≠ .null then 1 else 0) := by
  simp only [lineStarts, List.length_filterMap_eq_countP, List.countP_cons, List.countP_nil, id,
    Option.isSome_some, Option.isSome_map, Datum.isSome_lineStart?, if_true]
  omega

theorem Layout.laidOut_renderBlock {l : Layout} {d : Diagnostic} (hcolor : l.color = false)
    (hd : d.Plain) : d.LaidOut ((l.renderBlock d).toList.splitOn '\n') := by
  have hall := l.forall₂_blockLines hcolor hd
  have hprintable : ∀ line ∈ l.blockLines d, Printable line := by
    have hflip : List.Forall₂ (fun line start => Printable line ∧ Starts start line)
        (l.blockLines d) d.lineStarts := (hall.imp fun _ _ h => ⟨h.2, h⟩).flip
    exact ((List.forall₂_and_left _ _).mp hflip).1
  have hne : l.blockLines d ≠ [] := List.cons_ne_nil _ _
  have hlength := hall.length_eq
  rw [l.splitOn_renderBlock hne hprintable]
  refine ⟨?_, ?_, ?_⟩
  · rw [List.forall₂_map_right_iff]
    exact hall.imp fun _ _ h => h.1
  · intro chars hchars c hc
    obtain ⟨line, hline, rfl⟩ := List.mem_map.mp hchars
    exact hprintable line hline c hc
  · rw [List.length_map, ← hlength, d.length_lineStarts]

namespace Scanner

variable {root s left : Scanner} {b : Buffer} {maxSize : Int} {k : Classifier} {c : Command}
  {x : ScanError}

/-- **Neither the input nor the caller can add a line to a diagnostic.**  In every reachable state
and for every command with tests that answer, an error of scanning is explained in printable texts,
whatever the buffer holds and whatever texts the caller passed.  So a layout without colour, whether
or not it cuts and to whatever length, makes one line of it, or a block in which there is exactly
one line for each thing that is there to tell. -/
theorem Reachable.run_error_plain (hroot : ofBuffer b maxSize k = .ok root) (hk : k.Total)
    (h : root.Reachable s) (hc : ∀ test ∈ c.test?, test.Total)
    (hrun : c.run s = .error (.scan x) left) :
    ∃ d, s.diagnose x = some d ∧ d.Plain ∧
      ∀ l : Layout, l.color = false →
        (l.style = .line → ∃ text, l.layOut d = .ok text ∧ Printable text ∧
          ∀ c ∈ lineBreaks, c ∉ text.toList) ∧
        (l.style = .block → ∃ text, l.layOut d = .ok text ∧
          d.LaidOut (text.toList.splitOn '\n')) := by
  obtain ⟨hs, hwithin⟩ := h.within (inside_of_ofBuffer hroot)
  obtain ⟨rfl, hraises⟩ := run_error hs hrun
  have hclassifier : left.classifier.Total := by
    obtain ⟨_, rfl⟩ := ofBuffer_eq_ok_iff.mp hroot
    rw [hwithin.classifier]
    exact hk
  obtain ⟨d, hd, hplain⟩ := (hraises.locates hclassifier hc).diagnose_plain
  refine ⟨d, hd, hplain, ?_⟩
  intro l hcolor
  have hlayOut := l.layOut_of_plain hplain
  constructor
  · intro hstyle
    rw [Layout.render, hstyle] at hlayOut
    have hprintable := l.printable_renderLine hplain
    exact ⟨_, hlayOut, hprintable, fun c hc => hprintable.not_mem_lineBreaks hc⟩
  · intro hstyle
    rw [Layout.render, hstyle] at hlayOut
    exact ⟨_, hlayOut, l.laidOut_renderBlock hcolor hplain⟩

/-- A line end was found where an escape character was required, and there is no hint. -/
theorem Reachable.run_error_plain_newline :
    let root : Scanner := ⟨.ofList [0x0A, 0x61], 0, 2, 0, .unicode⟩
    let c : Command := .expectChar "\x1B"
    let x : ScanError := .unexpected "\x1B" "\n" 0
    ofBuffer root.buffer 2 .unicode = .ok root ∧ Classifier.unicode.Total ∧
      root.Reachable root ∧ (∀ test ∈ c.test?, test.Total) ∧
      c.run root = .error (.scan x) root ∧
      ∃ d text, root.diagnose x = some d ∧ ({ cut := true } : Layout).layOut d = .ok text ∧
        (text.toList.splitOn '\n').length = 4 := by
  intro root c x
  have hroot : ofBuffer root.buffer 2 .unicode = .ok root := by cbv
  have hc : ∀ test ∈ c.test?, test.Total := by
    intro test htest
    cases htest
  have hrun : c.run root = .error (.scan x) root := by rfl
  obtain ⟨d, hd, _, hlayouts⟩ :=
    Reachable.run_error_plain hroot Classifier.unicode_total .root hc hrun
  obtain ⟨text, htext, hlaid⟩ := (hlayouts { cut := true } rfl).2 rfl
  refine ⟨hroot, Classifier.unicode_total, .root, hc, hrun, d, text, hd, htext, ?_⟩
  rw [hlaid.length]
  obtain rfl := Option.some.inj hd
  rfl

end Scanner

end Utf8Scan
