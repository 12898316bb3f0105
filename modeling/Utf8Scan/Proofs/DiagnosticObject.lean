/-
What an object tells of a diagnostic.

An object is made for other tools, which read it as JSON.  What they find is a table
with eleven names: under each stands what the diagnostic has to tell there, and a name
is missing if there is nothing to tell.  Nothing else is in the table, and no name is in
it twice, so it does not matter which of several values a tool would take.

A layout that cuts tells the diagnostic with its long texts abbreviated.  What it tells
can be recovered from the line but for one thing: an empty part is told as no part.
-/
import Utf8Scan.Proofs.Abbreviation
import Utf8Scan.Proofs.DiagnosticLines
import Utf8Scan.Proofs.JsonRoundTrip

namespace Utf8Scan

/-! ### What there is to tell -/

namespace Datum

/-- The text that a part has to tell: an empty text is nothing to tell. -/
def content? : Datum → Option String
  | text value => if value = "" then none else some value
  | _ => none

/-- A part, with nothing in place of an empty text. -/
def withoutEmpty : Datum → Datum
  | text value => if value = "" then null else text value
  | part => part

/-- A part with no more than the beginning of a long text. -/
def abbreviated (limit : Nat) : Datum → Datum
  | text value => text (Utf8Scan.abbreviated limit value)
  | part => part

end Datum

namespace Diagnostic

def withoutEmpty (d : Diagnostic) : Diagnostic :=
  { d with
    expected := d.expected.withoutEmpty
    found := d.found.withoutEmpty
    hint := d.hint.withoutEmpty }

def abbreviated (limit : Nat) (d : Diagnostic) : Diagnostic :=
  { d with
    message := Utf8Scan.abbreviated limit d.message
    expected := d.expected.abbreviated limit
    found := d.found.abbreviated limit
    hint := d.hint.abbreviated limit }

/-- What a diagnostic may have to tell, by name; some of it may not be there. -/
def parts (d : Diagnostic) : List (String × Option Datum) :=
  [ ("code", some (.text d.code.name)), ("code_value", some (.int d.code.number)),
    ("message", some (.text d.message)), ("severity", some (.text d.severity)),
    ("line", d.span.map fun span => .int span.line),
    ("column", d.span.map fun span => .int span.column),
    ("start", d.span.map fun span => .int span.start),
    ("end", d.span.map fun span => .int span.stop),
    ("expected", d.expected.content?.map .text),
    ("found", d.found.content?.map .text),
    ("hint", d.hint.content?.map .text) ]

/-- The entries tell a diagnostic: each of its parts stands under its name if it is there, nothing
else does, and no name stands twice. -/
structure ToldBy (d : Diagnostic) (entries : List (String × Datum)) : Prop where
  lookup : ∀ part ∈ d.parts, entries.lookup part.1 = part.2
  known : ∀ entry ∈ entries, entry.1 ∈ d.parts.map Prod.fst
  nodup : (entries.map Prod.fst).Nodup

end Diagnostic

/-- The diagnostic that a layout tells: the whole of it, or its abbreviation. -/
def Layout.told (l : Layout) (d : Diagnostic) : Diagnostic :=
  if l.cut then d.abbreviated l.maxLength.toNat else d

/-! ### Tables -/

/-- The entries of a table that are there. -/
def present (table : List (String × Option Datum)) : List (String × Datum) :=
  table.filterMap fun part => part.2.map (part.1, ·)

variable {table : List (String × Option Datum)} {name : String}

theorem present_cons_none (name : String) (table : List (String × Option Datum)) :
    present ((name, none) :: table) = present table := rfl

theorem present_cons_some (name : String) (value : Datum) (table : List (String × Option Datum)) :
    present ((name, some value) :: table) = (name, value) :: present table := rfl

theorem present_names_sublist (table : List (String × Option Datum)) :
    ((present table).map Prod.fst).Sublist (table.map Prod.fst) := by
  induction table with
  | nil => exact .slnil
  | cons part table ih =>
      obtain ⟨name, value⟩ := part
      cases value with
      | none => exact ih.cons name
      | some value => exact ih.cons_cons name

theorem lookup_present_of_notMem (h : name ∉ table.map Prod.fst) :
    (present table).lookup name = none := by
  rw [List.lookup_eq_none_iff]
  intro entry hentry
  rw [bne_iff_ne]
  intro heq
  exact h ((present_names_sublist table).subset (List.mem_map.mpr ⟨entry, hentry, heq.symm⟩))

/-- Under a name of the table stands what the table has there. -/
theorem lookup_present (hnodup : (table.map Prod.fst).Nodup) {part : String × Option Datum}
    (h : part ∈ table) : (present table).lookup part.1 = part.2 := by
  induction table with
  | nil => cases h
  | cons first table ih =>
      obtain ⟨name, value⟩ := first
      obtain ⟨hfirst, htable⟩ : name ∉ table.map Prod.fst ∧ (table.map Prod.fst).Nodup :=
        List.nodup_cons.mp hnodup
      rcases List.mem_cons.mp h with rfl | hpart
      · cases value with
        | none =>
            rw [present_cons_none]
            exact lookup_present_of_notMem hfirst
        | some value => exact List.lookup_cons_self
      · have hne : part.1 ≠ name := fun heq => hfirst (List.mem_map.mpr ⟨part, hpart, heq⟩)
        cases value with
        | none =>
            rw [present_cons_none]
            exact ih htable hpart
        | some value =>
            rw [present_cons_some, List.lookup_cons, beq_false_of_ne hne]
            exact ih htable hpart

namespace Diagnostic

variable {d d' : Diagnostic} {entries : List (String × Datum)}

theorem toldBy_present (d : Diagnostic) : d.ToldBy (present d.parts) := by
  have hnodup : (d.parts.map Prod.fst).Nodup := by
    show ["code", "code_value", "message", "severity", "line", "column", "start", "end",
      "expected", "found", "hint"].Nodup
    decide
  refine ⟨fun part hpart => lookup_present hnodup hpart, ?_,
    hnodup.sublist (present_names_sublist d.parts)⟩
  intro entry hentry
  exact (present_names_sublist d.parts).subset (List.mem_map_of_mem hentry)

/-- The entries say what is there to tell. -/
theorem ToldBy.parts_eq (h : d.ToldBy entries) :
    d.parts = (d.parts.map Prod.fst).map fun name => (name, entries.lookup name) := by
  rw [List.map_map]
  refine (List.map_id _).symm.trans (List.map_congr_left ?_)
  intro part hpart
  exact Prod.ext rfl (h.lookup part hpart).symm

theorem ToldBy.parts_unique (h : d.ToldBy entries) (h' : d'.ToldBy entries) :
    d.parts = d'.parts := by
  have hnames : d.parts.map Prod.fst = d'.parts.map Prod.fst := rfl
  rw [h.parts_eq, h'.parts_eq, hnames]

/-- Texts and whole numbers are all there is to tell. -/
theorem exact_parts (d : Diagnostic) : (Datum.fields (present d.parts)).Exact := by
  have hnumber : ∀ (place : Option Span) (f : Span → Nat),
      ∀ value ∈ place.map fun span => Datum.int (f span), value.Exact := by
    intro place f value hvalue
    obtain ⟨span, _, rfl⟩ := Option.map_eq_some_iff.mp hvalue
    exact .int _
  have htext : ∀ content : Option String, ∀ value ∈ content.map Datum.text, value.Exact := by
    intro content value hvalue
    obtain ⟨text, _, rfl⟩ := Option.map_eq_some_iff.mp hvalue
    exact .text _
  have hparts : ∀ part ∈ d.parts, ∀ value ∈ part.2, value.Exact := by
    simp only [parts, List.forall_mem_cons]
    refine ⟨htext (some _), ?_, htext (some _), htext (some _), hnumber _ _, hnumber _ _,
      hnumber _ _, hnumber _ _, htext _, htext _, htext _, nofun⟩
    intro value hvalue
    cases hvalue
    exact .int _
  refine .fields ?_
  intro entry hentry
  obtain ⟨part, hpart, hentry⟩ := List.mem_filterMap.mp hentry
  obtain ⟨value, hvalue, rfl⟩ := Option.map_eq_some_iff.mp hentry
  exact hparts part hpart value hvalue

end Diagnostic

theorem Code.name_injective {code code' : Code} (h : code.name = code'.name) : code = code' := by
  cases code <;> cases code' <;> first | rfl | exact absurd h (by decide)

namespace Datum

variable {part : Datum}

theorem TextOrNull.withoutEmpty_eq (h : part.TextOrNull) :
    part.withoutEmpty = (part.content?.map .text).getD .null := by
  cases h with
  | null => rfl
  | text value =>
      rw [withoutEmpty, content?]
      split
      · rfl
      · rfl

theorem TextOrNull.abbreviated (h : part.TextOrNull) (limit : Nat) :
    (part.abbreviated limit).TextOrNull := by
  cases h with
  | null => exact .null
  | text value => exact .text _

/-- Abbreviating leaves something of every text that is there. -/
theorem TextOrNull.content?_abbreviated (h : part.TextOrNull) (limit : Nat) :
    (part.abbreviated limit).content? = part.content?.map (Utf8Scan.abbreviated limit) := by
  cases h with
  | null => rfl
  | text value =>
      rw [Datum.abbreviated, content?, content?]
      by_cases hempty : value = ""
      · rw [if_pos hempty, hempty, if_pos (abbreviated_empty limit)]
        rfl
      · rw [if_neg hempty, if_neg (mt eq_empty_of_abbreviated hempty)]
        rfl

end Datum

theorem Diagnostic.span_eq {place place' : Option Span}
    (hline : place.map (fun span => Datum.int span.line) = place'.map fun span => .int span.line)
    (hcolumn : place.map (fun span => Datum.int span.column)
      = place'.map fun span => .int span.column)
    (hstart : place.map (fun span => Datum.int span.start)
      = place'.map fun span => .int span.start)
    (hstop : place.map (fun span => Datum.int span.stop)
      = place'.map fun span => .int span.stop) : place = place' := by
  cases place with
  | none =>
      cases place' with
      | none => rfl
      | some span' => cases hline
  | some span =>
      cases place' with
      | none => cases hline
      | some span' =>
          simp only [Option.map_some, Option.some.injEq, Datum.int.injEq, Int.ofNat_inj] at *
          obtain ⟨start, stop, line, column⟩ := span
          obtain ⟨start', stop', line', column'⟩ := span'
          subst hline hcolumn hstart hstop
          rfl

/-- What there is to tell determines a diagnostic up to what is empty. -/
theorem Diagnostic.withoutEmpty_eq_of_parts {d d' : Diagnostic} (hd : d.OfTexts) (hd' : d'.OfTexts)
    (h : d.parts = d'.parts) : d.withoutEmpty = d'.withoutEmpty := by
  simp only [parts, List.cons.injEq, Prod.mk.injEq, true_and, Option.some.injEq, Datum.text.injEq,
    and_true] at h
  obtain ⟨hcode, _, hmessage, hseverity, hline, hcolumn, hstart, hstop, hexpected, hfound,
    hhint⟩ := h
  have hspan := span_eq hline hcolumn hstart hstop
  simp only [withoutEmpty, hd.expected.withoutEmpty_eq, hd.found.withoutEmpty_eq,
    hd.hint.withoutEmpty_eq, hd'.expected.withoutEmpty_eq, hd'.found.withoutEmpty_eq,
    hd'.hint.withoutEmpty_eq, hexpected, hfound, hhint, hmessage, hseverity, hspan,
    Code.name_injective hcode]

/-! ### What a layout tells -/

namespace Layout

variable {l : Layout} {d : Diagnostic}

theorem ofTexts_told (l : Layout) (hd : d.OfTexts) : (l.told d).OfTexts := by
  unfold told
  split
  · exact ⟨hd.expected.abbreviated _, hd.found.abbreviated _, hd.hint.abbreviated _⟩
  · exact hd

/-- Cutting a text that may be cut abbreviates it. -/
theorem shorten_of_cut (hcut : l.cut = true) (hlimit : 0 ≤ l.maxLength) (text : String) :
    l.shorten text = abbreviated l.maxLength.toNat text := by
  by_cases hle : text.length ≤ l.maxLength.toNat
  · have hlong : ¬ l.maxLength < text.length := by omega
    rw [shorten, hcut, Bool.true_and, decide_eq_false hlong, abbreviated, if_pos hle]
    rfl
  · have hlong : l.maxLength < text.length := by omega
    rw [shorten, hcut, Bool.true_and, decide_eq_true hlong, abbreviated, if_neg hle, firstChars,
      if_pos hlimit]
    rfl

theorem shorten_of_not_cut (hcut : l.cut = false) (text : String) : l.shorten text = text := by
  rw [shorten, hcut]
  rfl

/-- What is shown of a part is its text, cut if it has to be. -/
theorem shown?_eq {part : Datum} (l : Layout) (h : part.TextOrNull) :
    l.shown? part = (part.content?.map l.shorten).map .text := by
  cases h with
  | null => rfl
  | text value =>
      by_cases hempty : value = ""
      · rw [Datum.content?, if_pos hempty, hempty]
        rfl
      · have hsomething : (Datum.text value).isSomething = true := bne_iff_ne.mpr hempty
        rw [Datum.content?, if_neg hempty, shown?, if_pos hsomething]
        rfl

/-- What is told is what is shown. -/
theorem parts_told (hlimit : l.cut = true → 0 ≤ l.maxLength) (hd : d.OfTexts) :
    (l.told d).parts =
      [ ("code", some (.text d.code.name)), ("code_value", some (.int d.code.number)),
        ("message", some (.text (l.shorten d.message))), ("severity", some (.text d.severity)),
        ("line", d.span.map fun span => .int span.line),
        ("column", d.span.map fun span => .int span.column),
        ("start", d.span.map fun span => .int span.start),
        ("end", d.span.map fun span => .int span.stop),
        ("expected", l.shown? d.expected), ("found", l.shown? d.found),
        ("hint", l.shown? d.hint) ] := by
  rw [l.shown?_eq hd.expected, l.shown?_eq hd.found, l.shown?_eq hd.hint]
  cases hcut : l.cut with
  | false =>
      have hshorten : l.shorten = id := funext (shorten_of_not_cut hcut)
      rw [hshorten, told, hcut]
      simp [Diagnostic.parts]
  | true =>
      have hshorten : l.shorten = abbreviated l.maxLength.toNat :=
        funext (shorten_of_cut hcut (hlimit hcut))
      rw [hshorten, told, hcut, ← hd.expected.content?_abbreviated,
        ← hd.found.content?_abbreviated, ← hd.hint.content?_abbreviated]
      rfl

/-- The fields of an object are what there is to tell. -/
theorem fields_eq_present (hlimit : l.cut = true → 0 ≤ l.maxLength) (hd : d.OfTexts) :
    l.fields d = present (l.told d).parts := by
  rw [parts_told hlimit hd, fields]
  cases d.span <;> cases l.shown? d.expected <;> cases l.shown? d.found <;>
    cases l.shown? d.hint <;> rfl

/-- An object is one line, and reading it gives what there is to tell. -/
theorem exists_layOut_object (hstyle : l.style = .object)
    (hlimit : l.cut = true → 0 ≤ l.maxLength) (hd : d.OfTexts) :
    ∃ text, l.layOut d = .ok text ∧ (∀ c ∈ text.toList, 0x20 ≤ c.toNat) ∧
      ∃ entries, Json.read? text = some (.fields entries) ∧ (l.told d).ToldBy entries := by
  have hfields := fields_eq_present hlimit hd
  have hexact : (Datum.fields (l.fields d)).Exact := by
    rw [hfields]
    exact (l.told d).exact_parts
  have hrender : l.render d = (Datum.fields (l.fields d)).json := by
    rw [render, hstyle]
    rfl
  refine ⟨_, l.layOut_of_texts hd, ?_, l.fields d, ?_, ?_⟩
  · rw [hrender, Datum.json, String.toList_ofList]
    exact Json.freeOfControls_jsonChars hexact
  · rw [hrender]
    exact Json.read?_json hexact
  · rw [hfields]
    exact (l.told d).toldBy_present

/-- **An object says what its diagnostic says, to any reader of JSON.**  Whatever texts are in a
diagnostic, it is laid out without controls and read back as a single object.  There each name
stands exactly if there is something to tell under it, and with just that; where the layout cuts,
the long texts are abbreviated, and nothing else is changed.  So two diagnostics laid out alike say
the same but for parts that are empty in one and missing in the other. -/
theorem layOut_object (hstyle : l.style = .object) (hlimit : l.cut = true → 0 ≤ l.maxLength) :
    (∀ d : Diagnostic, d.OfTexts → ∃ text, l.layOut d = .ok text ∧
        (∀ c ∈ text.toList, 0x20 ≤ c.toNat) ∧
        ∃ entries, Json.read? text = some (.fields entries) ∧ (l.told d).ToldBy entries) ∧
      ∀ d d' : Diagnostic, d.OfTexts → d'.OfTexts → l.layOut d = l.layOut d' →
        (l.told d).withoutEmpty = (l.told d').withoutEmpty := by
  refine ⟨fun d hd => exists_layOut_object hstyle hlimit hd, ?_⟩
  intro d d' hd hd' heq
  obtain ⟨text, htext, _, entries, hread, htable⟩ := exists_layOut_object hstyle hlimit hd
  obtain ⟨text', htext', _, entries', hread', htable'⟩ := exists_layOut_object hstyle hlimit hd'
  rw [heq, htext'] at htext
  cases htext
  rw [hread] at hread'
  cases hread'
  exact Diagnostic.withoutEmpty_eq_of_parts (l.ofTexts_told hd) (l.ofTexts_told hd')
    (htable.parts_unique htable')

/-- A message of escapes, cut behind its fifth character, and a part that is empty or missing. -/
theorem layOut_object_escapes :
    let l : Layout := { style := .object, cut := true, maxLength := 5 }
    let d : Diagnostic := { code := .unexpected, message := "\"\\\n\x01é😀", found := "" }
    let d' : Diagnostic := { code := .unexpected, message := "\"\\\n\x01é😀" }
    (l.style = .object ∧ 0 ≤ l.maxLength ∧ d.OfTexts ∧ d'.OfTexts ∧ l.layOut d = l.layOut d') ∧
      (∃ text entries, l.layOut d = .ok text ∧ (∀ c ∈ text.toList, 0x20 ≤ c.toNat) ∧
        Json.read? text = some (.fields entries) ∧
        entries.lookup "message" = some (.text "\"\\\n\x01é...") ∧
        entries.lookup "found" = none) ∧
      (l.told d).withoutEmpty = (l.told d').withoutEmpty := by
  intro l d d'
  have hlimit : 0 ≤ l.maxLength := by decide
  have hd : d.OfTexts := ⟨.null, .text "", .null⟩
  have hd' : d'.OfTexts := ⟨.null, .null, .null⟩
  have hsame : l.layOut d = l.layOut d' := by rfl
  obtain ⟨htold, hdiffer⟩ := layOut_object (l := l) rfl fun _ => hlimit
  obtain ⟨text, htext, hcontrols, entries, hread, htable⟩ := htold d hd
  have hmessage := htable.lookup ("message", some (.text "\"\\\n\x01é...")) (by decide)
  have hfound := htable.lookup ("found", none) (by decide)
  exact ⟨⟨rfl, hlimit, hd, hd', hsame⟩, ⟨text, entries, htext, hcontrols, hread, hmessage, hfound⟩,
    hdiffer d d' hd hd' hsame⟩

end Layout

end Utf8Scan
