/-
A scanner for characters.

It runs the same commands as a scanner for bytes, but on a text that is a list of
characters: window and cursor are indices into the list, and every operation is a
function of the list library on the characters that are left.  This is what a scanner
is meant to do; nothing here knows how a character is encoded.

Offsets enter in one place only.  A mark and the ends of a part are handed over as
integers, which mean offsets of bytes, so they have to be looked up among the offsets
of the characters, and are refused if they are not there.

Lines, places and the search for a text are left out.
-/
import Utf8Scan.Proofs.TextReading
import Utf8Scan.Proofs.Command

namespace Utf8Scan

structure TextScanner where
  chars : List Char
  start : Nat
  stop : Nat
  pos : Nat
  classifier : Classifier

/-- What can go wrong with a text; the numbers are indices of characters. -/
inductive TextError where
  /-- There is no character at the index, where the window ends. -/
  | overflow (k : Nat)
  /-- There is no character before the index, where the window starts. -/
  | underflow (k : Nat)
  | notFound (target : Target) (k : Nat)
  | unexpected (expected found : String) (k : Nat)
  | emptyTarget (operation : String)
  | refused (a : ArgumentError)

/-- What a command returns. -/
inductive TextValue where
  | none
  | bool (answer : Bool)
  | number (n : Nat)
  /-- A place in the text. -/
  | index (k : Nat)
  | text (text : String)
  | characters (chars : List Char)
  | scanner (r : TextScanner)

/-- The index of the character that starts at an offset, or of the end of the text. -/
def indexOf? (chars : List Char) (offset : Int) : Option Nat :=
  (List.range (chars.length + 1)).find? fun k => (offsetOf chars k : Int) = offset

theorem indexOf?_eq_some_iff {chars : List Char} {offset : Int} {k : Nat} :
    indexOf? chars offset = some k ↔ k ≤ chars.length ∧ (offsetOf chars k : Int) = offset := by
  constructor
  · intro h
    have hmem := List.mem_of_find?_eq_some h
    have hoffset := List.find?_some h
    exact ⟨Nat.le_of_lt_succ (List.mem_range.mp hmem), of_decide_eq_true hoffset⟩
  · rintro ⟨hk, rfl⟩
    cases h : indexOf? chars (offsetOf chars k) with
    | none =>
        have hnone := List.find?_eq_none.mp h k (List.mem_range.mpr (Nat.lt_succ_of_le hk))
        exact absurd (decide_eq_true rfl) hnone
    | some j =>
        have hmem := List.mem_of_find?_eq_some h
        have hj : j ≤ chars.length := Nat.le_of_lt_succ (List.mem_range.mp hmem)
        have hoffset := List.find?_some h
        have hoffset : (offsetOf chars j : Int) = offsetOf chars k := of_decide_eq_true hoffset
        rw [offsetOf_inj hj hk (Int.ofNat.inj hoffset)]

namespace TextScanner

/-- The cursor lies in the window, and the window in the text. -/
structure Valid (r : TextScanner) : Prop where
  start_le_pos : r.start ≤ r.pos
  pos_le_stop : r.pos ≤ r.stop
  stop_le_length : r.stop ≤ r.chars.length

def ofText (text : String) (k : Classifier) : TextScanner :=
  { chars := text.toList, start := 0, stop := text.toList.length, pos := 0, classifier := k }

/-- A scanner for a part of the text, with the cursor at its start. -/
def view (r : TextScanner) (first last : Nat) : TextScanner :=
  { r with start := first, stop := last, pos := first }

/-- The characters from the cursor to the end of the window. -/
def rest (r : TextScanner) : List Char := segment r.chars r.pos r.stop

/-! ### Operations

Each gives its result and the new cursor, or an error.
-/

/-- The character at the cursor. -/
def next (r : TextScanner) : Except TextError Char :=
  match r.rest with
  | [] => .error (.overflow r.pos)
  | c :: _ => .ok c

/-- The cursor `count` characters on. -/
def skip (r : TextScanner) (count : Nat) : Except TextError Nat :=
  if count ≤ r.rest.length then .ok (r.pos + count) else .error (.overflow r.stop)

def advance (r : TextScanner) (count : Int) : Except TextError (Unit × Nat) :=
  if count < 0 then .error (.refused (.negativeCount count))
  else (r.skip count.toNat).map fun k => ((), k)

def retreat (r : TextScanner) (count : Int) : Except TextError (Unit × Nat) :=
  if count < 0 then .error (.refused (.negativeRetreat count))
  else if r.start + count.toNat ≤ r.pos then .ok ((), r.pos - count.toNat)
  else .error (.underflow r.start)

def readCount (r : TextScanner) (count : Int) : Except TextError (String × Nat) :=
  if count < 0 then .error (.refused (.negativeCount count))
  else (r.skip count.toNat).map fun k => (String.ofList (r.rest.take count.toNat), k)

def restore (r : TextScanner) (mark : Int) : Except TextError (Unit × Nat) :=
  match (indexOf? r.chars mark).filter fun k => r.start ≤ k && k ≤ r.stop with
  | some k => .ok ((), k)
  | none => .error (.refused
      (.unusableMark mark (offsetOf r.chars r.start) (offsetOf r.chars r.stop)))

def subScanner (r : TextScanner) (first last : Int) : Except TextError TextScanner :=
  if ¬ (offsetOf r.chars r.start ≤ first ∧ first ≤ last ∧ last ≤ offsetOf r.chars r.stop) then
    .error (.refused
      (.outsideWindow first last (offsetOf r.chars r.start) (offsetOf r.chars r.stop)))
  else
    match indexOf? r.chars first, indexOf? r.chars last with
    | none, _ => .error (.refused (.startInsideCharacter first))
    | some _, none => .error (.refused (.stopInsideCharacter last))
    | some i, some j => .ok (r.view i j)

/-- Consumes the character at the cursor if it passes a test. -/
def matchTest (r : TextScanner) (test : Char → Bool) : Except TextError (Bool × Nat) :=
  r.next.map fun c => if test c then (true, r.pos + 1) else (false, r.pos)

def matchText (r : TextScanner) (text : String) : Except TextError (Bool × Nat) :=
  if text = "" then .error (.emptyTarget "match_string")
  else (r.skip text.length).map fun k =>
    if text.toList.isPrefixOf r.rest then (true, k) else (false, r.pos)

def expectChar (r : TextScanner) (text : String) : Except TextError (Unit × Nat) :=
  r.next.bind fun c =>
    if text = String.singleton c then .ok ((), r.pos + 1)
    else .error (.unexpected text (String.singleton c) r.pos)

def expectText (r : TextScanner) (text : String) : Except TextError (Unit × Nat) :=
  (r.matchText text).bind fun (matched, k) =>
    if matched then .ok ((), k)
    else .error (.unexpected text (String.ofList (r.rest.take text.length)) r.pos)

/-- Reads up to the first character that passes a test. -/
def readUntil (r : TextScanner) (test : Char → Bool) (target : Target) (required : Bool) :
    Except TextError (TextScanner × Nat) :=
  match r.rest.findIdx? test with
  | some i => .ok (r.view r.pos (r.pos + i), r.pos + i)
  | none =>
    if required then .error (.notFound target r.pos) else .ok (r.view r.pos r.stop, r.stop)

/-- How many characters from the cursor on pass a test. -/
def runLength (r : TextScanner) (test : Char → Bool) : Nat := (r.rest.takeWhile test).length

def countWhile (r : TextScanner) (test : Char → Bool) : Except TextError (Nat × Nat) :=
  .ok (r.runLength test, r.pos + r.runLength test)

def readWhile (r : TextScanner) (test : Char → Bool) : Except TextError (TextScanner × Nat) :=
  .ok (r.view r.pos (r.pos + r.runLength test), r.pos + r.runLength test)

end TextScanner

/-! ### Commands -/

/-- A result as the value of a command. -/
def returning {α : Type} (value : α → TextValue) (result : Except TextError (α × Nat)) :
    Except TextError (TextValue × Nat) := result.map fun (a, k) => (value a, k)

namespace Command

/-- The commands that are about the characters of a text. -/
def Textual : Command → Prop
  | byteCount | remaining | buffer | describe | lineColumn _ | readUntilString _ _ | readLine _ =>
    False
  | _ => True

/-- What a command does on a text; those that are not about characters do nothing. -/
def runText (r : TextScanner) : Command → Except TextError (TextValue × Nat)
  | start => .ok (.index r.start, r.pos)
  | stop => .ok (.index r.stop, r.pos)
  | position => .ok (.index r.pos, r.pos)
  | atEnd => .ok (.bool r.rest.isEmpty, r.pos)
  | text => .ok (.text (String.ofList (segment r.chars r.start r.stop)), r.pos)
  | peek => r.next.map fun c => (.text (String.singleton c), r.pos)
  | current => .ok (.text (String.singleton (r.rest.headD Scanner.endMark)), r.pos)
  | character => r.next.map fun c => (.text (String.singleton c), r.pos + 1)
  | characters => .ok (.characters r.rest, r.pos)
  | readCount count => returning .text (r.readCount count)
  | advance count => returning (fun _ => .none) (r.advance count)
  | retreat count => returning (fun _ => .none) (r.retreat count)
  | reset => .ok (.none, r.start)
  | restore mark => returning (fun _ => .none) (r.restore mark)
  | matchChar string => returning .bool (r.matchTest fun c => string = String.singleton c)
  | matchAny chars => returning .bool (r.matchTest fun c => chars.Has c)
  | matchString string => returning .bool (r.matchText string)
  | expectChar string => returning (fun _ => .none) (r.expectChar string)
  | expectString string => returning (fun _ => .none) (r.expectText string)
  | subScanner first last => (r.subScanner first last).map fun t => (.scanner t, r.pos)
  | readUntilChar string required =>
    returning .scanner (r.readUntil (fun c => string = String.singleton c) (.text string) required)
  | readUntilSet chars required =>
    returning .scanner (r.readUntil (fun c => chars.Has c) .charSet required)
  | readUntilTest test required => returning .scanner (r.readUntil test.holds .test required)
  | readToEnd => .ok (.scanner (r.view r.pos r.stop), r.stop)
  | readWhileChar string => returning .number (r.countWhile fun c => string = String.singleton c)
  | readWhileSet chars => returning .scanner (r.readWhile fun c => chars.Has c)
  | readWhileTest test => returning .scanner (r.readWhile test.holds)
  | skipWhitespace =>
    returning .number (r.countWhile (CharTest.holds (r.classifier.test .whitespace)))
  | byteCount | remaining | buffer | describe | lineColumn _ | readUntilString _ _ | readLine _ =>
    .ok (.none, r.pos)

end Command

/-! ### Results stay in the window -/

namespace TextScanner

variable {r t : TextScanner} {α : Type} {c : Char} {k n : Nat}

/-- A scanner for a part of another's window. -/
structure PartOf (t r : TextScanner) : Prop where
  valid : t.Valid
  chars : t.chars = r.chars
  classifier : t.classifier = r.classifier
  start_le : r.start ≤ t.start
  stop_le : t.stop ≤ r.stop

/-- An index that the cursor can be at. -/
def Covers (r : TextScanner) (k : Nat) : Prop := r.start ≤ k ∧ k ≤ r.stop

theorem rest_eq (r : TextScanner) : r.rest = (r.chars.drop r.pos).take (r.stop - r.pos) := by
  rw [rest, segment, List.drop_take]

namespace Valid

theorem length_rest_eq (hr : r.Valid) : r.rest.length = r.stop - r.pos :=
  length_segment hr.stop_le_length

theorem length_rest (hr : r.Valid) : r.pos + r.rest.length = r.stop := by
  have h := hr.pos_le_stop
  rw [hr.length_rest_eq]
  omega

theorem move (hr : r.Valid) (hk : r.Covers k) : ({ r with pos := k } : TextScanner).Valid :=
  ⟨hk.1, hk.2, hr.stop_le_length⟩

theorem covers_start (hr : r.Valid) : r.Covers r.start :=
  ⟨Nat.le_refl _, Nat.le_trans hr.start_le_pos hr.pos_le_stop⟩

theorem covers_stop (hr : r.Valid) : r.Covers r.stop :=
  ⟨Nat.le_trans hr.start_le_pos hr.pos_le_stop, Nat.le_refl _⟩

theorem covers_pos (hr : r.Valid) : r.Covers r.pos := ⟨hr.start_le_pos, hr.pos_le_stop⟩

/-- Going on by some of the characters that are left. -/
theorem covers_add (hr : r.Valid) (hn : n ≤ r.rest.length) : r.Covers (r.pos + n) := by
  have hstart := hr.start_le_pos
  have hrest := hr.length_rest
  exact ⟨by omega, by omega⟩

theorem partOf_view (hr : r.Valid) {i j : Nat} (hi : r.Covers i) (hj : r.Covers j) (hij : i ≤ j) :
    (r.view i j).PartOf r :=
  ⟨⟨Nat.le_refl _, hij, Nat.le_trans hj.2 hr.stop_le_length⟩, rfl, rfl, hi.1, hj.2⟩

theorem covers_next (hr : r.Valid) (h : r.next = .ok c) : r.Covers (r.pos + 1) := by
  unfold next at h
  split at h
  · cases h
  · rename_i hrest
    refine hr.covers_add ?_
    rw [hrest, List.length_cons]
    omega

theorem covers_skip (hr : r.Valid) (h : r.skip n = .ok k) : r.Covers k := by
  unfold skip at h
  by_cases hn : n ≤ r.rest.length
  · rw [if_pos hn] at h
    cases h
    exact hr.covers_add hn
  · rw [if_neg hn] at h
    cases h

end Valid

/-- A result whose cursor stays in the window, as well as the scanner that it may be. -/
def Stays (r : TextScanner) (result : Except TextError (TextValue × Nat)) : Prop :=
  ∀ v k, result = .ok (v, k) → r.Covers k ∧ ∀ t, v = .scanner t → t.PartOf r

theorem stays_of_move {result : Except TextError (α × Nat)} {value : α → TextValue}
    (h : ∀ a k, result = .ok (a, k) → r.Covers k) (hvalue : ∀ a t, value a ≠ .scanner t) :
    r.Stays (returning value result) := by
  intro v k hresult
  obtain ⟨⟨a, j⟩, hok, heq⟩ := Except.map_eq_ok_iff.mp hresult
  cases heq
  exact ⟨h a k hok, fun t ht => absurd ht (hvalue a t)⟩

theorem stays_of_unit {result : Except TextError (Unit × Nat)}
    (h : ∀ u k, result = .ok (u, k) → r.Covers k) :
    r.Stays (returning (fun _ => .none) result) :=
  stays_of_move h fun _ _ => nofun

theorem stays_of_view {result : Except TextError (TextScanner × Nat)}
    (h : ∀ t k, result = .ok (t, k) → r.Covers k ∧ t.PartOf r) :
    r.Stays (returning .scanner result) := by
  intro v k hresult
  obtain ⟨⟨t, j⟩, hok, heq⟩ := Except.map_eq_ok_iff.mp hresult
  cases heq
  obtain ⟨hcovers, hpart⟩ := h t k hok
  refine ⟨hcovers, ?_⟩
  intro t' ht'
  cases ht'
  exact hpart

theorem stays_of_ok {v : TextValue} (hk : r.Covers k) (hv : ∀ t, v = .scanner t → t.PartOf r) :
    r.Stays (.ok (v, k)) := by
  intro v' k' h
  cases h
  exact ⟨hk, hv⟩

theorem covers_matchTest (hr : r.Valid) {test : Char → Bool} {answer : Bool}
    (h : r.matchTest test = .ok (answer, k)) : r.Covers k := by
  obtain ⟨c, hnext, heq⟩ := Except.map_eq_ok_iff.mp h
  by_cases hpass : test c
  · rw [if_pos hpass] at heq
    cases heq
    exact hr.covers_next hnext
  · rw [if_neg hpass] at heq
    cases heq
    exact hr.covers_pos

theorem covers_matchText (hr : r.Valid) {text : String} {answer : Bool}
    (h : r.matchText text = .ok (answer, k)) : r.Covers k := by
  unfold matchText at h
  split at h
  · cases h
  · obtain ⟨j, hskip, heq⟩ := Except.map_eq_ok_iff.mp h
    by_cases hprefix : text.toList.isPrefixOf r.rest
    · rw [if_pos hprefix] at heq
      cases heq
      exact hr.covers_skip hskip
    · rw [if_neg hprefix] at heq
      cases heq
      exact hr.covers_pos

theorem covers_expectChar (hr : r.Valid) {text : String} {u : Unit}
    (h : r.expectChar text = .ok (u, k)) : r.Covers k := by
  obtain ⟨c, hnext, heq⟩ := Except.bind_eq_ok_iff.mp h
  split at heq
  · cases heq
    exact hr.covers_next hnext
  · cases heq

theorem covers_expectText (hr : r.Valid) {text : String} {u : Unit}
    (h : r.expectText text = .ok (u, k)) : r.Covers k := by
  obtain ⟨⟨answer, j⟩, hmatch, heq⟩ := Except.bind_eq_ok_iff.mp h
  cases answer with
  | true =>
      cases heq
      exact covers_matchText hr hmatch
  | false => cases heq

theorem covers_advance (hr : r.Valid) {count : Int} {u : Unit}
    (h : r.advance count = .ok (u, k)) : r.Covers k := by
  unfold advance at h
  split at h
  · cases h
  · obtain ⟨j, hskip, heq⟩ := Except.map_eq_ok_iff.mp h
    cases heq
    exact hr.covers_skip hskip

theorem covers_readCount (hr : r.Valid) {count : Int} {text : String}
    (h : r.readCount count = .ok (text, k)) : r.Covers k := by
  unfold readCount at h
  split at h
  · cases h
  · obtain ⟨j, hskip, heq⟩ := Except.map_eq_ok_iff.mp h
    cases heq
    exact hr.covers_skip hskip

theorem covers_retreat (hr : r.Valid) {count : Int} {u : Unit}
    (h : r.retreat count = .ok (u, k)) : r.Covers k := by
  have hstop := hr.pos_le_stop
  unfold retreat at h
  by_cases hneg : count < 0
  · rw [if_pos hneg] at h
    cases h
  rw [if_neg hneg] at h
  by_cases hstart : r.start + count.toNat ≤ r.pos
  · rw [if_pos hstart] at h
    cases h
    exact ⟨by omega, by omega⟩
  · rw [if_neg hstart] at h
    cases h

theorem covers_restore {mark : Int} {u : Unit} (h : r.restore mark = .ok (u, k)) :
    r.Covers k := by
  unfold restore at h
  split at h
  · rename_i j hindex
    cases h
    have hin := (Option.filter_eq_some_iff.mp hindex).2
    simpa [Covers] using hin
  · cases h

theorem partOf_subScanner (hr : r.Valid) {first last : Int} (h : r.subScanner first last = .ok t) :
    t.PartOf r := by
  have hlength := Nat.le_trans hr.covers_start.2 hr.stop_le_length
  unfold subScanner at h
  by_cases hrange : (offsetOf r.chars r.start : Int) ≤ first ∧ first ≤ last ∧
      last ≤ offsetOf r.chars r.stop
  · rw [if_neg (not_not_intro hrange)] at h
    split at h
    · cases h
    · cases h
    · rename_i i j hfirst hlast
      cases h
      obtain ⟨hi, rfl⟩ := indexOf?_eq_some_iff.mp hfirst
      obtain ⟨hj, rfl⟩ := indexOf?_eq_some_iff.mp hlast
      obtain ⟨hstart, hle, hstop⟩ := hrange
      have hstart := (offsetOf_le_iff hlength).mp (Int.ofNat_le.mp hstart)
      have hle := (offsetOf_le_iff hi).mp (Int.ofNat_le.mp hle)
      have hstop := (offsetOf_le_iff hj).mp (Int.ofNat_le.mp hstop)
      exact hr.partOf_view ⟨hstart, Nat.le_trans hle hstop⟩ ⟨Nat.le_trans hstart hle, hstop⟩ hle
  · rw [if_pos hrange] at h
    cases h

theorem stays_readUntil (hr : r.Valid) {test : Char → Bool} {target : Target} {required : Bool}
    (h : r.readUntil test target required = .ok (t, k)) : r.Covers k ∧ t.PartOf r := by
  unfold readUntil at h
  split at h
  · rename_i i hfind
    cases h
    have hlt := (List.findIdx?_eq_some_iff_findIdx_eq.mp hfind).1
    have hcovers := hr.covers_add (Nat.le_of_lt hlt)
    exact ⟨hcovers, hr.partOf_view hr.covers_pos hcovers (Nat.le_add_right _ _)⟩
  · split at h
    · cases h
    · cases h
      exact ⟨hr.covers_stop, hr.partOf_view hr.covers_pos hr.covers_stop hr.pos_le_stop⟩

theorem runLength_le (r : TextScanner) (test : Char → Bool) : r.runLength test ≤ r.rest.length :=
  (List.takeWhile_prefix test).length_le

theorem covers_countWhile (hr : r.Valid) {test : Char → Bool}
    (h : r.countWhile test = .ok (n, k)) : r.Covers k := by
  cases h
  exact hr.covers_add (r.runLength_le test)

theorem stays_readWhile (hr : r.Valid) {test : Char → Bool}
    (h : r.readWhile test = .ok (t, k)) : r.Covers k ∧ t.PartOf r := by
  cases h
  have hcovers := hr.covers_add (r.runLength_le test)
  exact ⟨hcovers, hr.partOf_view hr.covers_pos hcovers (Nat.le_add_right _ _)⟩

end TextScanner

open TextScanner in
/-- **No command on characters leads out of the window.** -/
theorem Command.runText_stays {r : TextScanner} (hr : r.Valid) (c : Command) :
    r.Stays (c.runText r) := by
  cases c with
  | byteCount => exact stays_of_ok hr.covers_pos nofun
  | remaining => exact stays_of_ok hr.covers_pos nofun
  | buffer => exact stays_of_ok hr.covers_pos nofun
  | describe => exact stays_of_ok hr.covers_pos nofun
  | lineColumn => exact stays_of_ok hr.covers_pos nofun
  | readUntilString => exact stays_of_ok hr.covers_pos nofun
  | readLine => exact stays_of_ok hr.covers_pos nofun
  | start => exact stays_of_ok hr.covers_pos nofun
  | stop => exact stays_of_ok hr.covers_pos nofun
  | position => exact stays_of_ok hr.covers_pos nofun
  | atEnd => exact stays_of_ok hr.covers_pos nofun
  | text => exact stays_of_ok hr.covers_pos nofun
  | current => exact stays_of_ok hr.covers_pos nofun
  | characters => exact stays_of_ok hr.covers_pos nofun
  | peek =>
      intro v k h
      obtain ⟨c, _, heq⟩ := Except.map_eq_ok_iff.mp h
      cases heq
      exact ⟨hr.covers_pos, nofun⟩
  | character =>
      intro v k h
      obtain ⟨c, hnext, heq⟩ := Except.map_eq_ok_iff.mp h
      cases heq
      exact ⟨hr.covers_next hnext, nofun⟩
  | subScanner first last =>
      intro v k h
      obtain ⟨t, hsub, heq⟩ := Except.map_eq_ok_iff.mp h
      cases heq
      refine ⟨hr.covers_pos, ?_⟩
      intro t' ht'
      cases ht'
      exact partOf_subScanner hr hsub
  | reset => exact stays_of_ok hr.covers_start nofun
  | readCount count => exact stays_of_move (fun _ _ => covers_readCount hr) nofun
  | advance count => exact stays_of_unit (fun _ _ => covers_advance hr)
  | retreat count => exact stays_of_unit (fun _ _ => covers_retreat hr)
  | restore mark => exact stays_of_unit (fun _ _ => covers_restore)
  | matchChar text => exact stays_of_move (fun _ _ => covers_matchTest hr) nofun
  | matchAny source => exact stays_of_move (fun _ _ => covers_matchTest hr) nofun
  | matchString text => exact stays_of_move (fun _ _ => covers_matchText hr) nofun
  | expectChar text => exact stays_of_unit (fun _ _ => covers_expectChar hr)
  | expectString text => exact stays_of_unit (fun _ _ => covers_expectText hr)
  | readUntilChar text required => exact stays_of_view fun _ _ => stays_readUntil hr
  | readUntilSet source required => exact stays_of_view fun _ _ => stays_readUntil hr
  | readUntilTest test required => exact stays_of_view fun _ _ => stays_readUntil hr
  | readToEnd =>
      refine stays_of_ok hr.covers_stop ?_
      intro t ht
      cases ht
      exact hr.partOf_view hr.covers_pos hr.covers_stop hr.pos_le_stop
  | readWhileChar text => exact stays_of_move (fun _ _ => covers_countWhile hr) nofun
  | skipWhitespace => exact stays_of_move (fun _ _ => covers_countWhile hr) nofun
  | readWhileSet source => exact stays_of_view fun _ _ => stays_readWhile hr
  | readWhileTest test => exact stays_of_view fun _ _ => stays_readWhile hr

end Utf8Scan
