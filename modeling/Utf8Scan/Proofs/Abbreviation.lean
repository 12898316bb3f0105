/-
What is shown of a text that may be long or malformed.

Previews and layouts that cut show the beginning of a text, with dots behind it if
there is more.

A preview must also show something where the bytes are no text.  It goes by the reader
of whole texts, which puts U+FFFD for the bytes that could have started a character and
goes on behind them.  So does `repaired`, for the whole of a window, and a preview stops
reading as soon as it knows that it will cut.  Up to the first fault the repaired text
is what the other reader yields character by character, since both go by whole
encodings and the fault lies behind the longest text that the bytes start with.
-/
import Utf8Scan.Proofs.Agreement
import Utf8Scan.Proofs.Reachable

namespace Utf8Scan

/-- The first `limit` characters of a text, with dots behind them if there are more. -/
def abbreviated (limit : Nat) (text : String) : String :=
  if text.length ≤ limit then text else String.ofList (text.toList.take limit) ++ "..."

theorem abbreviated_empty (limit : Nat) : abbreviated limit "" = "" := if_pos (Nat.zero_le limit)

theorem eq_empty_of_abbreviated {limit : Nat} {text : String} (h : abbreviated limit text = "") :
    text = "" := by
  unfold abbreviated at h
  split at h
  · exact h
  · have hdots := congrArg String.length h
    rw [String.length_append] at hdots
    exact absurd hdots (Nat.succ_ne_zero _)

/-! ### Repaired texts -/

namespace Strict

variable {lead : UInt8} {rest : List UInt8} {broken : Broken}

theorem le_length_of_follow {matched : Nat} {ranges : List ByteRange}
    (h : follow matched ranges rest = .error broken) : matched ≤ broken.length := by
  induction ranges generalizing matched rest with
  | nil => cases h
  | cons range ranges ih =>
      cases rest with
      | nil =>
          cases h
          exact Nat.le_refl _
      | cons byte rest =>
          rw [follow] at h
          by_cases hbyte : range.1 ≤ byte ∧ byte ≤ range.2
          · rw [if_pos hbyte] at h
            exact Nat.le_of_succ_le (ih h)
          · rw [if_neg hbyte] at h
            cases h
            exact Nat.le_refl _

/-- Every fault takes at least one byte. -/
theorem length_pos (h : decode lead rest = .error broken) : 0 < broken.length := by
  unfold decode at h
  cases hranges : followers? lead with
  | none =>
      simp only [hranges] at h
      cases h
      exact Nat.one_pos
  | some found =>
      simp only [hranges, Except.map_eq_error_iff] at h
      exact le_length_of_follow h

end Strict

namespace Buffer

variable {b : Buffer} {first last : Nat} {c : Char} {chars : List Char} {rest : List UInt8}

/-- The characters of `[first, last)`, with U+FFFD for what is not well formed. -/
def repaired (b : Buffer) (first last : Nat) : List Char :=
  match _hwindow : b.window first last with
  | [] => []
  | lead :: rest =>
    match _hdecode : Strict.decode lead rest with
    | .error broken => '\uFFFD' :: b.repaired (first + broken.length) last
    | .ok (c, width) => c :: b.repaired (first + width.bytes) last
termination_by last - first
decreasing_by
  · have := lt_of_window_eq_cons _hwindow
    have := Strict.length_pos _hdecode
    omega
  · have := lt_of_window_eq_cons _hwindow
    have := width.bytes_pos
    omega

theorem repaired_of_nil (h : b.window first last = []) : b.repaired first last = [] := by
  rw [repaired]
  split
  · rfl
  · rename_i hwindow
    rw [h] at hwindow
    cases hwindow

/-- The equation for `repaired`, with the decoding of what the window holds. -/
theorem repaired_of_cons {lead : UInt8} {tail : List UInt8}
    (h : b.window first last = lead :: tail) : b.repaired first last =
      match Strict.decode lead tail with
      | .error broken => '\uFFFD' :: b.repaired (first + broken.length) last
      | .ok (c, width) => c :: b.repaired (first + width.bytes) last := by
  rw [repaired]
  split
  · rename_i hwindow
    rw [h] at hwindow
    cases hwindow
  · rename_i hwindow
    rw [h] at hwindow
    cases hwindow
    split
    · rename_i hdecode
      rw [hdecode]
    · rename_i hdecode
      rw [hdecode]

theorem repaired_of_ok {lead : UInt8} {tail : List UInt8} {width : Width}
    (hwindow : b.window first last = lead :: tail) (h : Strict.decode lead tail = .ok (c, width)) :
    b.repaired first last = c :: b.repaired (first + width.bytes) last := by
  rw [repaired_of_cons hwindow, h]

theorem repaired_of_error {lead : UInt8} {tail : List UInt8} {broken : Broken}
    (hwindow : b.window first last = lead :: tail) (h : Strict.decode lead tail = .error broken) :
    b.repaired first last = '\uFFFD' :: b.repaired (first + broken.length) last := by
  rw [repaired_of_cons hwindow, h]

/-- Reading only so many characters gives the beginning of the repaired text. -/
theorem lenientText_eq_take (b : Buffer) (first last limit : Nat) :
    b.lenientText first last limit = (b.repaired first last).take limit := by
  induction limit generalizing first with
  | zero => rfl
  | succ n ih =>
      rw [lenientText]
      cases hwindow : b.window first last with
      | nil => rw [repaired_of_nil hwindow]; rfl
      | cons lead tail =>
          simp only
          cases hdecode : Strict.decode lead tail with
          | error broken =>
              rw [repaired_of_error hwindow hdecode, List.take_succ_cons, ← ih]
          | ok found =>
              rw [repaired_of_ok hwindow hdecode, List.take_succ_cons, ← ih]

/-- A text needs no repair. -/
theorem repaired_spell (h : b.between first last = spell chars ++ rest) :
    b.repaired first last = chars ++ b.repaired (first + (spell chars).length) last := by
  induction chars generalizing first with
  | nil => rfl
  | cons c chars ih =>
      obtain ⟨_, hencode, hnext⟩ := between_step h
      obtain ⟨lead, tail, hwindow, hdecode⟩ := window_of_prefix hencode
      rw [repaired_of_ok hwindow hdecode, ih hnext, spell_cons, List.length_append,
        String.length_utf8EncodeChar, Width.bytes_ofChar, Nat.add_assoc, List.cons_append]

end Buffer

namespace Scanner

variable {root s : Scanner} {b : Buffer} {maxSize : Int} {k : Classifier}

/-- The text of the window, with U+FFFD for what is not well formed. -/
def repaired (s : Scanner) : String := String.ofList (s.buffer.repaired s.start s.stop)

/-- Reading one character more than is shown is enough to know whether to cut. -/
theorem preview_eq (s : Scanner) : s.preview = abbreviated 40 s.repaired := by
  have hlength : s.repaired.length = (s.buffer.repaired s.start s.stop).length := by
    rw [repaired, String.length_ofList]
  unfold preview abbreviated
  simp only [previewLength, Buffer.lenientText_eq_take, List.length_take, hlength]
  by_cases hle : (s.buffer.repaired s.start s.stop).length ≤ 40
  · rw [if_neg (by omega), if_pos hle, List.take_of_length_le (by omega), repaired]
  · rw [if_pos (by omega), if_neg hle, List.take_take, repaired, String.toList_ofList]
    rfl

/-- A window that is a text needs no repair.  In any other the characters before the fault stand
first, and then U+FFFD. -/
theorem repaired_cases (hs : s.stop ≤ s.buffer.size) :
    (∃ chars, s.charactersFrom s.start = .ok chars ∧ s.text = .ok s.repaired) ∨
      ∃ e e' tail, s.charactersFrom s.start = .error e ∧ s.text = .error e' ∧
        s.repaired.toList = s.readable ++ '\uFFFD' :: tail := by
  obtain ⟨chars, rest, hwindow, hrest⟩ := exists_spell_append (s.buffer.between s.start s.stop)
  obtain ⟨hvisited, hwalk⟩ := Buffer.walkDecode_spell hs hwindow hrest
  have hreadable : s.readable = chars := hvisited
  have hrepaired := Buffer.repaired_spell hwindow
  have hbehind := Buffer.between_behind hwindow
  have htext := Buffer.text_cases hwindow hrest
  rw [charactersFrom_eq_walk, hvisited, hreadable, text, textBetween, repaired, hrepaired,
    String.toList_ofList]
  rcases hwalk with ⟨hnil, hfailure⟩ | ⟨hne, o, e, _, hfailure⟩
  · obtain ⟨_, htext⟩ | ⟨hne, _⟩ := htext
    · rw [hnil] at hbehind
      have hempty : s.buffer.window (s.start + (spell chars).length) s.stop = [] := by
        rw [Buffer.window_eq_take, hbehind]
        rfl
      rw [hfailure, htext, Buffer.repaired_of_nil hempty, List.append_nil]
      exact Or.inl ⟨chars, rfl, rfl⟩
    · exact absurd hnil hne
  · obtain ⟨hnil, _⟩ | ⟨_, reason, htext⟩ := htext
    · exact absurd hnil hne
    · rw [← hbehind] at hrest hne
      obtain ⟨lead, tail, broken, hlead, hdecode⟩ := Buffer.window_of_stuck hrest hne
      rw [hfailure, htext, Buffer.repaired_of_error hlead hdecode]
      exact Or.inr ⟨e, _, _, rfl, rfl, rfl⟩

/-- **Describing a scanner never fails, and it shows the beginning of the text.**  The preview has
forty characters, and dots behind them if there are more.  A window that is a text is previewed as
it is.  In any other the characters that can be read from its start come first and then U+FFFD, for
the bytes at which reading fails. -/
theorem Reachable.run_describe (hroot : ofBuffer b maxSize k = .ok root) (h : root.Reachable s) :
    ∃ preview, Command.describe.run s = .ok (.text
        s!"Parser(start={s.start}, end={s.stop}, position={s.pos}, text={Text.quoted preview})") s ∧
      (∀ text, s.text = .ok text → preview = abbreviated 40 text) ∧
      ∀ e, s.text = .error e → preview = abbreviated 40 s.repaired ∧
        (∃ e', s.charactersFrom s.start = .error e') ∧
        ∃ tail, s.repaired.toList = s.readable ++ '\uFFFD' :: tail := by
  obtain ⟨hs, _⟩ := h.within (inside_of_ofBuffer hroot)
  refine ⟨s.preview, rfl, ?_⟩
  rw [preview_eq]
  rcases s.repaired_cases hs.stop_le_size with ⟨chars, _, htext⟩ | ⟨e, e', tail, hfails, htext, heq⟩
  · rw [htext]
    refine ⟨?_, nofun⟩
    intro text heq
    rw [Except.ok.inj heq]
  · rw [htext]
    refine ⟨nofun, ?_⟩
    intro _ _
    exact ⟨rfl, ⟨e, hfails⟩, tail, heq⟩

/-- A sequence of three bytes without its last one: U+FFFD stands in its place. -/
theorem Reachable.run_describe_truncated :
    let root : Scanner := ⟨.ofList [0x61, 0xE2, 0x82, 0x62], 0, 4, 0, .unicode⟩
    ofBuffer root.buffer 4 .unicode = .ok root ∧ root.Reachable root ∧
      ∃ preview, Command.describe.run root = .ok (.text
          s!"Parser(start={0}, end={4}, position={0}, text={Text.quoted preview})") root ∧
        preview = "a\uFFFDb" ∧
        (∃ e, root.charactersFrom 0 = .error e) ∧
        ∃ tail, root.repaired.toList = root.readable ++ '\uFFFD' :: tail := by
  intro root
  have hroot : ofBuffer root.buffer 4 .unicode = .ok root := by cbv
  have htext : ∃ e, root.text = .error e := ⟨_, by cbv⟩
  have hrepaired : root.repaired = "a\uFFFDb" := by cbv
  obtain ⟨e, htext⟩ := htext
  obtain ⟨preview, hrun, _, hmalformed⟩ := Reachable.run_describe hroot .root
  obtain ⟨hpreview, hfails, htail⟩ := hmalformed e htext
  rw [hrepaired] at hpreview
  exact ⟨hroot, .root, preview, hrun, hpreview, hfails, htail⟩

end Scanner

end Utf8Scan
