/-
On text, a scanner for bytes does what a scanner for characters does.

`encode` turns a scanner for characters into one for bytes: the text into its encoding,
every index into the offset of its character.  It does the same to values and to
errors.  Each operation on the encoded scanner is then the encoded operation, and
`run_encode` says so of all commands that are about characters.

The proofs are the same for all operations.  The reading lemmas give what the bytes
yield, in terms of the characters of the window, and the two definitions are compared
on that.
-/
import Utf8Scan.Proofs.TextScanner

namespace Utf8Scan

/-! ### Encoding -/

/-- The scanner for the encoding of the text. -/
def TextScanner.encode (r : TextScanner) : Scanner where
  buffer := .ofString (String.ofList r.chars)
  start := offsetOf r.chars r.start
  stop := offsetOf r.chars r.stop
  pos := offsetOf r.chars r.pos
  classifier := r.classifier

def TextError.encode (chars : List Char) : TextError → Error
  | overflow k => .scan (.overflow (offsetOf chars k))
  | underflow k => .scan (.underflow (offsetOf chars k))
  | notFound target k => .scan (.notFound target (offsetOf chars k))
  | unexpected expected found k => .scan (.unexpected expected found (offsetOf chars k))
  | emptyTarget operation => .scan (.emptyTarget operation)
  | refused a => .argument a

def TextValue.encode (chars : List Char) : TextValue → Value
  | none => .none
  | bool answer => .bool answer
  | number n => .number n
  | index k => .number (offsetOf chars k)
  | text string => .text string
  | characters list => .characters list
  | scanner r => .scanner r.encode

namespace TextScanner

variable {r : TextScanner} {α β : Type}

/-- A result as it is told of the encoded text. -/
def tell (r : TextScanner) (value : α → β) : Except TextError α → Except Error β
  | .ok a => .ok (value a)
  | .error e => .error (e.encode r.chars)

/-- The result of a step, with the new cursor. -/
def told (r : TextScanner) (value : α → β) : Except TextError (α × Nat) → Except Error (β × Nat) :=
  r.tell fun (a, k) => (value a, offsetOf r.chars k)

/-- What a program does to the encoded scanner. -/
def result (r : TextScanner) (value : α → β) :
    Except TextError (α × Nat) → EStateM.Result Error Scanner β
  | .ok (a, k) => .ok (value a) ({ r with pos := k } : TextScanner).encode
  | .error e => .error (e.encode r.chars) r.encode

theorem step_encode {f : Scanner → Except Error (β × Nat)} {value : α → β}
    {g : Except TextError (α × Nat)} (h : f r.encode = r.told value g) :
    Scan.step f r.encode = r.result value g := by
  unfold Scan.step
  rw [h]
  rcases g with e | ⟨a, k⟩
  · rfl
  · rfl

/-- The value of a command is made from the result of an operation on both sides. -/
theorem returning_encode {program : Scan β} {value : α → β} {g : Except TextError (α × Nat)}
    {f : β → Value} {w : α → TextValue} (h : program r.encode = r.result value g)
    (hw : ∀ a, (w a).encode r.chars = f (value a)) :
    (do return f (← program) : Scan Value) r.encode
      = r.result (TextValue.encode r.chars) (returning w g) := by
  rcases g with e | ⟨a, k⟩
  · exact Scan.bind_of_error h
  · refine (Scan.bind_of_ok h).trans ?_
    show EStateM.Result.ok (f (value a)) _ = EStateM.Result.ok ((w a).encode r.chars) _
    rw [hw a]

/-! ### The window of the encoded text -/

theorem Valid.spans (hr : r.Valid) : r.encode.Spans r.chars r.start r.stop where
  holds := by
    have h := Buffer.holds_ofString (String.ofList r.chars)
    rwa [String.toList_ofList] at h
  start_eq := rfl
  stop_eq := rfl
  start_le_stop := Nat.le_trans hr.start_le_pos hr.pos_le_stop
  stop_le_length := hr.stop_le_length

/-- There is a character at the cursor, or the window ends there; both scanners see which. -/
theorem Valid.next_cases (hr : r.Valid) :
    (∃ c tail, r.rest = c :: tail ∧ r.next = .ok c ∧
      r.encode.decodeAt r.encode.pos = .ok (c, .ofChar c) ∧
      r.encode.pos + (Width.ofChar c).bytes = offsetOf r.chars (r.pos + 1)) ∨
    (r.pos = r.stop ∧ r.rest = [] ∧ r.next = .error (.overflow r.pos) ∧
      r.encode.decodeAt r.encode.pos = .error (.scan (.overflow (offsetOf r.chars r.pos)))) := by
  rcases Nat.eq_or_lt_of_le hr.pos_le_stop with heq | hlt
  · have hrest : r.rest = [] := by rw [rest, heq, segment_self]
    refine Or.inr ⟨heq, hrest, by simp only [next, hrest], ?_⟩
    have hend := hr.spans.decodeAt_stop
    rw [← heq] at hend
    exact hend
  · obtain ⟨c, hget⟩ := hr.spans.getElem? hlt
    obtain ⟨_, hdecode, hnext, hsegment⟩ := hr.spans.loop_step hlt hget
    have hrest : r.rest = c :: segment r.chars (r.pos + 1) r.stop := hsegment
    exact Or.inl ⟨c, _, hrest, by simp only [next, hrest], hdecode, hnext⟩

theorem Valid.skip_encode (hr : r.Valid) (n : Nat) :
    r.encode.skip n r.encode.pos = r.tell (offsetOf r.chars) (r.skip n) := by
  have hrest := hr.length_rest
  have hskip := hr.spans.skip hr.pos_le_stop n
  refine hskip.trans ?_
  unfold skip
  by_cases hle : n ≤ r.rest.length
  · rw [if_pos hle, if_pos (by omega)]
    rfl
  · rw [if_neg hle, if_neg (by omega)]
    rfl

/-! ### Operations -/

theorem atEnd_encode (hr : r.Valid) : r.encode.atEnd = r.rest.isEmpty := by
  have hrest := hr.length_rest
  rw [Bool.eq_iff_iff, List.isEmpty_iff_length_eq_zero]
  show (offsetOf r.chars r.pos == offsetOf r.chars r.stop) = true ↔ _
  rw [beq_iff_eq]
  constructor
  · intro h
    have heq := offsetOf_inj (Nat.le_trans hr.pos_le_stop hr.stop_le_length) hr.stop_le_length h
    omega
  · intro h
    rw [show r.pos = r.stop by omega]

theorem peek_encode (hr : r.Valid) : r.encode.peek = r.tell id r.next := by
  unfold Scanner.peek
  rcases hr.next_cases with ⟨c, tail, _, hnext, hdecode, _⟩ | ⟨_, _, hnext, hdecode⟩
  · rw [hnext, hdecode]
    rfl
  · rw [hnext, hdecode]
    rfl

theorem current_encode (hr : r.Valid) :
    r.encode.current = .ok (r.rest.headD Scanner.endMark) := by
  unfold Scanner.current
  rw [atEnd_encode hr, peek_encode hr]
  rcases hr.next_cases with ⟨c, tail, hrest, hnext, _⟩ | ⟨_, hrest, _⟩
  · rw [hrest, hnext]
    rfl
  · rw [hrest]
    rfl

theorem character_encode (hr : r.Valid) :
    Scan.character r.encode = r.result id (r.next.map fun c => (c, r.pos + 1)) := by
  refine step_encode ?_
  rcases hr.next_cases with ⟨c, tail, _, hnext, hdecode, hwidth⟩ | ⟨_, _, hnext, hdecode⟩
  · rw [hnext, hdecode]
    show Except.ok (c, r.encode.pos + (Width.ofChar c).bytes) = _
    rw [hwidth]
    rfl
  · rw [hnext, hdecode]
    rfl

theorem advance_encode (hr : r.Valid) (count : Int) :
    Scan.advance count r.encode = r.result id (r.advance count) := by
  refine step_encode ?_
  unfold advance Scan.checkedCount
  by_cases hneg : count < 0
  · rw [if_pos hneg, if_pos hneg]
    rfl
  · rw [if_neg hneg, if_neg hneg]
    simp only [bind, Except.bind, hr.skip_encode]
    cases r.skip count.toNat <;> rfl

theorem retreat_encode (hr : r.Valid) (count : Int) :
    Scan.retreat count r.encode = r.result id (r.retreat count) := by
  refine step_encode ?_
  have hskip := hr.spans.skipBack hr.start_le_pos hr.pos_le_stop count.toNat
  unfold retreat
  by_cases hneg : count < 0
  · rw [if_pos hneg, if_pos hneg]
    rfl
  · rw [if_neg hneg, if_neg hneg]
    refine (congrArg (Except.map _) hskip).trans ?_
    by_cases hle : r.start + count.toNat ≤ r.pos
    · rw [if_pos hle, if_pos hle]
      rfl
    · rw [if_neg hle, if_neg hle]
      rfl

theorem textBetween_encode (hr : r.Valid) {first last : Nat} (hle : first ≤ last) :
    r.encode.textBetween (offsetOf r.chars first) (offsetOf r.chars last)
      = .ok (String.ofList (segment r.chars first last)) := by
  have htext := hr.spans.holds.text hle
  rw [Scanner.textBetween, htext]
  rfl

/-- The text of the characters that a step over them passes. -/
theorem take_encode (hr : r.Valid) {n : Nat} (hn : n ≤ r.rest.length) :
    r.encode.textBetween r.encode.pos (offsetOf r.chars (r.pos + n))
      = .ok (String.ofList (r.rest.take n)) := by
  have hlength := hr.length_rest_eq
  have htake : segment r.chars r.pos (r.pos + n) = r.rest.take n := by
    rw [segment_eq_take, r.rest_eq, List.take_take, Nat.min_eq_left (by omega)]
  rw [← htake]
  exact textBetween_encode hr (Nat.le_add_right _ _)

theorem readCount_encode (hr : r.Valid) (count : Int) :
    Scan.readCount count r.encode = r.result id (r.readCount count) := by
  refine step_encode ?_
  unfold readCount Scan.checkedCount
  by_cases hneg : count < 0
  · rw [if_pos hneg, if_pos hneg]
    rfl
  · rw [if_neg hneg, if_neg hneg]
    simp only [bind, Except.bind, hr.skip_encode]
    unfold skip
    by_cases hle : count.toNat ≤ r.rest.length
    · simp only [if_pos hle, tell, take_encode hr hle]
      rfl
    · rw [if_neg hle]
      rfl

/-! ### Integers as offsets -/

/-- An integer is a boundary of the encoded text exactly if it is the offset of a character. -/
theorem Valid.isBoundary_eq (hr : r.Valid) (offset : Int) :
    r.encode.buffer.isBoundary offset = (indexOf? r.chars offset).isSome := by
  rw [Bool.eq_iff_iff, Option.isSome_iff_exists]
  constructor
  · intro h
    have hnonneg : 0 ≤ offset := by
      simp only [Buffer.isBoundary, Bool.and_eq_true, decide_eq_true_eq] at h
      exact h.1.1
    obtain ⟨o, rfl⟩ := Int.eq_ofNat_of_zero_le hnonneg
    obtain ⟨k, hk, rfl⟩ := hr.spans.holds.isBoundary_iff.mp h
    exact ⟨k, indexOf?_eq_some_iff.mpr ⟨hk, rfl⟩⟩
  · rintro ⟨k, h⟩
    obtain ⟨hk, rfl⟩ := indexOf?_eq_some_iff.mp h
    exact hr.spans.holds.isBoundary_iff.mpr ⟨k, hk, rfl⟩

theorem restore_encode (hr : r.Valid) (mark : Int) :
    Scan.restore mark r.encode = r.result id (r.restore mark) := by
  refine step_encode ?_
  have hboundary := hr.isBoundary_eq mark
  unfold restore
  cases hindex : indexOf? r.chars mark with
  | none =>
      rw [hindex, Option.isSome_none] at hboundary
      rw [if_neg (by rw [hboundary]; simp)]
      rfl
  | some k =>
      rw [hindex, Option.isSome_some] at hboundary
      obtain ⟨hk, rfl⟩ := indexOf?_eq_some_iff.mp hindex
      have hstart : r.encode.start ≤ offsetOf r.chars k ↔ r.start ≤ k :=
        offsetOf_le_iff hr.spans.start_le_length
      have hstop : offsetOf r.chars k ≤ r.encode.stop ↔ k ≤ r.stop := offsetOf_le_iff hk
      by_cases hin : r.start ≤ k ∧ k ≤ r.stop
      · rw [if_pos ⟨Int.ofNat_le.mpr (hstart.mpr hin.1), Int.ofNat_le.mpr (hstop.mpr hin.2),
          hboundary⟩]
        simp only [Option.filter_some, hin, decide_true, Bool.and_self, if_true]
        rfl
      · rw [if_neg fun h => hin ⟨hstart.mp (Int.ofNat_le.mp h.1), hstop.mp (Int.ofNat_le.mp h.2.1)⟩]
        have hfilter : (decide (r.start ≤ k) && decide (k ≤ r.stop)) = false := by
          simpa using hin
        simp only [Option.filter_some, hfilter]
        rfl

theorem subScanner_encode (hr : r.Valid) (first last : Int) :
    r.encode.subScanner first last = r.tell encode (r.subScanner first last) := by
  unfold Scanner.subScanner subScanner
  rw [hr.isBoundary_eq first, hr.isBoundary_eq last]
  by_cases hrange : (offsetOf r.chars r.start : Int) ≤ first ∧ first ≤ last
      ∧ last ≤ offsetOf r.chars r.stop
  · have hrange' : (r.encode.start : Int) ≤ first ∧ first ≤ last ∧ last ≤ r.encode.stop := hrange
    rw [if_neg (not_not_intro hrange), if_neg (not_not_intro hrange')]
    cases hfirst : indexOf? r.chars first with
    | none => rfl
    | some i =>
        obtain ⟨_, rfl⟩ := indexOf?_eq_some_iff.mp hfirst
        cases hlast : indexOf? r.chars last with
        | none => rfl
        | some j =>
            obtain ⟨_, rfl⟩ := indexOf?_eq_some_iff.mp hlast
            rfl
  · have hrange' : ¬ ((r.encode.start : Int) ≤ first ∧ first ≤ last ∧ last ≤ r.encode.stop) :=
      hrange
    rw [if_pos hrange, if_pos hrange']
    rfl

/-! ### Matches -/

theorem equals_holds (text : String) :
    (CharTest.equals text).holds = fun c => decide (text = String.singleton c) := by
  funext c
  simp only [CharTest.holds, CharTest.equals_eq]

theorem inSet_holds {source : CharSource} {set : CharSet} (h : source.resolve = .ok set) :
    (CharTest.inSet set).holds = fun c => decide (source.Has c) := by
  funext c
  simp only [CharTest.holds, CharTest.inSet_eq h]

theorem matchTest_encode (hr : r.Valid) {test : CharTest} (htest : test.Total) :
    Scan.matchTest test r.encode = r.result id (r.matchTest test.holds) := by
  refine step_encode ?_
  unfold matchTest
  rcases hr.next_cases with ⟨c, tail, _, hnext, hdecode, hwidth⟩ | ⟨_, _, hnext, hdecode⟩
  · simp only [hnext, hdecode, htest.eq, hwidth]
    cases hpass : test.holds c with
    | true =>
        simp only [Except.map, told, tell, hpass, if_true]
        rfl
    | false =>
        simp only [Except.map, told, tell, hpass, Bool.false_eq_true, if_false]
        rfl
  · rw [hnext, hdecode]
    rfl

theorem matchChar_encode (hr : r.Valid) (text : String) :
    Scan.matchChar text r.encode
      = r.result id (r.matchTest fun c => text = String.singleton c) := by
  rw [← equals_holds]
  exact matchTest_encode hr (CharTest.equals_total text)

/-- The bytes of a text lie at the cursor exactly if its characters do. -/
theorem Valid.holdsAt_iff (hr : r.Valid) {text : String} (hlength : text.length ≤ r.rest.length) :
    (offsetOf r.chars (r.pos + text.length) = r.encode.pos + (Scan.encoded text).length ∧
      r.encode.buffer.holdsAt r.encode.pos (Scan.encoded text) = true) ↔
    text.toList.isPrefixOf r.rest = true := by
  have hbytes : r.encode.buffer.holdsAt r.encode.pos (Scan.encoded text) = true ↔
      text.toList <+: r.chars.drop r.pos := by
    rw [Buffer.holdsAt_iff, Scan.encoded_eq, hr.spans.holds.toList_eq]
    show spell text.toList <+: (spell r.chars).drop (offsetOf r.chars r.pos) ↔ _
    rw [drop_offsetOf, spell_prefix_iff]
  rw [hr.length_rest_eq] at hlength
  rw [hbytes, List.isPrefixOf_iff_prefix, r.rest_eq, List.prefix_take_iff, String.length_toList,
    and_iff_left hlength]
  constructor
  · exact And.right
  · intro hprefix
    refine ⟨?_, hprefix⟩
    rw [offsetOf_add, Scan.encoded_eq, ← String.length_toList,
      ← List.prefix_iff_eq_take.mp hprefix]
    rfl

theorem matchText_encode (hr : r.Valid) (text : String) :
    Scan.matchString text r.encode = r.result id (r.matchText text) := by
  refine step_encode ?_
  unfold matchText
  by_cases hempty : text = ""
  · rw [if_pos hempty, if_pos hempty]
    rfl
  rw [if_neg hempty, if_neg hempty, hr.skip_encode]
  unfold skip
  by_cases hle : text.length ≤ r.rest.length
  · simp only [if_pos hle, tell, Except.map]
    by_cases hprefix : text.toList.isPrefixOf r.rest = true
    · rw [if_pos ((hr.holdsAt_iff hle).mpr hprefix)]
      simp only [told, tell, hprefix, if_true]
      rfl
    · rw [if_neg fun h => hprefix ((hr.holdsAt_iff hle).mp h)]
      simp only [told, tell, hprefix]
      rfl
  · rw [if_neg hle]
    rfl

theorem expectChar_encode (hr : r.Valid) (text : String) :
    Scan.expectChar text r.encode = r.result id (r.expectChar text) := by
  have hmatch := matchChar_encode hr text
  unfold matchTest at hmatch
  unfold Scan.expectChar expectChar
  rcases hr.next_cases with ⟨c, tail, _, hnext, hdecode, _⟩ | ⟨_, _, hnext, _⟩
  · rw [hnext] at hmatch ⊢
    by_cases htext : text = String.singleton c
    · simp only [Except.map, htext, decide_true, if_true] at hmatch
      simp only [Except.bind, htext, if_true]
      exact Scan.bind_of_ok hmatch
    · simp only [Except.map, htext, decide_false] at hmatch
      simp only [Except.bind, htext, if_false]
      refine (Scan.bind_of_ok hmatch).trans ?_
      have hpeek : Scan.query Scanner.peek r.encode = .ok c r.encode := by
        simp only [Scan.query, Scanner.peek, hdecode, Except.map]
      exact Scan.bind_of_ok hpeek
  · rw [hnext] at hmatch ⊢
    exact Scan.bind_of_error hmatch

theorem expectText_encode (hr : r.Valid) (text : String) :
    Scan.expectString text r.encode = r.result id (r.expectText text) := by
  have hmatch := matchText_encode hr text
  have hskip := hr.skip_encode text.length
  unfold matchText at hmatch
  unfold Scan.expectString expectText matchText
  by_cases hempty : text = ""
  · rw [if_pos hempty] at hmatch ⊢
    exact Scan.bind_of_error hmatch
  rw [if_neg hempty] at hmatch ⊢
  unfold skip at hmatch hskip ⊢
  by_cases hle : text.length ≤ r.rest.length
  · rw [if_pos hle] at hmatch hskip ⊢
    by_cases hprefix : text.toList.isPrefixOf r.rest = true
    · simp only [Except.map, hprefix, if_true] at hmatch
      simp only [Except.map, Except.bind, hprefix, if_true]
      exact Scan.bind_of_ok hmatch
    · simp only [Except.map, hprefix] at hmatch
      simp only [Except.map, Except.bind, hprefix]
      refine (Scan.bind_of_ok hmatch).trans ?_
      have hfound : Scan.query (fun s => (s.skip text.length s.pos).bind (s.textBetween s.pos))
          r.encode = .ok (String.ofList (r.rest.take text.length)) r.encode := by
        simp only [Scan.query, hskip, tell, Except.bind, take_encode hr hle]
      exact Scan.bind_of_ok hfound
  · rw [if_neg hle] at hmatch ⊢
    exact Scan.bind_of_error hmatch

/-! ### Searches -/

theorem readUntil_encode (hr : r.Valid) {test : CharTest} (htest : test.Total) (target : Target)
    (required : Bool) :
    Scan.readUntil test target required r.encode
      = r.result encode (r.readUntil test.holds target required) := by
  refine step_encode ?_
  have hseek := hr.spans.seek htest hr.pos_le_stop
  refine (congrArg (Except.bind · (r.encode.finish target required)) hseek).trans ?_
  unfold readUntil
  show r.encode.finish target required (r.rest.findIdx? test.holds |>.map _) = _
  cases hfind : r.rest.findIdx? test.holds with
  | some i => rfl
  | none => cases required <;> rfl

theorem countWhile_encode (hr : r.Valid) {test : CharTest} (htest : test.Total) :
    Scan.countWhile test r.encode = r.result id (r.countWhile test.holds) := by
  refine step_encode ?_
  refine (hr.spans.tally htest hr.pos_le_stop 0).trans ?_
  rw [Nat.zero_add]
  rfl

theorem readWhile_encode (hr : r.Valid) {test : CharTest} (htest : test.Total) :
    Scan.readWhile test r.encode = r.result encode (r.readWhile test.holds) := by
  refine step_encode ?_
  refine (congrArg (Except.map _) (hr.spans.pass htest hr.pos_le_stop)).trans ?_
  rfl

end TextScanner

namespace Command

open TextScanner

variable {r : TextScanner}

/-- A question leaves the cursor where it is on both sides. -/
theorem query_encode {c : Command} (f : Scanner → Except Error Value)
    (g : Except TextError TextValue) (hrun : c.run = Scan.query f)
    (htext : c.runText r = g.map fun v => (v, r.pos))
    (h : f r.encode = r.tell (TextValue.encode r.chars) g) :
    c.run r.encode = r.result (TextValue.encode r.chars) (c.runText r) := by
  rw [hrun, htext]
  unfold Scan.query
  rw [h]
  rcases g with e | v
  · rfl
  · rfl

/-- A move returns nothing on both sides. -/
theorem move_encode {program : Scan Unit} {g : Except TextError (Unit × Nat)}
    (h : program r.encode = r.result id g) :
    (do program; return Value.none : Scan Value) r.encode
      = r.result (TextValue.encode r.chars) (returning (fun _ => .none) g) :=
  returning_encode (f := fun _ => .none) h fun _ => rfl

/-- With a set of characters, the test is to be one of those that the caller gave. -/
theorem withChars_encode {α β : Type} {source : CharSource} {operation : CharSet → Scan β}
    {f : α → β} (g : (Char → Bool) → Except TextError (α × Nat))
    (hsource : ∃ set, source.resolve = .ok set)
    (h : ∀ set, operation set r.encode = r.result f (g (CharTest.inSet set).holds)) :
    withChars source operation r.encode = r.result f (g fun c => source.Has c) := by
  obtain ⟨set, hset⟩ := hsource
  rw [withChars_of_ok hset, ← inSet_holds hset]
  exact h set

/-- **On a text that is well formed, a command on bytes is the command on characters.** -/
theorem run_encode {c : Command} (hr : r.Valid) (hk : r.classifier.Total) (hc : c.Textual)
    (ht : c.Total) :
    c.run r.encode = r.result (TextValue.encode r.chars) (c.runText r) := by
  cases c with
  | byteCount => exact hc.elim
  | remaining => exact hc.elim
  | buffer => exact hc.elim
  | describe => exact hc.elim
  | lineColumn => exact hc.elim
  | readUntilString => exact hc.elim
  | readLine => exact hc.elim
  | start => rfl
  | stop => rfl
  | position => rfl
  | atEnd =>
      refine query_encode (fun s => .ok (.bool s.atEnd)) (.ok (.bool r.rest.isEmpty)) rfl rfl ?_
      rw [atEnd_encode hr]
      rfl
  | text =>
      refine query_encode (fun s => s.text.map .text)
        (.ok (.text (String.ofList (segment r.chars r.start r.stop)))) rfl rfl ?_
      have htext := textBetween_encode hr hr.spans.start_le_stop
      exact congrArg (Except.map _) htext
  | peek =>
      refine query_encode (fun s => s.peek.map fun c => .text (String.singleton c))
        (r.next.map fun c => .text (String.singleton c)) rfl ?_ ?_
      · show r.next.map _ = (r.next.map _).map _
        cases r.next <;> rfl
      · rw [peek_encode hr]
        cases r.next <;> rfl
  | current =>
      refine query_encode (fun s => s.current.map fun c => .text (String.singleton c))
        (.ok (.text (String.singleton (r.rest.headD Scanner.endMark)))) rfl rfl ?_
      rw [current_encode hr]
      rfl
  | characters =>
      refine query_encode (fun s => s.characters.map .characters) (.ok (.characters r.rest)) rfl rfl
        ?_
      exact congrArg (Except.map _) (hr.spans.charactersFrom hr.pos_le_stop)
  | subScanner first last =>
      refine query_encode (fun s => (s.subScanner first last).map .scanner)
        ((r.subScanner first last).map .scanner) rfl ?_ ?_
      · show (r.subScanner first last).map _ = ((r.subScanner first last).map _).map _
        cases r.subScanner first last <;> rfl
      · rw [subScanner_encode hr]
        cases r.subScanner first last <;> rfl
  | character =>
      have hrun := returning_encode (f := fun c => .text (String.singleton c))
        (w := fun c => .text (String.singleton c)) (character_encode hr) fun _ => rfl
      refine hrun.trans ?_
      show r.result _ (returning _ (r.next.map _)) = r.result _ (r.next.map _)
      cases r.next <;> rfl
  | readCount count =>
      exact returning_encode (f := .text) (w := .text) (readCount_encode hr count) fun _ => rfl
  | advance count => exact move_encode (advance_encode hr count)
  | retreat count => exact move_encode (retreat_encode hr count)
  | reset => rfl
  | restore mark => exact move_encode (restore_encode hr mark)
  | expectChar text => exact move_encode (expectChar_encode hr text)
  | expectString text => exact move_encode (expectText_encode hr text)
  | matchChar text =>
      exact returning_encode (f := .bool) (w := .bool) (matchChar_encode hr text) fun _ => rfl
  | matchString text =>
      exact returning_encode (f := .bool) (w := .bool) (matchText_encode hr text) fun _ => rfl
  | matchAny source =>
      refine returning_encode (f := .bool) (w := .bool) ?_ fun _ => rfl
      refine withChars_encode r.matchTest (ht.chars source rfl) fun set => ?_
      exact matchTest_encode hr (CharTest.inSet_total set)
  | readUntilChar text required =>
      refine returning_encode (f := .scanner) (w := .scanner) ?_ fun _ => rfl
      rw [← equals_holds]
      exact readUntil_encode hr (CharTest.equals_total text) (.text text) required
  | readUntilSet source required =>
      refine returning_encode (f := .scanner) (w := .scanner) ?_ fun _ => rfl
      refine withChars_encode (fun test => r.readUntil test .charSet required) (ht.chars source rfl) fun set => ?_
      exact readUntil_encode hr (CharTest.inSet_total set) .charSet required
  | readUntilTest test required =>
      refine returning_encode (f := .scanner) (w := .scanner) ?_ fun _ => rfl
      exact readUntil_encode hr (ht.test test rfl) .test required
  | readToEnd => rfl
  | readWhileChar text =>
      refine returning_encode (f := .number) (w := .number) ?_ fun _ => rfl
      rw [← equals_holds]
      exact countWhile_encode hr (CharTest.equals_total text)
  | readWhileSet source =>
      refine returning_encode (f := .scanner) (w := .scanner) ?_ fun _ => rfl
      refine withChars_encode r.readWhile (ht.chars source rfl) fun set => ?_
      exact readWhile_encode hr (CharTest.inSet_total set)
  | readWhileTest test =>
      refine returning_encode (f := .scanner) (w := .scanner) ?_ fun _ => rfl
      exact readWhile_encode hr (ht.test test rfl)
  | skipWhitespace =>
      refine returning_encode (f := .number) (w := .number) ?_ fun _ => rfl
      exact countWhile_encode hr (hk .whitespace)

end Command

end Utf8Scan
