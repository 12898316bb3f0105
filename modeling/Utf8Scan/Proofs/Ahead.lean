/-
What lies ahead of the cursor.

A text is ahead if the window goes on with its encoding.  Reading characters one by one,
reading them in one go, comparing them one by one and comparing them in one go come to
the same: each of them succeeds if a text is ahead, the one it returns or the one it is
given, and moves the cursor past it.

Working in one go means to count first, by the leading bytes, and the count takes
sequences that spell nothing for characters.  It does no harm.  What was counted is
compared with an encoding, or refused where it is none, and an encoding is counted as it
is read, because a move by more characters always leads further.
-/
import Utf8Scan.Proofs.BackAndForth
import Utf8Scan.Proofs.Agreement
import Utf8Scan.Proofs.Reachable

namespace Utf8Scan

/-! ### The start of a window -/

namespace Buffer

variable {b : Buffer} {o first last : Nat} {c : Char} {chars : List Char} {bytes : List UInt8}

theorem holdsAt_iff_between :
    b.holdsAt o bytes = true ↔ b.between o (o + bytes.length) = bytes := by
  rw [holdsAt_iff, between_eq, Nat.add_sub_cancel_left, List.prefix_iff_eq_take, eq_comm]

theorem spell_cons_prefix_iff : spell (c :: chars) <+: b.between first last ↔
    String.utf8EncodeChar c <+: b.between first last ∧
      spell chars <+: b.between (first + c.utf8Size) last := by
  rw [spell_cons, between_add, ← String.length_utf8EncodeChar]
  constructor
  · rintro ⟨rest, hrest⟩
    rw [List.append_assoc] at hrest
    rw [← hrest, List.drop_left]
    exact ⟨List.prefix_append _ _, List.prefix_append _ _⟩
  · rintro ⟨⟨rest, hrest⟩, htail⟩
    rw [← hrest, List.drop_left] at htail
    rw [← hrest]
    exact (List.prefix_append_right_inj _).mpr htail

/-- The offset that `count` steps forward lead to. -/
def nextTimes (b : Buffer) (limit : Int) : (count : Nat) → (offset : Int) → Except Error Int
  | 0, offset => .ok offset
  | n + 1, offset => (b.next offset limit).bind (b.nextTimes limit n)

end Buffer

namespace Scanner

variable {s : Scanner} {c : Char} {chars : List Char} {width : Width} {m n o o' : Nat}

/-! ### Counting characters -/

theorem nextTimes_eq_skip (s : Scanner) (n o : Nat) :
    s.buffer.nextTimes s.stop n o = (s.skip n o).map (Nat.cast : Nat → Int) := by
  induction n generalizing o with
  | zero => rfl
  | succ n ih =>
      rw [Buffer.nextTimes, Buffer.next, skip]
      change ((s.measureAt o).map _).bind _ = _
      cases s.measureAt o with
      | error e => rfl
      | ok width => exact ih (o + width.bytes)

/-- A move by more characters leads further. -/
theorem lt_of_skip (hlt : m < n) (hm : s.skip m o = .ok o') : s.skip n o ≠ .ok o' := by
  obtain ⟨d, rfl⟩ := Nat.exists_eq_add_of_lt hlt
  intro hn
  rw [Nat.add_assoc, skip_add, hm] at hn
  change s.skip (d + 1) o' = .ok o' at hn
  rw [skip] at hn
  cases hmeasure : s.measureAt o' with
  | error e => simp only [hmeasure] at hn; cases hn
  | ok width =>
      simp only [hmeasure] at hn
      have hpos := width.bytes_pos
      have hle := WalksTo.le (skip_walksTo hn)
      omega

theorem skip_injective (hm : s.skip m o = .ok o') (hn : s.skip n o = .ok o') : m = n := by
  rcases Nat.lt_trichotomy m n with hlt | heq | hgt
  · exact absurd hn (lt_of_skip hlt hm)
  · exact heq
  · exact absurd hm (lt_of_skip hgt hn)

/-- The window starts with what is skipped. -/
theorem between_prefix_of_skip (h : s.skip n o = .ok o') :
    s.buffer.between o o' <+: s.buffer.between o s.stop := by
  have hle := WalksTo.le (skip_walksTo h)
  cases n with
  | zero =>
      cases h
      rw [Buffer.between_eq, Nat.sub_self]
      exact List.nil_prefix
  | succ n =>
      rw [skip] at h
      cases hmeasure : s.measureAt o with
      | error e => simp only [hmeasure] at h; cases h
      | ok width =>
          simp only [hmeasure] at h
          have hstop := skip_le (measureAt_le hmeasure) h
          rw [← Buffer.between_append hle hstop]
          exact List.prefix_append _ _

/-! ### Texts ahead -/

/-- The window goes on with a text. -/
def Ahead (s : Scanner) (chars : List Char) : Prop := spell chars <+: s.buffer.between s.pos s.stop

/-- The scanner with its cursor moved past a text. -/
def past (s : Scanner) (chars : List Char) : Scanner :=
  { s with pos := s.pos + (spell chars).length }

theorem ahead_nil (s : Scanner) : s.Ahead [] := List.nil_prefix

theorem pos_past (s : Scanner) (chars : List Char) :
    (s.past chars).pos = s.pos + (spell chars).length := rfl

theorem past_cons (s : Scanner) (c : Char) (chars : List Char) :
    s.past (c :: chars) = (s.past [c]).past chars := by
  simp [past, spell_cons, Nat.add_assoc]

theorem past_singleton (s : Scanner) (c : Char) :
    s.past [c] = { s with pos := s.pos + (Width.ofChar c).bytes } := by
  simp [past, spell_cons, Width.bytes_ofChar]

theorem ahead_singleton_iff : s.Ahead [c] ↔
    String.utf8EncodeChar c <+: s.buffer.between s.pos s.stop := by
  rw [Ahead, spell_cons, spell_nil, List.append_nil]

theorem ahead_cons_iff : s.Ahead (c :: chars) ↔ s.Ahead [c] ∧ (s.past [c]).Ahead chars := by
  rw [ahead_singleton_iff, Ahead, Buffer.spell_cons_prefix_iff, past_singleton, Ahead,
    Width.bytes_ofChar]

/-- A character is read if it is ahead. -/
theorem decodeAt_pos_eq_ok_iff : s.decodeAt s.pos = .ok (c, width) ↔
    width = .ofChar c ∧ s.Ahead [c] := by
  rw [ahead_singleton_iff]
  exact Buffer.decode_natCast_eq_ok_iff

theorem atEnd_iff : s.atEnd = true ↔ s.pos = s.stop := by
  simp [atEnd]

theorem not_ahead_of_atEnd (h : s.atEnd = true) : ¬ s.Ahead [c] := by
  intro hahead
  have hlt := decodeAt_lt (decodeAt_pos_eq_ok_iff.mpr ⟨rfl, hahead⟩)
  exact absurd (atEnd_iff.mp h) (Nat.ne_of_lt hlt)

/-- A text is counted as it is read. -/
theorem skip_of_ahead (h : s.Ahead chars) :
    s.skip chars.length s.pos = .ok (s.past chars).pos := by
  induction chars generalizing s with
  | nil => rfl
  | cons c chars ih =>
      obtain ⟨hchar, hrest⟩ := ahead_cons_iff.mp h
      have hmeasure := measureAt_of_decodeAt (decodeAt_pos_eq_ok_iff.mpr ⟨rfl, hchar⟩)
      rw [List.length_cons, skip, hmeasure, past_cons, ← ih hrest, past_singleton, skip_move]

theorem textBetween_eq_ok_iff {text : String} :
    s.textBetween o o' = .ok text ↔ s.buffer.between o o' = spell text.toList := by
  rw [textBetween, Except.mapError_eq_ok_iff, Buffer.text_eq_ok_iff]

/-- What is counted is a text only if the text is ahead and has as many characters. -/
theorem skip_between_iff (hs : s.Inside) :
    s.skip n s.pos = .ok o ∧ s.buffer.between s.pos o = spell chars ↔
      chars.length = n ∧ s.Ahead chars ∧ o = (s.past chars).pos := by
  constructor
  · rintro ⟨hskip, hbetween⟩
    have hahead : s.Ahead chars := by
      rw [Ahead, ← hbetween]
      exact between_prefix_of_skip hskip
    have hfirst := WalksTo.le (skip_walksTo hskip)
    have hlast := Nat.le_trans (skip_le hs.pos_le_stop hskip) hs.stop_le_size
    have ho : o = (s.past chars).pos := by
      rw [pos_past, ← hbetween, Buffer.length_between hlast, Nat.add_sub_cancel' hfirst]
    -- Counting the text leads to the same place, and no other count does.
    rw [ho] at hskip
    exact ⟨skip_injective (skip_of_ahead hahead) hskip, hahead, ho⟩
  · rintro ⟨rfl, hahead, rfl⟩
    exact ⟨skip_of_ahead hahead, Buffer.between_of_prefix hahead⟩

/-- What is counted holds a text of as many characters exactly if the text is ahead. -/
theorem skip_holdsAt_iff (hlength : chars.length = n) (hskip : s.skip n s.pos = .ok o) :
    o = s.pos + (spell chars).length ∧ s.buffer.holdsAt s.pos (spell chars) = true ↔
      s.Ahead chars := by
  rw [Buffer.holdsAt_iff_between]
  constructor
  · rintro ⟨rfl, hbetween⟩
    have hprefix := between_prefix_of_skip hskip
    rwa [hbetween] at hprefix
  · intro hahead
    rw [← hlength, skip_of_ahead hahead] at hskip
    cases hskip
    exact ⟨rfl, Buffer.between_of_prefix hahead⟩

end Scanner

/-! ### Readers and comparisons -/

namespace Scan

open Scanner

variable {s left : Scanner} {c : Char} {chars : List Char} {text : String} {n : Nat}

/-- Reads characters one by one. -/
def readEach (count : Nat) : Scan (List Char) := (List.replicate count character).mapM id

/-- Compares the next characters with those of a text, one by one. -/
def matchEach (text : String) : Scan (List Bool) :=
  text.toList.mapM fun c => matchChar (String.singleton c)

theorem character_eq_ok_iff : character s = .ok c left ↔ s.Ahead [c] ∧ left = s.past [c] := by
  simp only [character, step_eq_ok_iff, Except.map_eq_ok_iff, past_singleton]
  constructor
  · rintro ⟨_, ⟨⟨d, width⟩, hdecode, ⟨⟩⟩, rfl⟩
    obtain ⟨rfl, hahead⟩ := decodeAt_pos_eq_ok_iff.mp hdecode
    exact ⟨hahead, rfl⟩
  · rintro ⟨hahead, rfl⟩
    exact ⟨_, ⟨_, decodeAt_pos_eq_ok_iff.mpr ⟨rfl, hahead⟩, rfl⟩, rfl⟩

/-- A character is compared with the one that is ahead. -/
theorem matchChar_eq_ok_iff {answer : Bool} :
    matchChar (String.singleton c) s = .ok answer left ↔
      ∃ d, s.Ahead [d] ∧ answer = decide (d = c) ∧ left = if d = c then s.past [d] else s := by
  simp only [matchChar, matchTest, step_eq_ok_iff, CharTest.equals_eq, String.singleton_inj]
  constructor
  · intro h
    obtain ⟨pos, h, rfl⟩ := h
    cases hdecode : s.decodeAt s.pos with
    | error e => simp [hdecode] at h
    | ok read =>
        obtain ⟨d, width⟩ := read
        obtain ⟨rfl, hahead⟩ := decodeAt_pos_eq_ok_iff.mp hdecode
        refine ⟨d, hahead, ?_⟩
        by_cases hd : d = c
        · simp only [hdecode, Except.map, hd, decide_true, if_true] at h
          cases h
          simp [hd, past_singleton]
        · simp only [hdecode, Except.map, Ne.symm hd, decide_false, Bool.false_eq_true,
            if_false] at h
          cases h
          simp [hd]
  · intro h
    obtain ⟨d, hahead, rfl, rfl⟩ := h
    have hdecode := decodeAt_pos_eq_ok_iff.mpr ⟨rfl, hahead⟩
    by_cases hd : d = c
    · refine ⟨s.pos + (Width.ofChar d).bytes, ?_, by simp [hd, past_singleton]⟩
      simp [hdecode, Except.map, hd]
    · exact ⟨s.pos, by simp [hdecode, Except.map, hd, Ne.symm hd], by simp [hd]⟩

theorem matchChar_eq_true_iff : matchChar (String.singleton c) s = .ok true left ↔
    s.Ahead [c] ∧ left = s.past [c] := by
  rw [matchChar_eq_ok_iff]
  constructor
  · intro h
    obtain ⟨d, hahead, hd, hleft⟩ := h
    obtain rfl : d = c := of_decide_eq_true hd.symm
    exact ⟨hahead, by simpa using hleft⟩
  · intro h
    obtain ⟨hahead, rfl⟩ := h
    exact ⟨c, hahead, by simp, by simp⟩

theorem matchChar_eq_false_iff : matchChar (String.singleton c) s = .ok false left ↔
    left = s ∧ ∃ d, d ≠ c ∧ s.Ahead [d] := by
  rw [matchChar_eq_ok_iff]
  constructor
  · intro h
    obtain ⟨d, hahead, hd, hleft⟩ := h
    have hne : d ≠ c := of_decide_eq_false hd.symm
    exact ⟨by simpa [hne] using hleft, d, hne, hahead⟩
  · intro h
    obtain ⟨rfl, d, hne, hahead⟩ := h
    exact ⟨d, hahead, by simp [hne], by simp [hne]⟩

theorem readEach_eq_ok_iff : readEach n s = .ok chars left ↔
    chars.length = n ∧ s.Ahead chars ∧ left = s.past chars := by
  unfold readEach
  induction n generalizing s chars with
  | zero =>
      constructor
      · rintro ⟨⟩
        exact ⟨rfl, ahead_nil _, rfl⟩
      · rintro ⟨hlength, _, rfl⟩
        obtain rfl := List.length_eq_zero_iff.mp hlength
        rfl
  | succ n ih =>
      rw [List.replicate_succ, mapM_cons_eq_ok_iff]
      constructor
      · rintro ⟨c, mid, rest, hfirst, hrest, rfl⟩
        obtain ⟨hc, rfl⟩ := character_eq_ok_iff.mp hfirst
        obtain ⟨hlength, hahead, rfl⟩ := ih.mp hrest
        exact ⟨congrArg (· + 1) hlength, ahead_cons_iff.mpr ⟨hc, hahead⟩, (past_cons _ _ _).symm⟩
      · rintro ⟨hlength, hahead, rfl⟩
        obtain ⟨c, rest, rfl⟩ := List.exists_cons_of_length_eq_add_one hlength
        obtain ⟨hc, hrest⟩ := ahead_cons_iff.mp hahead
        refine ⟨c, _, rest, character_eq_ok_iff.mpr ⟨hc, rfl⟩, ih.mpr ?_, rfl⟩
        exact ⟨Nat.succ.inj hlength, hrest, past_cons _ _ _⟩

theorem matchEach_eq_true_iff :
    (∃ answers, matchEach text s = .ok answers left ∧ ∀ a ∈ answers, a = true) ↔
      s.Ahead text.toList ∧ left = s.past text.toList := by
  unfold matchEach
  induction text.toList generalizing s with
  | nil =>
      constructor
      · rintro ⟨_, ⟨⟩, _⟩
        exact ⟨ahead_nil _, rfl⟩
      · rintro ⟨_, rfl⟩
        exact ⟨[], rfl, nofun⟩
  | cons c chars ih =>
      simp only [mapM_cons_eq_ok_iff]
      constructor
      · rintro ⟨_, ⟨answer, mid, rest, hfirst, hrest, rfl⟩, htrue⟩
        obtain ⟨rfl, hall⟩ := List.forall_mem_cons.mp htrue
        obtain ⟨hc, rfl⟩ := matchChar_eq_true_iff.mp hfirst
        obtain ⟨hahead, rfl⟩ := ih.mp ⟨rest, hrest, hall⟩
        exact ⟨ahead_cons_iff.mpr ⟨hc, hahead⟩, (past_cons _ _ _).symm⟩
      · rintro ⟨hahead, rfl⟩
        obtain ⟨hc, hrest⟩ := ahead_cons_iff.mp hahead
        obtain ⟨rest, hrun, hall⟩ := ih.mpr ⟨hrest, past_cons _ _ _⟩
        refine ⟨true :: rest, ?_, List.forall_mem_cons.mpr ⟨rfl, hall⟩⟩
        exact ⟨true, _, rest, matchChar_eq_true_iff.mpr ⟨hc, rfl⟩, hrun, rfl⟩

theorem readCount_eq_ok_iff (hs : s.Inside) : readCount n s = .ok text left ↔
    text.toList.length = n ∧ s.Ahead text.toList ∧ left = s.past text.toList := by
  simp only [readCount, step_eq_ok_iff, checkedCount_natCast, bind, Except.bind_eq_ok_iff,
    textBetween_eq_ok_iff]
  constructor
  · rintro ⟨o, ⟨_, ⟨⟩, _, hskip, _, hbetween, ⟨⟩⟩, rfl⟩
    obtain ⟨hlength, hahead, rfl⟩ := (skip_between_iff hs).mp ⟨hskip, hbetween⟩
    exact ⟨hlength, hahead, rfl⟩
  · rintro ⟨hlength, hahead, rfl⟩
    obtain ⟨hskip, hbetween⟩ := (skip_between_iff hs).mpr ⟨hlength, hahead, rfl⟩
    exact ⟨_, ⟨n, rfl, _, hskip, text, hbetween, rfl⟩, rfl⟩

theorem encoded_eq_spell (text : String) : encoded text = spell text.toList := encoded_eq text

/-- A text that is not ahead is refused, or it cannot be told because there is too little. -/
theorem matchString_cases (htext : text ≠ "") :
    s.Ahead text.toList ∧ matchString text s = .ok true (s.past text.toList) ∨
      ¬ s.Ahead text.toList ∧
        ((∃ o, s.skip text.length s.pos = .ok o) ∧ matchString text s = .ok false s ∨
          ∃ e, s.skip text.length s.pos = .error e ∧ matchString text s = .error e s) := by
  simp only [matchString, step, if_neg htext, encoded_eq_spell]
  cases hskip : s.skip text.length s.pos with
  | error e =>
      -- A text that is ahead could have been counted.
      refine Or.inr ⟨fun hahead => ?_, Or.inr ⟨e, rfl, rfl⟩⟩
      rw [← String.length_toList, skip_of_ahead hahead] at hskip
      cases hskip
  | ok o =>
      have hmatch := skip_holdsAt_iff String.length_toList hskip
      simp only [Except.map]
      by_cases hahead : s.Ahead text.toList
      · obtain ⟨rfl, hholds⟩ := hmatch.mpr hahead
        rw [if_pos ⟨rfl, hholds⟩]
        exact Or.inl ⟨hahead, rfl⟩
      · rw [if_neg (mt hmatch.mp hahead)]
        exact Or.inr ⟨hahead, Or.inl ⟨⟨o, rfl⟩, rfl⟩⟩

theorem matchString_eq_true_iff (htext : text ≠ "") : matchString text s = .ok true left ↔
    s.Ahead text.toList ∧ left = s.past text.toList := by
  rcases matchString_cases (s := s) htext with ⟨hahead, hrun⟩ | ⟨hahead, ⟨_, hrun⟩ | ⟨e, _, hrun⟩⟩
  · simp [hahead, hrun, eq_comm]
  · simp [hahead, hrun]
  · simp [hahead, hrun]

/-- **Comparing with a text in one go is comparing with its encoding, and comparing character by
character.**  Where the text is ahead, both move the cursor past its encoding.  Where it is not, the
comparison in one go moves nothing, and it can tell exactly if as many steps forward can be taken in
the window.  The buffer may hold any bytes. -/
theorem matchString_tfae (htext : text ≠ "") :
    [∃ left, matchString text s = .ok true left,
      encoded text <+: s.buffer.between s.pos s.stop,
      ∃ answers left, matchEach text s = .ok answers left ∧ ∀ a ∈ answers, a = true].TFAE ∧
    (encoded text <+: s.buffer.between s.pos s.stop →
      matchString text s = .ok true { s with pos := s.pos + (encoded text).length } ∧
      ∃ answers, matchEach text s
        = .ok answers { s with pos := s.pos + (encoded text).length } ∧ ∀ a ∈ answers, a = true) ∧
    (¬ encoded text <+: s.buffer.between s.pos s.stop →
      (matchString text s = .ok false s ∨ ∃ e, matchString text s = .error e s) ∧
      (matchString text s = .ok false s ↔
        ∃ o, s.buffer.nextTimes s.stop text.length s.pos = .ok o)) := by
  rw [encoded_eq_spell, nextTimes_eq_skip, ← Ahead, ← past]
  refine ⟨?_, ?_, ?_⟩
  · simp only [matchString_eq_true_iff htext]
    tfae_have 1 → 2
    | ⟨_, hahead, _⟩ => hahead
    tfae_have 2 → 3 := by
      intro hahead
      obtain ⟨answers, hrun, hall⟩ := matchEach_eq_true_iff.mpr ⟨hahead, rfl⟩
      exact ⟨answers, _, hrun, hall⟩
    tfae_have 3 → 1 := by
      rintro ⟨answers, left, hrun, hall⟩
      exact ⟨left, matchEach_eq_true_iff.mp ⟨answers, hrun, hall⟩⟩
    tfae_finish
  · intro hahead
    exact ⟨(matchString_eq_true_iff htext).mpr ⟨hahead, rfl⟩,
      matchEach_eq_true_iff.mpr ⟨hahead, rfl⟩⟩
  · intro hahead
    rcases matchString_cases htext with ⟨hahead', _⟩ | ⟨_, ⟨⟨o, hskip⟩, hrun⟩ | ⟨e, hskip, hrun⟩⟩
    · exact absurd hahead' hahead
    · simp [hskip, hrun, Except.map]
    · simp [hskip, hrun, Except.map]

/-- Behind two characters lie an overlong form of `A`, which is passed but is not that character,
and a byte that starts nothing. -/
theorem matchString_tfae_malformed :
    let s : Scanner := ⟨.ofList [0xC3, 0xA9, 0x61, 0xC1, 0x81, 0xFF], 0, 6, 0, .unicode⟩
    ("éa" ≠ "" ∧ "éaA" ≠ "" ∧ "éaAb" ≠ "") ∧
      matchString "éa" s = .ok true { s with pos := 3 } ∧
      (∃ answers, matchEach "éa" s = .ok answers { s with pos := 3 } ∧ ∀ a ∈ answers, a = true) ∧
      matchString "éaA" s = .ok false s ∧ ∃ e, matchString "éaAb" s = .error e s := by
  intro s
  have htext : "éa" ≠ "" ∧ "éaA" ≠ "" ∧ "éaAb" ≠ "" := by decide
  obtain ⟨hahead, hoverlong, hbroken⟩ := htext
  obtain ⟨hone, heach⟩ := (matchString_tfae (s := s) hahead).2.1 (by decide)
  obtain ⟨_, hfalse⟩ := (matchString_tfae (s := s) hoverlong).2.2 (by decide)
  obtain ⟨hends, hfalse'⟩ := (matchString_tfae (s := s) hbroken).2.2 (by decide)
  have hsteps : s.buffer.nextTimes s.stop 3 s.pos = .ok 5 := by decide
  have hbreaks : s.buffer.nextTimes s.stop 4 s.pos
      = .error (.scan (.malformed 5 (.impossibleLead 0xFF))) := by decide
  have hnosteps : ¬ ∃ o, s.buffer.nextTimes s.stop 4 s.pos = .ok o := by
    rintro ⟨o, ho⟩
    cases hbreaks.symm.trans ho
  exact ⟨⟨hahead, hoverlong, hbroken⟩, hone, heach, hfalse.mpr ⟨5, hsteps⟩,
    hends.resolve_left (mt hfalse'.mp hnosteps)⟩

end Scan

namespace Scanner

open Scan

variable {root s left : Scanner} {b : Buffer} {maxSize : Int} {k : Classifier} {text : String}

/-- **In every reachable state, reading a text in one go is reading its characters one by one.**
The text has as many characters as were asked for, and the bytes that were passed are its
encoding.  The buffer may hold any bytes. -/
theorem Reachable.readCount_iff_readEach (hroot : ofBuffer b maxSize k = .ok root)
    (h : root.Reachable s) (n : Nat) :
    (readCount n s = .ok text left ↔
      ∃ chars, readEach n s = .ok chars left ∧ String.ofList chars = text) ∧
    (readCount n s = .ok text left →
      text.length = n ∧ encoded text = s.buffer.between s.pos left.pos) := by
  rw [readCount_eq_ok_iff (h.inside (inside_of_ofBuffer hroot))]
  constructor
  · constructor
    · intro hread
      exact ⟨text.toList, readEach_eq_ok_iff.mpr hread, String.ofList_toList⟩
    · rintro ⟨chars, hread, rfl⟩
      rw [String.toList_ofList]
      exact readEach_eq_ok_iff.mp hread
  · rintro ⟨hlength, hahead, rfl⟩
    rw [← String.length_toList, encoded_eq_spell, pos_past]
    exact ⟨hlength, (Buffer.between_of_prefix hahead).symm⟩

/-- The count takes a surrogate for a character, but neither reader does. -/
theorem Reachable.readCount_iff_readEach_surrogate :
    let root : Scanner := ⟨.ofList [0x61, 0xC3, 0xA9, 0xED, 0xA0, 0x80], 0, 6, 0, .unicode⟩
    ofBuffer root.buffer 6 .unicode = .ok root ∧ root.Reachable root ∧
      readCount 2 root = .ok "aé" { root with pos := 3 } ∧
      readEach 2 root = .ok ['a', 'é'] { root with pos := 3 } ∧
      root.skip 3 0 = .ok 6 ∧ ∀ text left, readCount 3 root ≠ .ok text left := by
  intro root
  have hroot : ofBuffer root.buffer 6 .unicode = .ok root := by cbv
  have heach : readEach 2 root = .ok ['a', 'é'] { root with pos := 3 } := by cbv
  have hfails : readEach 3 root
      = .error (.scan (.malformed 3 (.surrogate 0xD800))) { root with pos := 3 } := by cbv
  refine ⟨hroot, .root, ?_, heach, by decide, ?_⟩
  · exact (Reachable.readCount_iff_readEach hroot .root 2).1.mpr ⟨_, heach, rfl⟩
  · intro text left hread
    obtain ⟨chars, hchars, _⟩ := (Reachable.readCount_iff_readEach hroot .root 3).1.mp hread
    cases hfails.symm.trans hchars

end Scanner

end Utf8Scan
