/-
What the readers of single characters accept.

`Encoding` shows that an encoding is read as its character.  Here is the converse, for
both readers: whatever they read as a character is its encoding, so they accept the
same sequences although they judge them in different ways.  The one compares the value
with the least that the width is for, the surrogates and the last code point; the other
narrows the range of the second byte.  In both cases what is left are the four layouts
of `Spells`, and a number has only one of these.

The value is never bent into a character: where a reader returns one, the bytes spell
its number.
-/
import Utf8Scan.Proofs.TextOffset

namespace Utf8Scan

variable {c : Char} {w : Width} {ahead : List UInt8} {room : Nat}

/-- The least byte that announces a width. -/
def Width.tag : Width → Nat
  | one => 0
  | two => 0xC0
  | three => 0xE0
  | four => 0xF0

/-! ### The reader that judges the value -/

namespace Sequence

/-- A number has one layout. -/
theorem Spells.unique {n : Nat} {w' : Width} {bytes bytes' : List UInt8}
    (h : Spells n w bytes) (h' : Spells n w' bytes') : w = w' ∧ bytes = bytes' := by
  cases h <;> cases h' <;> first
    | omega
    | simp only [List.cons.injEq, ← UInt8.toNat_inj, and_true, true_and]
      omega

theorem character_eq_ok_iff {n : Nat} :
    character w n = .ok c ↔ w.least ≤ n ∧ n = c.toNat := by
  unfold character
  constructor
  · intro h
    by_cases hleast : n < w.least
    · rw [if_pos hleast] at h
      cases h
    by_cases hsurrogate : firstSurrogate ≤ n ∧ n ≤ lastSurrogate
    · rw [if_neg hleast, if_pos hsurrogate] at h
      cases h
    by_cases hlimit : lastCodePoint < n
    · rw [if_neg hleast, if_neg hsurrogate, if_pos hlimit] at h
      cases h
    rw [if_neg hleast, if_neg hsurrogate, if_neg hlimit] at h
    obtain rfl := Except.ok.inj h
    rw [Char.toNat_ofNat, if_pos (isValidChar_iff.mpr ⟨hsurrogate, hlimit⟩)]
    exact ⟨Nat.not_lt.mp hleast, rfl⟩
  · rintro ⟨hleast, rfl⟩
    have hvalid : c.toNat.isValidChar := c.valid
    obtain ⟨hsurrogate, hlimit⟩ := isValidChar_iff.mp hvalid
    rw [if_neg (Nat.not_lt.mpr hleast), if_neg hsurrogate, if_neg hlimit, Char.ofNat_toNat]

theorem announced_eq_ok_iff {lead : UInt8} :
    announced lead = .ok w ↔ w.tag ≤ lead.toNat ∧ lead.toNat < w.tag + w.leadValues := by
  rw [announced_eq]
  split_ifs <;> cases w <;> simp only [Width.tag, Width.leadValues, reduceCtorEq,
    Except.ok.injEq, true_iff, false_iff] <;> omega

theorem value_one (lead : UInt8) : value .one [lead] = lead.toNat % 128 := rfl

theorem value_two (lead b : UInt8) :
    value .two [lead, b] = lead.toNat % 32 * 64 + b.toNat % 64 := rfl

theorem value_three (lead b c : UInt8) :
    value .three [lead, b, c] = (lead.toNat % 16 * 64 + b.toNat % 64) * 64 + c.toNat % 64 := rfl

theorem value_four (lead b c d : UInt8) : value .four [lead, b, c, d] =
    ((lead.toNat % 8 * 64 + b.toNat % 64) * 64 + c.toNat % 64) * 64 + d.toNat % 64 := rfl

/-- A leading byte that announces a width, and just as many continuation bytes behind it. -/
inductive LaidOut (w : Width) : List UInt8 → Prop
  | sequence {lead : UInt8} {trail : List UInt8} (hann : announced lead = .ok w)
      (hlength : trail.length + 1 = w.bytes) (htrail : ∀ byte ∈ trail, isContinuation byte = true) :
      LaidOut w (lead :: trail)

theorem LaidOut.length {bytes : List UInt8} (h : LaidOut w bytes) : bytes.length = w.bytes := by
  obtain ⟨_, hlength, _⟩ := h
  exact hlength

theorem take_bytes_cons (w : Width) (lead : UInt8) (rest : List UInt8) :
    (lead :: rest).take w.bytes = lead :: rest.take (w.bytes - 1) := by
  obtain ⟨m, hm⟩ := Nat.exists_eq_succ_of_ne_zero (Nat.ne_of_gt w.bytes_pos)
  simp [hm]

/-- The step accepts a layout, whatever lies behind it. -/
theorem measure_eq_ok_iff_laidOut :
    measure ahead room = .ok w ↔ w.bytes ≤ room ∧ LaidOut w (ahead.take w.bytes) := by
  have hpos := w.bytes_pos
  rw [measure_eq_ok_iff]
  constructor
  · intro h
    obtain ⟨lead, rest, rfl, hann, hroom, hcheck⟩ := h
    obtain ⟨hlength, htrail⟩ := checkTrail_eq_ok_iff.mp hcheck
    refine ⟨hroom, ?_⟩
    rw [take_bytes_cons]
    exact .sequence hann (by simp; omega) htrail
  · intro h
    obtain ⟨hroom, hlaid⟩ := h
    cases ahead with
    | nil =>
        have hlength := hlaid.length
        simp at hlength
        omega
    | cons lead rest =>
        rw [take_bytes_cons] at hlaid
        obtain ⟨hann, hlength, htrail⟩ := hlaid
        refine ⟨lead, rest, rfl, hann, hroom, checkTrail_eq_ok_iff.mpr ⟨?_, htrail⟩⟩
        simp at hlength
        omega

/-- The number is spelt by the sequence alone. -/
theorem value_take (w : Width) (ahead : List UInt8) :
    value w (ahead.take w.bytes) = value w ahead := by
  cases ahead with
  | nil => simp
  | cons lead rest => simp [take_bytes_cons, value, List.take_take]

/-- The bytes of an accepted layout are the layout of their value, unless that needs fewer. -/
theorem LaidOut.spells {bytes : List UInt8} (h : LaidOut w bytes) (hleast : w.least ≤ value w bytes)
    (hlimit : value w bytes < 0x110000) : Spells (value w bytes) w bytes := by
  obtain @⟨lead, trail, hann, hbytes, htrail⟩ := h
  have hlength : trail.length = w.bytes - 1 := by omega
  rw [announced_eq_ok_iff] at hann
  cases w with
  | one =>
      obtain rfl := List.length_eq_zero_iff.mp hlength
      rw [value_one] at hlimit ⊢
      simp only [Width.tag, Width.leadValues] at hann
      exact .one (by omega) (by omega)
  | two =>
      obtain ⟨b, rfl⟩ := List.length_eq_one_iff.mp hlength
      rw [value_two] at hleast hlimit ⊢
      simp only [Width.tag, Width.leadValues] at hann
      simp only [List.mem_singleton, forall_eq, isContinuation_iff] at htrail
      simp only [Width.least] at hleast
      exact .two (by omega) (by omega) (by omega)
  | three =>
      obtain ⟨b, c, rfl⟩ := List.length_eq_two.mp hlength
      rw [value_three] at hleast hlimit ⊢
      simp only [Width.tag, Width.leadValues] at hann
      simp only [List.mem_cons, List.not_mem_nil, or_false, forall_eq_or_imp, forall_eq,
        isContinuation_iff] at htrail
      simp only [Width.least] at hleast
      exact .three (by omega) (by omega) (by omega) (by omega)
  | four =>
      obtain ⟨b, c, d, rfl⟩ := List.length_eq_three.mp hlength
      rw [value_four] at hleast hlimit ⊢
      simp only [Width.tag, Width.leadValues] at hann
      simp only [List.mem_cons, List.not_mem_nil, or_false, forall_eq_or_imp, forall_eq,
        isContinuation_iff] at htrail
      simp only [Width.least] at hleast
      exact .four (by omega) (by omega) (by omega) (by omega) (by omega)

/-- What is read as a character spells it, in as many bytes as the character needs. -/
theorem spells_of_decode (h : decode ahead room = .ok (c, w)) :
    value w ahead = c.toNat ∧ w.bytes ≤ room ∧ Spells c.toNat w (ahead.take w.bytes) := by
  obtain ⟨hmeasure, hcharacter⟩ := decode_eq_ok_iff.mp h
  obtain ⟨hroom, hlaid⟩ := measure_eq_ok_iff_laidOut.mp hmeasure
  obtain ⟨hleast, hvalue⟩ := character_eq_ok_iff.mp hcharacter
  have hvalid : c.toNat < 0xD800 ∨ 0xDFFF < c.toNat ∧ c.toNat < 0x110000 := c.valid
  refine ⟨hvalue, hroom, ?_⟩
  rw [← value_take] at hleast hvalue
  rw [← hvalue]
  exact hlaid.spells hleast (by omega)

/-- **A character is read exactly where its encoding lies and fits.** -/
theorem decode_eq_ok_iff_encode : decode ahead room = .ok (c, w) ↔
    w = .ofChar c ∧ c.utf8Size ≤ room ∧ String.utf8EncodeChar c <+: ahead := by
  constructor
  · intro h
    obtain ⟨_, hroom, hspells⟩ := spells_of_decode h
    obtain ⟨rfl, hbytes⟩ := hspells.unique (spells_encode c)
    rw [Width.bytes_ofChar] at hroom
    refine ⟨rfl, hroom, ?_⟩
    rw [← hbytes]
    exact List.take_prefix _ _
  · rintro ⟨rfl, hroom, rest, rfl⟩
    exact decode_encode c rest hroom

end Sequence

/-! ### The reader that narrows the second byte -/

namespace Strict

open Sequence

/-- A byte lies in a range. -/
def Admits (range : ByteRange) (byte : UInt8) : Prop :=
  range.1.toNat ≤ byte.toNat ∧ byte.toNat ≤ range.2.toNat

theorem exists_of_follow {matched : Nat} {ranges : List ByteRange} {rest : List UInt8}
    (h : follow matched ranges rest = .ok ()) :
    ∃ trail tail, rest = trail ++ tail ∧ List.Forall₂ Admits ranges trail := by
  induction ranges generalizing matched rest with
  | nil => exact ⟨[], rest, rfl, .nil⟩
  | cons range ranges ih =>
      obtain ⟨low, high⟩ := range
      cases rest with
      | nil => cases h
      | cons byte rest =>
          rw [follow] at h
          by_cases hbyte : low ≤ byte ∧ byte ≤ high
          · rw [if_pos hbyte] at h
            obtain ⟨trail, tail, rfl, htrail⟩ := ih h
            have hadmits : Admits (low, high) byte :=
              ⟨UInt8.le_iff_toNat_le.mp hbyte.1, UInt8.le_iff_toNat_le.mp hbyte.2⟩
            exact ⟨byte :: trail, tail, rfl, .cons hadmits htrail⟩
          · rw [if_neg hbyte] at h
            cases h

theorem Admits.continuation {byte : UInt8} (h : Admits anyContinuation byte) :
    0x80 ≤ byte.toNat ∧ byte.toNat ≤ 0xBF := h

/-- Behind E0 the value would fit into fewer bytes, behind ED it would be a surrogate. -/
theorem Admits.ofThree {lead byte : UInt8} (h : Admits (secondOfThree lead) byte) :
    (0x80 ≤ byte.toNat ∧ byte.toNat ≤ 0xBF) ∧ (lead.toNat = 0xE0 → 0xA0 ≤ byte.toNat) ∧
      (lead.toNat = 0xED → byte.toNat ≤ 0x9F) := by
  unfold secondOfThree at h
  split_ifs at h with hlow hhigh
  · have hb : 0xA0 ≤ byte.toNat ∧ byte.toNat ≤ 0xBF := h
    omega
  · have hb : 0x80 ≤ byte.toNat ∧ byte.toNat ≤ 0x9F := h
    omega
  · have hb := h.continuation
    omega

/-- Behind F0 the value would fit into fewer bytes, behind F4 it would be above the limit. -/
theorem Admits.ofFour {lead byte : UInt8} (h : Admits (secondOfFour lead) byte) :
    (0x80 ≤ byte.toNat ∧ byte.toNat ≤ 0xBF) ∧ (lead.toNat = 0xF0 → 0x90 ≤ byte.toNat) ∧
      (lead.toNat = 0xF4 → byte.toNat ≤ 0x8F) := by
  unfold secondOfFour at h
  split_ifs at h with hlow hhigh
  · have hb : 0x90 ≤ byte.toNat ∧ byte.toNat ≤ 0xBF := h
    omega
  · have hb : 0x80 ≤ byte.toNat ∧ byte.toNat ≤ 0x8F := h
    omega
  · have hb := h.continuation
    omega

/-- The ranges of the other bytes admit only numbers that stand for a character. -/
theorem spells_of_followers? {lead : UInt8} {trail : List UInt8} {ranges : List ByteRange}
    (hranges : followers? lead = some (w, ranges)) (htrail : List.Forall₂ Admits ranges trail) :
    (value w (lead :: trail)).isValidChar ∧
      Spells (value w (lead :: trail)) w (lead :: trail) := by
  unfold Nat.isValidChar
  rw [followers?_eq] at hranges
  split_ifs at hranges with hone hnone htwo hthree hfour
  · cases hranges
    cases htrail
    rw [value_one]
    exact ⟨by omega, .one (by omega) (by omega)⟩
  · cases hranges
    obtain _ | ⟨hb, _ | _⟩ := htrail
    rename_i b
    have hb := hb.continuation
    rw [value_two]
    exact ⟨by omega, .two (by omega) (by omega) (by omega)⟩
  · cases hranges
    obtain _ | ⟨hb, _ | ⟨hc, _ | _⟩⟩ := htrail
    rename_i b c
    have hb := hb.ofThree
    have hc := hc.continuation
    rw [value_three]
    exact ⟨by omega, .three (by omega) (by omega) (by omega) (by omega)⟩
  · cases hranges
    obtain _ | ⟨hb, _ | ⟨hc, _ | ⟨hd, _ | _⟩⟩⟩ := htrail
    rename_i b c d
    have hb := hb.ofFour
    have hc := hc.continuation
    have hd := hd.continuation
    rw [value_four]
    exact ⟨by omega, .four (by omega) (by omega) (by omega) (by omega) (by omega)⟩

/-- **This reader reads a character exactly where its encoding lies.** -/
theorem decode_eq_ok_iff_encode {lead : UInt8} {rest : List UInt8} :
    decode lead rest = .ok (c, w) ↔ w = .ofChar c ∧ String.utf8EncodeChar c <+: lead :: rest := by
  constructor
  · intro h
    unfold decode at h
    cases hranges : followers? lead with
    | none => simp [hranges] at h
    | some found =>
        obtain ⟨width, ranges⟩ := found
        simp only [hranges] at h
        obtain ⟨_, hfollow, heq⟩ := Except.map_eq_ok_iff.mp h
        obtain ⟨hc, rfl⟩ := Prod.mk.inj heq
        obtain ⟨trail, tail, rfl, htrail⟩ := exists_of_follow hfollow
        obtain ⟨hvalid, hspells⟩ := spells_of_followers? hranges htrail
        have hvalue := hspells.value_append tail
        rw [List.cons_append] at hvalue
        rw [hvalue] at hc
        have hnumber : c.toNat = value width (lead :: trail) := by
          rw [← hc, Char.toNat_ofNat, if_pos hvalid]
        rw [← hnumber] at hspells
        obtain ⟨rfl, hbytes⟩ := hspells.unique (spells_encode c)
        refine ⟨rfl, tail, ?_⟩
        rw [← hbytes, List.cons_append]
  · rintro ⟨rfl, tail, htail⟩
    obtain ⟨lead', trail, hbytes, _⟩ := encode_eq_cons c
    rw [hbytes, List.cons_append] at htail
    obtain ⟨rfl, rfl⟩ := List.cons.inj htail
    exact decode_encode hbytes tail

end Strict

/-! ### At an offset of a buffer -/

namespace Buffer

variable {b : Buffer} {offset limit : Int}

/-- The bytes of `[first, last)`. -/
def between (b : Buffer) (first last : Nat) : List UInt8 := (b.toList.take last).drop first

theorem between_eq (b : Buffer) (first last : Nat) :
    b.between first last = (b.toList.drop first).take (last - first) := List.drop_take

/-- A reader sees no more than four of the bytes before its limit. -/
theorem ahead_eq_take (b : Buffer) (first last : Nat) :
    b.ahead first (min 4 (last - first)) = (b.between first last).take 4 := by
  rw [ahead_natCast, between_eq, List.take_take]

/-- An encoding takes at most four bytes, so what it needs of a buffer is seen by a reader. -/
theorem encode_prefix_ahead_iff {first last : Nat} :
    String.utf8EncodeChar c <+: b.ahead first (min 4 (last - first)) ↔
      String.utf8EncodeChar c <+: b.between first last := by
  have hfour := c.utf8Size_le_four
  rw [ahead_eq_take, List.prefix_take_iff, String.length_utf8EncodeChar, and_iff_left hfour]

theorem utf8Size_le_of_prefix {first last : Nat}
    (h : String.utf8EncodeChar c <+: b.between first last) : c.utf8Size ≤ last - first := by
  have hlength := h.length_le
  rw [String.length_utf8EncodeChar, between_eq, List.length_take] at hlength
  omega

theorem decode_natCast_eq_ok_iff {first last : Nat} : b.decode first last = .ok (c, w) ↔
    w = .ofChar c ∧ String.utf8EncodeChar c <+: b.between first last := by
  simp only [decode, room_natCast]
  rw [Except.mapError_eq_ok_iff, Sequence.decode_eq_ok_iff_encode, encode_prefix_ahead_iff]
  constructor
  · rintro ⟨hw, _, hencode⟩
    exact ⟨hw, hencode⟩
  · rintro ⟨hw, hencode⟩
    exact ⟨hw, utf8Size_le_of_prefix hencode, hencode⟩

/-- A limit below zero leaves as much room as zero does. -/
theorem decode_toNat (b : Buffer) (first : Nat) (limit : Int) :
    b.decode first limit = b.decode first limit.toNat := by
  have hroom : room first limit = room first limit.toNat := by
    unfold room
    omega
  simp only [decode, hroom]

/-- The kinds of error that a step forward can raise on the bytes of a buffer. -/
theorem decode_error_kind {first last : Nat} {e : Error} (hlast : last ≤ b.size)
    (h : b.decode first last = .error e) :
    ∃ x, e = .scan x ∧ (x.kind = .overflow ∨ x.kind = .invalidCharacter) := by
  simp only [decode, room_natCast] at h
  obtain ⟨fault, hfault, rfl⟩ := Except.mapError_eq_error_iff.mp h
  cases fault with
  | exhausted => exact ⟨_, rfl, Or.inl rfl⟩
  | unreadable => exact absurd hfault (Sequence.decode_readable (b.length_ahead hlast))
  | truncated width => exact ⟨_, rfl, Or.inl rfl⟩
  | malformed displacement reason => exact ⟨_, rfl, Or.inr rfl⟩

/-- **A step forward reads the character whose encoding starts the room, and goes to its end.**  It
reads nothing else: every other start is refused with an error of scanning, and the number that the
bytes spell is always that of the character that is returned. -/
theorem decode_iff_encode (hoffset : 0 ≤ offset) (hlimit : limit ≤ b.size) :
    (∀ (c : Char) (after : Int),
      (b.decode offset limit).map (fun (c, width) => (c, offset + width.bytes)) = .ok (c, after) ↔
        String.utf8EncodeChar c <+: b.between offset.toNat limit.toNat ∧
          after = offset + (String.utf8EncodeChar c).length) ∧
      (∀ e, b.decode offset limit = .error e →
        ∃ x, e = .scan x ∧ (x.kind = .overflow ∨ x.kind = .invalidCharacter)) ∧
      ∀ c width, b.decode offset limit = .ok (c, width) →
        Sequence.value width (b.between offset.toNat limit.toNat) = c.toNat := by
  obtain ⟨first, rfl⟩ := Int.eq_ofNat_of_zero_le hoffset
  have hlast : limit.toNat ≤ b.size := by omega
  rw [decode_toNat, Int.toNat_natCast]
  refine ⟨?_, fun e he => decode_error_kind hlast he, ?_⟩
  · intro c after
    rw [Except.map_eq_ok_iff, String.length_utf8EncodeChar]
    constructor
    · rintro ⟨⟨c', width⟩, hdecode, heq⟩
      obtain ⟨rfl, hencode⟩ := decode_natCast_eq_ok_iff.mp hdecode
      obtain ⟨rfl, rfl⟩ := Prod.mk.inj heq
      exact ⟨hencode, by rw [Width.bytes_ofChar]⟩
    · rintro ⟨hencode, rfl⟩
      refine ⟨(c, .ofChar c), decode_natCast_eq_ok_iff.mpr ⟨rfl, hencode⟩, ?_⟩
      show (c, (first : Int) + (Width.ofChar c).bytes) = (c, (first : Int) + c.utf8Size)
      rw [Width.bytes_ofChar]
  · intro c width hdecode
    obtain ⟨rfl, rest, hrest⟩ := decode_natCast_eq_ok_iff.mp hdecode
    rw [← hrest]
    exact (Sequence.spells_encode c).value_append rest

/-- The last byte of a character of three bytes lies behind the limit, or just before it. -/
theorem decode_iff_encode_limit :
    let b : Buffer := .ofList [0x61, 0xE2, 0x82, 0xAC]
    (0 ≤ (1 : Int) ∧ (3 : Int) ≤ b.size ∧ (4 : Int) ≤ b.size) ∧
      (b.decode 1 4).map (fun (c, width) => (c, 1 + width.bytes)) = .ok ('€', (4 : Int)) ∧
      ∀ after : Int,
        (b.decode 1 3).map (fun (c, width) => (c, 1 + width.bytes)) ≠ .ok ('€', after) := by
  intro b
  have hbounds : 0 ≤ (1 : Int) ∧ (3 : Int) ≤ b.size ∧ (4 : Int) ≤ b.size := by decide
  refine ⟨hbounds, ?_, ?_⟩
  · exact ((decode_iff_encode hbounds.1 hbounds.2.2).1 '€' 4).mpr ⟨by decide, by decide⟩
  · intro after h
    have hencode := (((decode_iff_encode hbounds.1 hbounds.2.1).1 '€' after).mp h).1
    exact absurd hencode (by decide)

end Buffer

end Utf8Scan
