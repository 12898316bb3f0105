/-
How the readers see the encoding of one character.

`Spells n w bytes` writes the four layouts of UTF-8 out: the payload of `n` cut into
groups of six bits, each behind its tag.  The encoder of the core library produces
exactly these, and what the readers compute from them comes out of one case for each
layout: the leading byte announces the width, the rest are continuation bytes, and
the payload bits spell the number again.

The reader of whole texts judges the second byte by a range instead of the value
afterwards.  For a number that stands for a character, both find nothing wrong.
-/
import Utf8Scan.Proofs.Stepping

namespace Utf8Scan

/-- The width of a character. -/
def Width.ofChar (c : Char) : Width :=
  if c.toNat < 0x80 then .one
  else if c.toNat < 0x800 then .two
  else if c.toNat < 0x10000 then .three
  else .four

namespace Sequence

/-! ### The four layouts -/

/-- The bytes of a number, by their values. -/
inductive Spells (n : Nat) : Width → List UInt8 → Prop
  | one {a : UInt8} (hn : n < 0x80) (ha : a.toNat = n) : Spells n .one [a]
  | two {a b : UInt8} (hn : 0x80 ≤ n ∧ n < 0x800) (ha : a.toNat = 0xC0 + n / 64)
      (hb : b.toNat = 0x80 + n % 64) : Spells n .two [a, b]
  | three {a b c : UInt8} (hn : 0x800 ≤ n ∧ n < 0x10000) (ha : a.toNat = 0xE0 + n / 4096)
      (hb : b.toNat = 0x80 + n / 64 % 64) (hc : c.toNat = 0x80 + n % 64) :
      Spells n .three [a, b, c]
  | four {a b c d : UInt8} (hn : 0x10000 ≤ n ∧ n < 0x110000) (ha : a.toNat = 0xF0 + n / 262144)
      (hb : b.toNat = 0x80 + n / 4096 % 64) (hc : c.toNat = 0x80 + n / 64 % 64)
      (hd : d.toNat = 0x80 + n % 64) : Spells n .four [a, b, c, d]

private theorem toNat_ofNat_of_lt {n m : Nat} (h : n = m) (hlt : m < 256) :
    (UInt8.ofNat n).toNat = m := by
  rw [h, UInt8.toNat_ofNat', Nat.mod_eq_of_lt hlt]

theorem spells_encode (c : Char) : Spells c.toNat (.ofChar c) (String.utf8EncodeChar c) := by
  have hval : c.val.toNat = c.toNat := rfl
  have hmax : c.toNat < 0x110000 := by
    rcases c.valid with h | h <;> omega
  -- The encoder compares with the last value of a width, `Width.ofChar` with the first of the next.
  have hone : (c.toNat ≤ 0x7F) = (c.toNat < 0x80) := propext Nat.lt_succ_iff.symm
  have htwo : (c.toNat ≤ 0x7FF) = (c.toNat < 0x800) := propext Nat.lt_succ_iff.symm
  have hthree : (c.toNat ≤ 0xFFFF) = (c.toNat < 0x10000) := propext Nat.lt_succ_iff.symm
  simp only [String.utf8EncodeChar, Width.ofChar, hval, hone, htwo, hthree]
  by_cases h1 : c.toNat < 0x80
  · simp only [if_pos h1]
    exact .one h1 (toNat_ofNat_of_lt rfl (by omega))
  by_cases h2 : c.toNat < 0x800
  · simp only [if_neg h1, if_pos h2]
    exact .two (by omega) (toNat_ofNat_of_lt (by omega) (by omega))
      (toNat_ofNat_of_lt (by omega) (by omega))
  by_cases h3 : c.toNat < 0x10000
  · simp only [if_neg h1, if_neg h2, if_pos h3]
    exact .three (by omega) (toNat_ofNat_of_lt (by omega) (by omega))
      (toNat_ofNat_of_lt (by omega) (by omega)) (toNat_ofNat_of_lt (by omega) (by omega))
  · simp only [if_neg h1, if_neg h2, if_neg h3]
    exact .four (by omega) (toNat_ofNat_of_lt (by omega) (by omega))
      (toNat_ofNat_of_lt (by omega) (by omega)) (toNat_ofNat_of_lt (by omega) (by omega))
      (toNat_ofNat_of_lt (by omega) (by omega))

/-! ### What the readers compute from a layout -/

theorem announced_eq (lead : UInt8) : announced lead =
    if lead.toNat < 0x80 then .ok .one
    else if lead.toNat < 0xC0 then .error .continuationFirst
    else if lead.toNat < 0xE0 then .ok .two
    else if lead.toNat < 0xF0 then .ok .three
    else if lead.toNat < 0xF8 then .ok .four
    else .error (.impossibleLead lead) := by
  simp [announced, UInt8.lt_iff_toNat_lt]

variable {n : Nat} {w : Width} {bytes : List UInt8}

theorem Spells.length (h : Spells n w bytes) : bytes.length = w.bytes := by
  cases h <;> rfl

/-- A leading byte that announces the width, and continuation bytes. -/
theorem Spells.layout (h : Spells n w bytes) : ∃ lead trail, bytes = lead :: trail ∧
    announced lead = .ok w ∧ ∀ byte ∈ trail, isContinuation byte = true := by
  cases h with
  | one hn ha =>
      refine ⟨_, _, rfl, ?_, by simp⟩
      rw [announced_eq, if_pos (by omega)]
  | two hn ha hb =>
      refine ⟨_, _, rfl, ?_, ?_⟩
      · rw [announced_eq, if_neg (by omega), if_neg (by omega), if_pos (by omega)]
      · simp only [List.mem_cons, List.not_mem_nil, or_false, forall_eq, isContinuation_iff]
        omega
  | three hn ha hb hc =>
      refine ⟨_, _, rfl, ?_, ?_⟩
      · rw [announced_eq, if_neg (by omega), if_neg (by omega), if_neg (by omega),
          if_pos (by omega)]
      · simp only [List.mem_cons, List.not_mem_nil, or_false, forall_eq_or_imp, forall_eq,
          isContinuation_iff]
        omega
  | four hn ha hb hc hd =>
      refine ⟨_, _, rfl, ?_, ?_⟩
      · rw [announced_eq, if_neg (by omega), if_neg (by omega), if_neg (by omega),
          if_neg (by omega), if_pos (by omega)]
      · simp only [List.mem_cons, List.not_mem_nil, or_false, forall_eq_or_imp, forall_eq,
          isContinuation_iff]
        omega

theorem Spells.value_append (h : Spells n w bytes) (rest : List UInt8) :
    value w (bytes ++ rest) = n := by
  cases h <;> simp [value, Width.bytes, Width.leadValues] <;> omega

theorem Spells.character {c : Char} (h : Spells c.toNat w bytes) :
    Sequence.character w c.toNat = .ok c := by
  have hvalid : c.toNat.isValidChar := c.valid
  obtain ⟨hsurrogate, hlimit⟩ := isValidChar_iff.mp hvalid
  rw [Sequence.character, if_neg, if_neg hsurrogate, if_neg hlimit, Char.ofNat_toNat]
  cases h <;> simp only [Width.least] <;> omega

end Sequence

/-! ### The reader of whole texts -/

namespace Strict

open Sequence

/-- The range of the second of three bytes. -/
def secondOfThree (lead : UInt8) : ByteRange :=
  if lead.toNat = 0xE0 then (0xA0, 0xBF)
  else if lead.toNat = 0xED then (0x80, 0x9F)
  else anyContinuation

/-- The range of the second of four bytes. -/
def secondOfFour (lead : UInt8) : ByteRange :=
  if lead.toNat = 0xF0 then (0x90, 0xBF)
  else if lead.toNat = 0xF4 then (0x80, 0x8F)
  else anyContinuation

theorem followers?_eq (lead : UInt8) : followers? lead =
    if lead.toNat < 0x80 then some (.one, [])
    else if lead.toNat < 0xC2 then none
    else if lead.toNat < 0xE0 then some (.two, [anyContinuation])
    else if lead.toNat < 0xF0 then some (.three, [secondOfThree lead, anyContinuation])
    else if lead.toNat < 0xF5 then
      some (.four, [secondOfFour lead, anyContinuation, anyContinuation])
    else none := by
  simp [followers?, secondOfThree, secondOfFour, UInt8.lt_iff_toNat_lt, ← UInt8.toNat_inj]

theorem follow_cons {matched : Nat} {low high byte : UInt8} {ranges : List ByteRange}
    {rest : List UInt8} (h : low.toNat ≤ byte.toNat ∧ byte.toNat ≤ high.toNat) :
    follow matched ((low, high) :: ranges) (byte :: rest) = follow (matched + 1) ranges rest := by
  rw [follow, if_pos (by simpa [UInt8.le_iff_toNat_le] using h)]

variable {n : Nat} {w : Width} {bytes : List UInt8}

/-- The ranges of the other bytes admit every number that stands for a character. -/
theorem followers?_of_spells (h : Spells n w bytes) (hn : n < 0xD800 ∨ 0xDFFF < n) :
    ∃ lead trail ranges, bytes = lead :: trail ∧ followers? lead = some (w, ranges) ∧
      ∀ rest, follow 1 ranges (trail ++ rest) = .ok () := by
  cases h with
  | one hn ha =>
      refine ⟨_, _, [], rfl, ?_, fun rest => rfl⟩
      rw [followers?_eq, if_pos (by omega)]
  | two hn ha hb =>
      refine ⟨_, _, [anyContinuation], rfl, ?_, fun rest => ?_⟩
      · rw [followers?_eq, if_neg (by omega), if_neg (by omega), if_pos (by omega)]
      · exact follow_cons (by simp; omega)
  | @three a b c hn ha hb hc =>
      refine ⟨a, [b, c], [secondOfThree a, anyContinuation], rfl, ?_, fun rest => ?_⟩
      · rw [followers?_eq, if_neg (by omega), if_neg (by omega), if_neg (by omega),
          if_pos (by omega)]
      · simp only [List.cons_append, List.nil_append, secondOfThree]
        split
        · rw [follow_cons (by simp; omega)]
          exact follow_cons (by simp; omega)
        split
        · rw [follow_cons (by simp; omega)]
          exact follow_cons (by simp; omega)
        · rw [anyContinuation, follow_cons (by simp; omega)]
          exact follow_cons (by simp; omega)
  | @four a b c d hn ha hb hc hd =>
      refine ⟨a, [b, c, d], [secondOfFour a, anyContinuation, anyContinuation], rfl, ?_,
        fun rest => ?_⟩
      · rw [followers?_eq, if_neg (by omega), if_neg (by omega), if_neg (by omega),
          if_neg (by omega), if_pos (by omega)]
      · simp only [List.cons_append, List.nil_append, secondOfFour]
        split
        · rw [follow_cons (by simp; omega), anyContinuation, follow_cons (by simp; omega)]
          exact follow_cons (by simp; omega)
        split
        · rw [follow_cons (by simp; omega), anyContinuation, follow_cons (by simp; omega)]
          exact follow_cons (by simp; omega)
        · rw [anyContinuation, follow_cons (by simp; omega), follow_cons (by simp; omega)]
          exact follow_cons (by simp; omega)

theorem decode_encode {c : Char} {lead : UInt8} {trail : List UInt8}
    (h : String.utf8EncodeChar c = lead :: trail) (rest : List UInt8) :
    decode lead (trail ++ rest) = .ok (c, .ofChar c) := by
  have hspells := spells_encode c
  obtain ⟨lead', trail', ranges, hbytes, hranges, hfollow⟩ := followers?_of_spells hspells
    (c.valid.imp_right And.left)
  rw [h, List.cons.injEq] at hbytes
  obtain ⟨rfl, rfl⟩ := hbytes
  have hvalue : value (.ofChar c) (lead :: (trail ++ rest)) = c.toNat := by
    rw [← List.cons_append, ← h]
    exact hspells.value_append rest
  rw [decode, hranges]
  simp only [hfollow rest, Except.map, hvalue, Char.ofNat_toNat]

end Strict

/-! ### One character read forward and backward -/

section Character

variable (c : Char) (rest : List UInt8)

@[simp] theorem Width.bytes_ofChar : (Width.ofChar c).bytes = c.utf8Size := by
  rw [← (Sequence.spells_encode c).length, String.length_utf8EncodeChar]

theorem Sequence.measure_encode {room : Nat} (h : c.utf8Size ≤ room) :
    measure (String.utf8EncodeChar c ++ rest) room = .ok (.ofChar c) := by
  obtain ⟨lead, trail, hbytes, hann, htrail⟩ := (spells_encode c).layout
  have hlen : (lead :: trail).length = (Width.ofChar c).bytes := hbytes ▸ (spells_encode c).length
  simp only [List.length_cons] at hlen
  rw [measure_eq_ok_iff, hbytes]
  refine ⟨lead, trail ++ rest, rfl, hann, by rw [Width.bytes_ofChar]; exact h, ?_⟩
  rw [checkTrail_eq_ok_iff, List.length_append, List.take_append_of_le_length (by omega)]
  exact ⟨by omega, fun byte hbyte => htrail byte (List.mem_of_mem_take hbyte)⟩

theorem Sequence.decode_encode {room : Nat} (h : c.utf8Size ≤ room) :
    decode (String.utf8EncodeChar c ++ rest) room = .ok (c, .ofChar c) := by
  rw [decode_eq_ok_iff, (spells_encode c).value_append]
  exact ⟨measure_encode c rest h, (spells_encode c).character⟩

/-- Going back, the continuation bytes come first, and then the byte that announces them all. -/
theorem Sequence.measureBack_encode {room : Nat} (h : c.utf8Size ≤ room) :
    measureBack ((String.utf8EncodeChar c).reverse ++ rest) room = .ok (.ofChar c) := by
  obtain ⟨lead, trail, hbytes, hann, htrail⟩ := (spells_encode c).layout
  have hlength : trail.reverse.length = c.utf8Size - 1 := by
    rw [List.length_reverse, ← String.length_utf8EncodeChar, hbytes, List.length_cons,
      Nat.add_sub_cancel]
  rw [measureBack_eq_ok_iff, Width.bytes_ofChar, ← hlength, hbytes, List.reverse_cons,
    List.append_assoc, List.singleton_append]
  refine ⟨h, ⟨lead, ?_, hann⟩, ?_⟩
  · rw [List.getElem?_append_right (Nat.le_refl _), Nat.sub_self, List.getElem?_cons_zero]
  · intro j hj
    refine ⟨trail.reverse[j], ?_, htrail _ (List.mem_reverse.mp (List.getElem_mem hj))⟩
    rw [List.getElem?_append_left hj, List.getElem?_eq_getElem hj]

/-- The encoding starts with a byte that is no continuation byte and goes on with such bytes. -/
theorem encode_eq_cons : ∃ lead trail, String.utf8EncodeChar c = lead :: trail ∧
    isContinuation lead = false ∧ ∀ byte ∈ trail, isContinuation byte = true := by
  obtain ⟨lead, trail, hbytes, hann, htrail⟩ := (Sequence.spells_encode c).layout
  exact ⟨lead, trail, hbytes, Sequence.not_isContinuation_of_announced hann, htrail⟩

end Character

end Utf8Scan
