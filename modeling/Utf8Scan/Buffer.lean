/-
A buffer of bytes, and the few ways the rest of the library looks into one.

The bytes are stored packed, so reading one costs the same wherever it lies; every
statement about a buffer speaks of `toList` instead.  A scan never asks for more
than the four bytes that one character can take, so `ahead` and `behind` hand out
short lists and everything that interprets bytes is a function on lists.

Offsets may be any integers.  A negative one counts from the end of the buffer,
and an offset that reaches neither way is unreadable: the lists stop there.
-/

namespace Utf8Scan

/-- A buffer holds bytes, which need not be well-formed text. -/
structure Buffer where
  data : ByteArray
  deriving Inhabited

namespace Buffer

instance : DecidableEq Buffer
  | ⟨data⟩, ⟨data'⟩ =>
    match data.decEq data' with
    | isTrue h => isTrue (congrArg Buffer.mk h)
    | isFalse h => isFalse fun heq => h (Buffer.mk.inj heq)

/-- The bytes in order: what a buffer means. -/
def toList (b : Buffer) : List UInt8 := b.data.data.toList

def ofList (bytes : List UInt8) : Buffer := ⟨⟨bytes.toArray⟩⟩

/-- The UTF-8 encoding of a text. -/
def ofString (text : String) : Buffer := ⟨text.toUTF8⟩

/-- `count` copies of a buffer, one after the other. -/
def times (b : Buffer) (count : Nat) : Buffer :=
  go count ⟨ByteArray.empty⟩
where
  go : Nat → Buffer → Buffer
    | 0, acc => acc
    | n + 1, acc => go n ⟨acc.data ++ b.data⟩

def size (b : Buffer) : Nat := b.data.size

/-! ### Reading bytes -/

/-- The byte at an offset from the start. -/
def byte? (b : Buffer) (offset : Nat) : Option UInt8 :=
  if h : offset < b.data.size then some b.data[offset] else none

/-- The byte at any integer offset: a negative one counts from the end. -/
def byteAt? (b : Buffer) (offset : Int) : Option UInt8 :=
  if 0 ≤ offset then b.byte? offset.toNat
  else if 0 ≤ b.size + offset then b.byte? (b.size + offset).toNat
  else none

/-- At most `count` bytes from `offset` on, up to the first unreadable offset. -/
def ahead (b : Buffer) (offset : Int) : (count : Nat) → List UInt8
  | 0 => []
  | n + 1 =>
    match b.byteAt? offset with
    | none => []
    | some byte => byte :: b.ahead (offset + 1) n

/-- At most `count` bytes before `offset`, nearest first, up to the first unreadable offset. -/
def behind (b : Buffer) (offset : Int) : (count : Nat) → List UInt8
  | 0 => []
  | n + 1 =>
    match b.byteAt? (offset - 1) with
    | none => []
    | some byte => byte :: b.behind (offset - 1) n

/-! ### Comparing and counting bytes -/

/-- Whether the bytes from `offset` on start with `bytes`. -/
def holdsAt (b : Buffer) (offset : Nat) : List UInt8 → Bool
  | [] => true
  | byte :: rest => b.byte? offset == some byte && b.holdsAt (offset + 1) rest

/-- The first of `candidates` consecutive offsets at which the buffer holds `bytes`. -/
def findAmong (b : Buffer) (bytes : List UInt8) (offset : Nat) : (candidates : Nat) → Option Nat
  | 0 => none
  | n + 1 => if b.holdsAt offset bytes then some offset else b.findAmong bytes (offset + 1) n

/-- The first offset from `start` on at which `bytes` lies inside `[start, stop)`. -/
def find? (b : Buffer) (bytes : List UInt8) (start stop : Nat) : Option Nat :=
  b.findAmong bytes start (stop + 1 - bytes.length - start)

/-- How many of the `length` bytes from `start` on pass a test. -/
def count (b : Buffer) (test : UInt8 → Bool) (start length : Nat) : Nat :=
  go length 0
where
  go : Nat → Nat → Nat
    | 0, acc => acc
    | n + 1, acc => go n (if (b.byte? (start + n)).any test then acc + 1 else acc)

/-! ### What the operations mean for `toList` -/

theorem length_toList (b : Buffer) : b.toList.length = b.size := by
  simp only [toList, Array.length_toList, size, ByteArray.size]

theorem byte?_eq (b : Buffer) (offset : Nat) : b.byte? offset = b.toList[offset]? := by
  unfold byte? toList
  rw [Array.getElem?_toList]
  split
  · next h => rw [Array.getElem?_eq_getElem h]; rfl
  · next h => rw [Array.getElem?_eq_none (Nat.le_of_not_lt h)]

theorem toList_ofList (bytes : List UInt8) : (ofList bytes).toList = bytes := by
  simp [ofList, toList]

theorem toList_ofString (text : String) :
    (ofString text).toList = text.toList.flatMap String.utf8EncodeChar := by
  rw [ofString, String.toUTF8_eq_toByteArray, toList, ← String.utf8Encode_toList]
  simp [List.utf8Encode]

theorem byteAt?_natCast (b : Buffer) (offset : Nat) : b.byteAt? offset = b.toList[offset]? := by
  simp [byteAt?, byte?_eq]

theorem ahead_natCast (b : Buffer) (offset count : Nat) :
    b.ahead offset count = (b.toList.drop offset).take count := by
  induction count generalizing offset with
  | zero => simp [ahead]
  | succ n ih =>
    have hnext : ((offset : Int) + 1) = ((offset + 1 : Nat) : Int) := rfl
    rw [ahead, byteAt?_natCast, hnext, ih]
    by_cases h : offset < b.toList.length
    · rw [List.getElem?_eq_getElem h, List.drop_eq_getElem_cons h, List.take_succ_cons]
    · rw [List.getElem?_eq_none (Nat.le_of_not_lt h), List.drop_of_length_le (Nat.le_of_not_lt h)]
      rfl

/-- Looking back reads the bytes before the offset in reverse. -/
theorem behind_natCast (b : Buffer) (offset count : Nat) (h : offset ≤ b.size)
    (hc : count ≤ offset) :
    b.behind offset count = (b.toList.take offset).reverse.take count := by
  induction count generalizing offset with
  | zero => simp [behind]
  | succ n ih =>
    obtain ⟨m, rfl⟩ : ∃ m, offset = m + 1 := ⟨offset - 1, by omega⟩
    have hlt : m < b.toList.length := by rw [length_toList]; omega
    have hprev : (((m + 1 : Nat) : Int) - 1) = (m : Int) := by omega
    rw [behind, hprev, byteAt?_natCast, ih m (by omega) (by omega), List.getElem?_eq_getElem hlt,
      List.take_succ_eq_append_getElem hlt, List.reverse_append]
    rfl

theorem holdsAt_iff (b : Buffer) (offset : Nat) (bytes : List UInt8) :
    b.holdsAt offset bytes = true ↔ bytes <+: b.toList.drop offset := by
  induction bytes generalizing offset with
  | nil => simp [holdsAt]
  | cons byte rest ih =>
    rw [holdsAt, byte?_eq, Bool.and_eq_true, ih, beq_iff_eq]
    by_cases h : offset < b.toList.length
    · rw [List.getElem?_eq_getElem h, List.drop_eq_getElem_cons h, List.cons_prefix_cons,
        Option.some.injEq, eq_comm]
    · rw [List.getElem?_eq_none (Nat.le_of_not_lt h), List.drop_of_length_le (Nat.le_of_not_lt h)]
      simp

theorem count_eq (b : Buffer) (test : UInt8 → Bool) (start length : Nat) :
    b.count test start length = ((b.toList.drop start).take length).countP test := by
  have go_eq : ∀ n acc, count.go b test start n acc
      = ((b.toList.drop start).take n).countP test + acc := by
    intro n
    induction n with
    | zero => intro acc; simp [count.go]
    | succ n ih =>
      intro acc
      rw [count.go, ih, byte?_eq, List.take_add_one, List.getElem?_drop, List.countP_append]
      cases b.toList[start + n]? with
      | none => simp
      | some byte => by_cases h : test byte <;> simp [h]; omega
  rw [count, go_eq]
  rfl

/-- A find is the least candidate at which the bytes lie. -/
theorem findAmong_eq_some_iff (b : Buffer) (bytes : List UInt8) (offset candidates found : Nat) :
    b.findAmong bytes offset candidates = some found ↔
      (offset ≤ found ∧ found < offset + candidates ∧ b.holdsAt found bytes) ∧
        ∀ o, offset ≤ o → o < found → b.holdsAt o bytes = false := by
  induction candidates generalizing offset with
  | zero => simp [findAmong]; omega
  | succ n ih =>
    rw [findAmong]
    split
    · next h =>
      constructor
      · rintro ⟨⟩
        exact ⟨⟨Nat.le_refl _, by omega, h⟩, fun o hle hlt => absurd hle (by omega)⟩
      · rintro ⟨⟨hle, _, _⟩, hleast⟩
        rcases Nat.eq_or_lt_of_le hle with heq | hlt
        · rw [heq]
        · rw [hleast offset (Nat.le_refl _) hlt] at h
          cases h
    · next h =>
      rw [ih]
      constructor
      · rintro ⟨⟨hle, hlt, hholds⟩, hleast⟩
        refine ⟨⟨by omega, by omega, hholds⟩, fun o ho hof => ?_⟩
        rcases Nat.eq_or_lt_of_le ho with heq | hlt'
        · rw [← heq]; simpa using h
        · exact hleast o hlt' hof
      · rintro ⟨⟨hle, hlt, hholds⟩, hleast⟩
        have hne : offset ≠ found := fun heq => h (heq ▸ hholds)
        exact ⟨⟨by omega, by omega, hholds⟩, fun o ho hof => hleast o (by omega) hof⟩

end Buffer

end Utf8Scan
