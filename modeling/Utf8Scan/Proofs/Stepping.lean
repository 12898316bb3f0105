/-
Single steps stay inside their room and never miss a byte.

A step reads at most four bytes of its room.  When the room lies inside the buffer
all of them are there, so the fault `unreadable` does not occur, and every step of a
scanner that fails does so with an error of scanning.  The place of that error lies in
the room too: a byte that is not well formed was read, and a sequence that is cut off
starts where the step does.  A step that succeeds ends inside its room: the announced
width is compared with the room before any byte but the leading one is read.

Both readers that go forward agree on the width, and a step in either direction
names an offset at which some sequence starts.
-/
import Utf8Scan.Proofs.Outcome

namespace Utf8Scan

namespace Sequence

variable {ahead behind : List UInt8} {room : Nat} {width : Width}

/-! ### Forward -/

theorem checkTrail_eq_ok_iff {displacement needed : Nat} {rest : List UInt8} :
    checkTrail displacement needed rest = .ok () ↔
      needed ≤ rest.length ∧ ∀ byte ∈ rest.take needed, isContinuation byte = true := by
  induction needed generalizing displacement rest with
  | zero => simp [checkTrail]
  | succ n ih =>
      cases rest with
      | nil => simp [checkTrail]
      | cons byte rest =>
          rw [checkTrail]
          by_cases hbyte : isContinuation byte
          · simp [hbyte, ih]
          · simp [hbyte]

/-- What a step forward can find fault with: that there is no room, that the room ends inside the
sequence that the first byte announces, or that some byte of the room is not well formed. -/
inductive FaultAhead (ahead : List UInt8) (room : Nat) : Fault → Prop
  | exhausted (h : room = 0) : FaultAhead ahead room .exhausted
  | truncated {lead : UInt8} {width : Width} (hlead : ahead.head? = some lead)
      (hann : announced lead = .ok width) (hpos : 0 < room) (hroom : room < width.bytes) :
      FaultAhead ahead room (.truncated width)
  | malformed {displacement : Nat} {reason : Reason} (h : displacement < room) :
      FaultAhead ahead room (.malformed displacement reason)

/-- A byte that should continue a sequence and does not is the fault at its own displacement. -/
theorem checkTrail_fault {displacement needed : Nat} {rest : List UInt8} {fault : Fault}
    (hrest : needed ≤ rest.length) (h : checkTrail displacement needed rest = .error fault) :
    ∃ i < displacement + needed, fault = .malformed i .continuationMissing := by
  induction needed generalizing displacement rest with
  | zero => simp [checkTrail] at h
  | succ n ih =>
      cases rest with
      | nil => simp at hrest
      | cons byte rest =>
          rw [checkTrail] at h
          by_cases hbyte : isContinuation byte
          · rw [if_pos hbyte] at h
            obtain ⟨i, hi, rfl⟩ := ih (by simpa using hrest) h
            exact ⟨i, by omega, rfl⟩
          · rw [if_neg hbyte] at h
            cases h
            exact ⟨displacement, by omega, rfl⟩

/-- What it takes for a layout to be accepted. -/
theorem measure_eq_ok_iff : measure ahead room = .ok width ↔
    ∃ lead rest, ahead = lead :: rest ∧ announced lead = .ok width ∧ width.bytes ≤ room ∧
      checkTrail 1 (width.bytes - 1) rest = .ok () := by
  constructor
  · intro h
    unfold measure at h
    by_cases hempty : room = 0
    · rw [if_pos hempty] at h
      cases h
    rw [if_neg hempty] at h
    cases ahead with
    | nil => cases h
    | cons lead rest =>
        cases hann : announced lead with
        | error reason => simp [hann] at h
        | ok announcedWidth =>
            simp only [hann] at h
            by_cases hroom : room < announcedWidth.bytes
            · rw [if_pos hroom] at h
              cases h
            rw [if_neg hroom] at h
            obtain ⟨_, hcheck, rfl⟩ := Except.map_eq_ok_iff.mp h
            exact ⟨lead, rest, rfl, hann, Nat.not_lt.mp hroom, hcheck⟩
  · rintro ⟨lead, rest, rfl, hann, hroom, hcheck⟩
    have hpos := width.bytes_pos
    simp only [measure]
    rw [if_neg (by omega), hann]
    simp only
    rw [if_neg (by omega), hcheck]
    rfl

/-- A sequence that is accepted is accepted too where more can be read. -/
theorem measure_mono {ahead' : List UInt8} {room' : Nat} (hahead : ahead <+: ahead')
    (hroom : room ≤ room') (h : measure ahead room = .ok width) :
    measure ahead' room' = .ok width := by
  obtain ⟨lead, rest, rfl, hann, hwidth, hcheck⟩ := measure_eq_ok_iff.mp h
  obtain ⟨tail, rfl⟩ := hahead
  refine measure_eq_ok_iff.mpr ⟨lead, rest ++ tail, rfl, hann, Nat.le_trans hwidth hroom, ?_⟩
  rw [checkTrail_eq_ok_iff] at hcheck ⊢
  obtain ⟨hlength, hbytes⟩ := hcheck
  rw [List.take_append_of_le_length hlength, List.length_append]
  exact ⟨Nat.le_add_right_of_le hlength, hbytes⟩

theorem measure_fault {fault : Fault} (hahead : min 4 room ≤ ahead.length)
    (h : measure ahead room = .error fault) : FaultAhead ahead room fault := by
  unfold measure at h
  by_cases hempty : room = 0
  · rw [if_pos hempty] at h
    cases h
    exact .exhausted hempty
  rw [if_neg hempty] at h
  cases ahead with
  | nil =>
      rw [List.length_nil] at hahead
      omega
  | cons lead rest =>
      cases hann : announced lead with
      | error reason =>
          simp only [hann] at h
          cases h
          exact .malformed (Nat.pos_of_ne_zero hempty)
      | ok width =>
          simp only [hann] at h
          by_cases hwidth : room < width.bytes
          · rw [if_pos hwidth] at h
            cases h
            exact .truncated rfl hann (Nat.pos_of_ne_zero hempty) hwidth
          · rw [if_neg hwidth, Except.map_eq_error_iff] at h
            have hfour := width.bytes_le_four
            have hpos := width.bytes_pos
            rw [List.length_cons] at hahead
            obtain ⟨i, hi, rfl⟩ := checkTrail_fault (by omega) h
            exact .malformed (by omega)

/-- The reader of characters accepts what the reader of layouts does, if the value is one. -/
theorem decode_eq_ok_iff {c : Char} : decode ahead room = .ok (c, width) ↔
    measure ahead room = .ok width ∧ character width (value width ahead) = .ok c := by
  simp only [decode]
  cases measure ahead room with
  | error fault => simp
  | ok measured =>
      simp only [Except.ok.injEq]
      constructor
      · intro h
        split at h
        · cases h
        · rename_i found hfound
          simp only [Except.ok.injEq, Prod.mk.injEq] at h
          obtain ⟨rfl, rfl⟩ := h
          exact ⟨rfl, hfound⟩
      · rintro ⟨rfl, hvalue⟩
        rw [hvalue]

theorem decode_fault {fault : Fault} (hahead : min 4 room ≤ ahead.length)
    (h : decode ahead room = .error fault) : FaultAhead ahead room fault := by
  simp only [decode] at h
  cases hmeasure : measure ahead room with
  | error found =>
      simp only [hmeasure] at h
      cases h
      exact measure_fault hahead hmeasure
  | ok width =>
      simp only [hmeasure] at h
      obtain ⟨_, _, _, _, hwidth, _⟩ := measure_eq_ok_iff.mp hmeasure
      cases hchar : character width (value width ahead) with
      | error reason =>
          simp only [hchar] at h
          cases h
          exact .malformed (Nat.lt_of_lt_of_le width.bytes_pos hwidth)
      | ok c => simp [hchar] at h

theorem decode_truncated {lead : UInt8} {rest : List UInt8} (hann : announced lead = .ok width)
    (hpos : 0 < room) (hroom : room < width.bytes) :
    decode (lead :: rest) room = .error (.truncated width) := by
  simp only [decode, measure, if_neg (Nat.ne_of_gt hpos), hann, if_pos hroom]

theorem decode_readable (h : min 4 room ≤ ahead.length) :
    decode ahead room ≠ .error .unreadable := by
  intro hfault
  cases decode_fault h hfault

/-! ### Backward -/

/-- What a step back can find fault with: that there is no room, or some byte of the room. -/
inductive FaultBehind (room : Nat) : Fault → Prop
  | exhausted (h : room = 0) : FaultBehind room .exhausted
  | malformed {displacement : Int} {reason : Reason} (hroom : -room ≤ displacement)
      (hneg : displacement < 0) : FaultBehind room (.malformed displacement reason)

theorem seekLead_fault {distance room' : Nat} {fault : Fault} (hbehind : room ≤ behind.length)
    (hdistance : 0 < distance) (hroom : distance + room ≤ room' + 1) (hpos : 0 < room')
    (h : seekLead distance room behind = .error fault) : FaultBehind room' fault := by
  induction room generalizing distance behind with
  | zero =>
      rw [seekLead] at h
      cases h
      exact .malformed (by omega) (by omega)
  | succ n ih =>
      cases behind with
      | nil => simp at hbehind
      | cons byte rest =>
          rw [seekLead] at h
          by_cases hbyte : isContinuation byte
          · rw [if_pos hbyte] at h
            exact ih (by simpa using hbehind) (by omega) (by omega) h
          · rw [if_neg hbyte] at h
            cases hann : announced byte with
            | error reason =>
                simp only [hann] at h
                cases h
                exact .malformed (by omega) (by omega)
            | ok width =>
                simp only [hann] at h
                by_cases hbytes : width.bytes = distance
                · rw [if_pos hbytes] at h
                  cases h
                · rw [if_neg hbytes] at h
                  cases h
                  exact .malformed (by omega) (by omega)

/-- No sequence starts with a continuation byte. -/
theorem not_isContinuation_of_announced {byte : UInt8} (h : announced byte = .ok width) :
    isContinuation byte = false := by
  rw [← Bool.not_eq_true, isContinuation_iff]
  rintro ⟨hlow, hhigh⟩
  rw [announced, if_neg (UInt8.not_lt.mpr hlow), if_pos (UInt8.lt_iff_toNat_lt.mpr hhigh)] at h
  cases h

/-- A backward search stops at the nearest byte that continues nothing, which must announce the
distance at which it lies. -/
theorem seekLead_eq_ok_iff {distance : Nat} : seekLead distance room behind = .ok width ↔
    ∃ i < room, width.bytes = distance + i ∧
      (∃ lead, behind[i]? = some lead ∧ announced lead = .ok width) ∧
      ∀ j < i, ∃ byte, behind[j]? = some byte ∧ isContinuation byte = true := by
  induction room generalizing distance behind with
  | zero => simp [seekLead]
  | succ n ih =>
      cases behind with
      | nil => simp [seekLead]
      | cons byte rest =>
          rw [seekLead]
          by_cases hbyte : isContinuation byte
          · rw [if_pos hbyte, ih]
            constructor
            · rintro ⟨i, hi, hbytes, hlead, htrail⟩
              refine ⟨i + 1, by omega, by omega, hlead, ?_⟩
              rintro (_ | j) hj
              · exact ⟨byte, rfl, hbyte⟩
              · exact htrail j (by omega)
            · rintro ⟨_ | i, hi, hbytes, ⟨lead, hlead, hann⟩, htrail⟩
              · cases hlead
                rw [not_isContinuation_of_announced hann] at hbyte
                cases hbyte
              · refine ⟨i, by omega, by omega, ⟨lead, hlead, hann⟩, ?_⟩
                intro j hj
                exact htrail (j + 1) (by omega)
          · rw [if_neg hbyte]
            constructor
            · intro h
              cases hann : announced byte with
              | error reason => simp [hann] at h
              | ok announcedWidth =>
                  simp only [hann] at h
                  by_cases hbytes : announcedWidth.bytes = distance
                  · rw [if_pos hbytes] at h
                    cases h
                    exact ⟨0, by omega, hbytes, ⟨byte, rfl, hann⟩, nofun⟩
                  · rw [if_neg hbytes] at h
                    cases h
            · rintro ⟨_ | i, hi, hbytes, ⟨lead, hlead, hann⟩, htrail⟩
              · cases hlead
                rw [hann]
                simp only
                rw [if_pos (by omega)]
              · obtain ⟨first, hfirst, hcontinues⟩ := htrail 0 (by omega)
                cases hfirst
                exact absurd hcontinues hbyte

theorem measureBack_eq_ok_iff : measureBack behind room = .ok width ↔
    width.bytes ≤ room ∧
      (∃ lead, behind[width.bytes - 1]? = some lead ∧ announced lead = .ok width) ∧
      ∀ j < width.bytes - 1, ∃ byte, behind[j]? = some byte ∧ isContinuation byte = true := by
  have hpos := width.bytes_pos
  have hfour := width.bytes_le_four
  unfold measureBack
  by_cases hempty : room = 0
  · rw [if_pos hempty]
    constructor
    · nofun
    · rintro ⟨hroom, _⟩
      omega
  · rw [if_neg hempty, seekLead_eq_ok_iff]
    constructor
    · rintro ⟨i, hi, hbytes, hlead, htrail⟩
      obtain rfl : i = width.bytes - 1 := by omega
      exact ⟨by omega, hlead, htrail⟩
    · rintro ⟨hroom, hlead, htrail⟩
      exact ⟨width.bytes - 1, by omega, by omega, hlead, htrail⟩

theorem measureBack_fault {fault : Fault} (hbehind : min 4 room ≤ behind.length)
    (h : measureBack behind room = .error fault) : FaultBehind room fault := by
  unfold measureBack at h
  by_cases hempty : room = 0
  · rw [if_pos hempty] at h
    cases h
    exact .exhausted hempty
  · rw [if_neg hempty] at h
    exact seekLead_fault (by omega) Nat.one_pos (by omega) (by omega) h

end Sequence

/-! ### Rooms of a buffer -/

namespace Buffer

theorem room_natCast (offset limit : Nat) : room (offset : Int) (limit : Int) = limit - offset := by
  unfold room
  omega

/-- The bytes of a room that lies inside the buffer are all there. -/
theorem length_ahead (b : Buffer) {offset limit : Nat} (h : limit ≤ b.size) :
    min 4 (limit - offset) ≤ (b.ahead offset (min 4 (limit - offset))).length := by
  rw [ahead_natCast, List.length_take, List.length_drop, length_toList]
  omega

theorem length_behind (b : Buffer) {offset floor : Nat} (h : offset ≤ b.size) :
    min 4 (offset - floor) ≤ (b.behind offset (min 4 (offset - floor))).length := by
  rw [behind_natCast b offset _ h (by omega), List.length_take, List.length_reverse,
    List.length_take, length_toList]
  omega

/-- Looking back, the bytes before the offset come in reverse. -/
theorem getElem?_behind {b : Buffer} {offset count i : Nat} (hoffset : offset ≤ b.size)
    (hcount : count ≤ offset) (hi : i < count) :
    (b.behind offset count)[i]? = b.toList[offset - 1 - i]? := by
  rw [behind_natCast _ _ _ hoffset hcount, List.getElem?_take, if_pos hi,
    List.getElem?_reverse (by rw [List.length_take, length_toList]; omega),
    List.getElem?_take, List.length_take, length_toList, if_pos (by omega)]
  congr 1
  omega

/-- Where there is a byte, the buffer goes on. -/
theorem lt_size_of_byte {b : Buffer} {offset : Nat} {byte : UInt8}
    (hbyte : b.toList[offset]? = some byte) : offset < b.size := by
  rw [← length_toList]
  exact (List.getElem?_eq_some_iff.mp hbyte).1

/-- The byte at an offset says whether that is a boundary. -/
theorem isBoundary_eq {b : Buffer} {offset : Nat} {byte : UInt8}
    (hbyte : b.toList[offset]? = some byte) : b.isBoundary offset = !isContinuation byte := by
  have hlt := lt_size_of_byte hbyte
  have hrange : (0 ≤ (offset : Int)) ∧ (offset : Int) ≤ b.size := by omega
  simp only [isBoundary, Int.toNat_natCast, byte?_eq, hbyte, Option.any_some, hrange, decide_true,
    Bool.true_and]

theorem isBoundary_of_byte {b : Buffer} {offset : Nat} {byte : UInt8}
    (hbyte : b.toList[offset]? = some byte) (hlead : isContinuation byte = false) :
    b.isBoundary offset = true := by
  rw [isBoundary_eq hbyte, hlead, Bool.not_false]

theorem isBoundary_size (b : Buffer) : b.isBoundary b.size = true := by
  have hnone : b.toList[b.size]? = none := List.getElem?_eq_none (Nat.le_of_eq b.length_toList)
  simp only [isBoundary, Int.toNat_natCast, byte?_eq, hnone, Option.any_none, Bool.not_false,
    Bool.and_true, Bool.and_eq_true, decide_eq_true_eq]
  omega

/-- A sequence under a limit is a byte that announces it and the bytes that continue it. -/
theorem measure_natCast_eq_ok_iff {b : Buffer} {offset limit : Nat} {width : Width} :
    b.measure offset limit = .ok width ↔
      (∃ lead, b.toList[offset]? = some lead ∧ Sequence.announced lead = .ok width) ∧
        offset + width.bytes ≤ limit ∧
        ∀ i, 0 < i → i < width.bytes →
          ∃ byte, b.toList[offset + i]? = some byte ∧ isContinuation byte = true := by
  have hpos := width.bytes_pos
  have hfour := width.bytes_le_four
  -- The bytes that the step reads are those of the buffer from the offset on.
  have hread {i : Nat} (hi : i < width.bytes) (hroom : width.bytes ≤ limit - offset) :
      (b.ahead offset (min 4 (limit - offset)))[i]? = b.toList[offset + i]? := by
    rw [ahead_natCast, List.getElem?_take, if_pos (by omega), List.getElem?_drop]
  simp only [measure, room_natCast, Except.mapError_eq_ok_iff, Sequence.measure_eq_ok_iff,
    Sequence.checkTrail_eq_ok_iff]
  constructor
  · rintro ⟨lead, rest, hahead, hann, hroom, hlength, hall⟩
    rw [hahead] at hread
    refine ⟨⟨lead, (hread hpos hroom).symm, hann⟩, by omega, ?_⟩
    intro i hi hlt
    obtain ⟨j, rfl⟩ : ∃ j, i = j + 1 := ⟨i - 1, by omega⟩
    have hj : j < rest.length := by omega
    have hbyte := hread hlt hroom
    rw [List.getElem?_cons_succ, List.getElem?_eq_getElem hj] at hbyte
    refine ⟨rest[j], hbyte.symm, hall _ ?_⟩
    exact List.mem_take_iff_getElem.mpr ⟨j, by omega, rfl⟩
  · rintro ⟨⟨lead, hlead, hann⟩, hlimit, htrail⟩
    have hroom : width.bytes ≤ limit - offset := by omega
    cases hahead : b.ahead offset (min 4 (limit - offset)) with
    | nil =>
        have hnone := hread hpos hroom
        rw [hahead, Nat.add_zero, hlead] at hnone
        cases hnone
    | cons first rest =>
        rw [hahead] at hread
        have hfirst := hread hpos hroom
        rw [List.getElem?_cons_zero, Nat.add_zero, hlead] at hfirst
        obtain rfl := Option.some.inj hfirst
        have hbyte {j : Nat} (hj : j < width.bytes - 1) :
            ∃ byte, rest[j]? = some byte ∧ isContinuation byte = true := by
          have hsame := hread (Nat.add_lt_of_lt_sub hj) hroom
          rw [List.getElem?_cons_succ] at hsame
          rw [hsame]
          exact htrail (j + 1) (Nat.succ_pos j) (Nat.add_lt_of_lt_sub hj)
        refine ⟨first, rest, rfl, hann, hroom, ?_, ?_⟩
        · by_contra hshort
          obtain ⟨byte, hget, _⟩ := hbyte (Nat.lt_of_not_le hshort)
          rw [List.getElem?_eq_none (Nat.le_refl _)] at hget
          cases hget
        · intro byte hmem
          obtain ⟨j, hj, rfl⟩ := List.mem_take_iff_getElem.mp hmem
          obtain ⟨found, hget, hcontinues⟩ := hbyte (by omega : j < width.bytes - 1)
          rw [List.getElem?_eq_getElem (by omega)] at hget
          rw [Option.some.inj hget]
          exact hcontinues

/-- A sequence starts at a boundary and ends under the limit. -/
theorem measure_spec {b : Buffer} {offset limit : Nat} {width : Width}
    (h : b.measure offset limit = .ok width) :
    b.isBoundary offset = true ∧ offset + width.bytes ≤ limit := by
  obtain ⟨⟨lead, hlead, hann⟩, hlimit, _⟩ := measure_natCast_eq_ok_iff.mp h
  exact ⟨isBoundary_of_byte hlead (Sequence.not_isContinuation_of_announced hann), hlimit⟩

/-- A boundary is an offset of the buffer. -/
theorem le_size_of_isBoundary {b : Buffer} {offset : Nat} (h : b.isBoundary offset = true) :
    offset ≤ b.size := by
  simp only [isBoundary, Bool.and_eq_true, decide_eq_true_eq] at h
  omega

/-- No negative offset is a boundary. -/
theorem exists_natCast_of_isBoundary {b : Buffer} {offset : Int} (h : b.isBoundary offset = true) :
    ∃ o : Nat, offset = o := by
  rw [isBoundary, Bool.and_eq_true, Bool.and_eq_true, decide_eq_true_eq] at h
  exact Int.eq_ofNat_of_zero_le h.1.1

end Buffer

/-! ### Steps of a scanner -/

namespace Scanner

variable {s : Scanner} {o o' : Nat} {c : Char} {width : Width} {e : Error}

theorem measureAt_eq (s : Scanner) (o : Nat) : s.measureAt o =
    (Sequence.measure (s.buffer.ahead o (min 4 (s.stop - o))) (s.stop - o)).mapError
      (·.errorAhead o) := by
  simp only [measureAt, Buffer.measure, Buffer.room_natCast]

theorem decodeAt_eq (s : Scanner) (o : Nat) : s.decodeAt o =
    (Sequence.decode (s.buffer.ahead o (min 4 (s.stop - o))) (s.stop - o)).mapError
      (·.errorAhead o) := by
  simp only [decodeAt, Buffer.decode, Buffer.room_natCast]

theorem measureBackAt_eq (s : Scanner) (o : Nat) : s.measureBackAt o =
    (Sequence.measureBack (s.buffer.behind o (min 4 (o - s.start))) (o - s.start)).mapError
      (·.errorBehind o s.start) := by
  simp only [measureBackAt, Buffer.measureBack, Buffer.room_natCast]

/-- A character is as wide as its layout says. -/
theorem measureAt_of_decodeAt (h : s.decodeAt o = .ok (c, width)) : s.measureAt o = .ok width := by
  rw [decodeAt_eq, Except.mapError_eq_ok_iff, Sequence.decode_eq_ok_iff] at h
  rw [measureAt_eq, Except.mapError_eq_ok_iff]
  exact h.1

/-- A window may hide the rest of a sequence, but it adds nothing to one. -/
theorem measure_of_measureAt {limit : Nat} (hlimit : s.stop ≤ limit)
    (h : s.measureAt o = .ok width) : s.buffer.measure o limit = .ok width := by
  rw [measureAt_eq, Except.mapError_eq_ok_iff] at h
  simp only [Buffer.measure, Buffer.room_natCast, Except.mapError_eq_ok_iff]
  refine Sequence.measure_mono ?_ (by omega) h
  rw [Buffer.ahead_natCast, Buffer.ahead_natCast]
  exact List.take_prefix_take_left (by omega)

theorem measureAt_le (h : s.measureAt o = .ok width) : o + width.bytes ≤ s.stop :=
  (Buffer.measure_spec h).2

theorem decodeAt_le (h : s.decodeAt o = .ok (c, width)) : o + width.bytes ≤ s.stop :=
  measureAt_le (measureAt_of_decodeAt h)

theorem decodeAt_lt (h : s.decodeAt o = .ok (c, width)) : o < s.stop :=
  Nat.lt_of_lt_of_le (Nat.lt_add_of_pos_right width.bytes_pos) (decodeAt_le h)

theorem measureBackAt_le (h : s.measureBackAt o = .ok width) : s.start + width.bytes ≤ o := by
  rw [measureBackAt_eq, Except.mapError_eq_ok_iff] at h
  have hroom := (Sequence.measureBack_eq_ok_iff.mp h).1
  have hpos := width.bytes_pos
  omega

/-! ### Errors in the window -/

/-- An error of scanning that is made here.  Its place lies in the window, or on its edges; it has
none only if there is nothing to look for. -/
def Locates (s : Scanner) : ScanError → Prop
  | .emptyTarget operation => operation = "match_string" ∨ operation = "read_until_string"
  | .custom _ _ _ => False
  | x => s.start ≤ x.position ∧ x.position ≤ s.stop

/-- The error of an operation for which the window is to blame. -/
def Fails (s : Scanner) (e : Error) : Prop := ∃ x, e = .scan x ∧ s.Locates x

theorem fails_of_faultAhead {ahead : List UInt8} {fault : Fault} (hstart : s.start ≤ o)
    (hstop : o ≤ s.stop) (h : Sequence.FaultAhead ahead (s.stop - o) fault) :
    s.Fails (fault.errorAhead o) := by
  cases h with
  | exhausted => exact ⟨_, rfl, Int.ofNat_le.mpr hstart, Int.ofNat_le.mpr hstop⟩
  | truncated => exact ⟨_, rfl, Int.ofNat_le.mpr hstart, Int.ofNat_le.mpr hstop⟩
  | @malformed displacement reason hroom =>
      refine ⟨_, rfl, ?_, ?_⟩
      · show (s.start : Int) ≤ o + displacement
        omega
      · show (o : Int) + displacement ≤ s.stop
        omega

theorem measureAt_fails (hs : s.Inside) (hstart : s.start ≤ o) (hstop : o ≤ s.stop)
    (h : s.measureAt o = .error e) : s.Fails e := by
  rw [measureAt_eq, Except.mapError_eq_error_iff] at h
  obtain ⟨fault, hfault, rfl⟩ := h
  exact fails_of_faultAhead hstart hstop
    (Sequence.measure_fault (s.buffer.length_ahead hs.stop_le_size) hfault)

/-- What stops the reader of characters at an offset. -/
theorem decodeAt_fault (hs : s.Inside) (h : s.decodeAt o = .error e) :
    ∃ fault, Sequence.FaultAhead (s.buffer.ahead o (min 4 (s.stop - o))) (s.stop - o) fault ∧
      e = fault.errorAhead o := by
  rw [decodeAt_eq, Except.mapError_eq_error_iff] at h
  obtain ⟨fault, hfault, rfl⟩ := h
  exact ⟨fault, Sequence.decode_fault (s.buffer.length_ahead hs.stop_le_size) hfault, rfl⟩

theorem decodeAt_fails (hs : s.Inside) (hstart : s.start ≤ o) (hstop : o ≤ s.stop)
    (h : s.decodeAt o = .error e) : s.Fails e := by
  obtain ⟨fault, hfault, rfl⟩ := decodeAt_fault hs h
  exact fails_of_faultAhead hstart hstop hfault

theorem measureBackAt_fails (hs : s.Inside) (hstart : s.start ≤ o) (hstop : o ≤ s.stop)
    (h : s.measureBackAt o = .error e) : s.Fails e := by
  have hsize := hs.stop_le_size
  rw [measureBackAt_eq, Except.mapError_eq_error_iff] at h
  obtain ⟨fault, hfault, rfl⟩ := h
  have hbytes : min 4 (o - s.start) ≤ (s.buffer.behind o (min 4 (o - s.start))).length :=
    s.buffer.length_behind (by omega)
  cases Sequence.measureBack_fault hbytes hfault with
  | exhausted =>
      exact ⟨_, rfl, Int.le_refl _, Int.ofNat_le.mpr (Nat.le_trans hstart hstop)⟩
  | @malformed displacement reason hroom hneg =>
      refine ⟨_, rfl, ?_, ?_⟩
      · show (s.start : Int) ≤ o + displacement
        omega
      · show (o : Int) + displacement ≤ s.stop
        omega

/-- A step back leads to a boundary: the byte there announces a sequence. -/
theorem isBoundary_of_measureBackAt (ho : o ≤ s.buffer.size)
    (h : s.measureBackAt o = .ok width) : s.buffer.isBoundary (o - width.bytes : Nat) = true := by
  have hle := measureBackAt_le h
  rw [measureBackAt_eq, Except.mapError_eq_ok_iff] at h
  obtain ⟨hroom, ⟨byte, hbyte, hann⟩, _⟩ := Sequence.measureBack_eq_ok_iff.mp h
  have hpos := width.bytes_pos
  have hfour := width.bytes_le_four
  refine Buffer.isBoundary_of_byte ?_ (Sequence.not_isContinuation_of_announced hann)
  rw [Buffer.getElem?_behind ho (by omega) (by omega)] at hbyte
  rw [← hbyte]
  congr 1
  omega

/-! ### Walks

A walk goes from one offset to another by whole sequences.
-/

/-- One step forward. -/
def StepsTo (s : Scanner) (o o' : Nat) : Prop :=
  ∃ width, s.measureAt o = .ok width ∧ o' = o + width.bytes

/-- One step back. -/
def StepsBackTo (s : Scanner) (o o' : Nat) : Prop :=
  ∃ width, s.measureBackAt o = .ok width ∧ o' = o - width.bytes

/-- Any number of steps forward. -/
abbrev WalksTo (s : Scanner) : Nat → Nat → Prop := Relation.ReflTransGen s.StepsTo

/-- Any number of steps back. -/
abbrev WalksBackTo (s : Scanner) : Nat → Nat → Prop := Relation.ReflTransGen s.StepsBackTo

theorem stepsTo_of_decodeAt (h : s.decodeAt o = .ok (c, width)) : s.StepsTo o (o + width.bytes) :=
  ⟨width, measureAt_of_decodeAt h, rfl⟩

theorem WalksTo.le (h : s.WalksTo o o') : o ≤ o' := by
  induction h with
  | refl => exact Nat.le_refl _
  | tail _ hstep ih =>
      obtain ⟨width, _, rfl⟩ := hstep
      omega

theorem WalksBackTo.le (h : s.WalksBackTo o o') : o' ≤ o := by
  induction h with
  | refl => exact Nat.le_refl _
  | tail _ hstep ih =>
      obtain ⟨width, _, rfl⟩ := hstep
      omega

theorem skip_walksTo {n : Nat} (h : s.skip n o = .ok o') : s.WalksTo o o' := by
  induction n generalizing o with
  | zero => cases h; exact .refl
  | succ n ih =>
      rw [skip] at h
      split at h
      · cases h
      · rename_i width hwidth
        exact .head ⟨width, hwidth, rfl⟩ (ih h)

theorem skip_le {n : Nat} (ho : o ≤ s.stop) (h : s.skip n o = .ok o') : o' ≤ s.stop := by
  induction n generalizing o with
  | zero => cases h; exact ho
  | succ n ih =>
      rw [skip] at h
      split at h
      · cases h
      · rename_i width hwidth
        exact ih (measureAt_le hwidth) h

theorem skip_fails {n : Nat} (hs : s.Inside) (hstart : s.start ≤ o) (hstop : o ≤ s.stop)
    (h : s.skip n o = .error e) : s.Fails e := by
  induction n generalizing o with
  | zero => cases h
  | succ n ih =>
      rw [skip] at h
      split at h
      · rename_i e' he
        cases h
        exact measureAt_fails hs hstart hstop he
      · rename_i width hwidth
        exact ih (by omega) (measureAt_le hwidth) h

theorem skipBack_walksBackTo {n : Nat} (h : s.skipBack n o = .ok o') : s.WalksBackTo o o' := by
  induction n generalizing o with
  | zero => cases h; exact .refl
  | succ n ih =>
      rw [skipBack] at h
      split at h
      · cases h
      · rename_i width hwidth
        exact .head ⟨width, hwidth, rfl⟩ (ih h)

theorem skipBack_fails {n : Nat} (hs : s.Inside) (hstart : s.start ≤ o) (hstop : o ≤ s.stop)
    (h : s.skipBack n o = .error e) : s.Fails e := by
  induction n generalizing o with
  | zero => cases h
  | succ n ih =>
      rw [skipBack] at h
      split at h
      · rename_i e' he
        cases h
        exact measureBackAt_fails hs hstart hstop he
      · rename_i width hwidth
        have hle := measureBackAt_le hwidth
        exact ih (by omega) (by omega) h

theorem charactersFrom_fails (hs : s.Inside) (hstart : s.start ≤ o)
    (h : s.charactersFrom o = .error e) : s.Fails e := by
  fun_induction charactersFrom s o with
  | case1 o hlt e' he =>
      cases h
      exact decodeAt_fails hs hstart (Nat.le_of_lt hlt) he
  | case2 o hlt c width hdecode ih => exact ih (by omega) (Except.map_eq_error_iff.mp h)
  | case3 o hge => cases h

end Scanner

end Utf8Scan
