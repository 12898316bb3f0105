/-
What a step back finds.

A step back looks at no more than four bytes, and it may not look below its floor.
Neither limit makes it miss anything: no sequence has more than four bytes, and the
bytes that continue a sequence start none, so at most one sequence ends at an offset.
The step back finds it whenever it starts at the floor or above.

Where it finds none it fails, in one of two ways.  It may not go back at all from the
floor or from below it; from above, some byte before the offset is not well formed.
Offsets that are read lie between the floor and the offset, so all of them are there.
-/
import Utf8Scan.Proofs.BackAndForth
import Utf8Scan.Proofs.Misspelling

namespace Utf8Scan.Buffer

variable {b : Buffer} {first offset floor : Int} {width : Width} {e : Error}

/-- The sequence at `first` starts at the floor or above, and a step forward leads over it to
`offset`. -/
structure Precedes (b : Buffer) (first offset floor : Int) : Prop where
  floor_le : floor ≤ first
  lt : first < offset
  next : b.next first offset = .ok offset

theorem previous_eq_ok_iff : b.previous offset floor = .ok first ↔
    ∃ width, b.measureBack offset floor = .ok width ∧ offset - width.bytes = first :=
  Except.map_eq_ok_iff

theorem previous_eq_error_iff :
    b.previous offset floor = .error e ↔ b.measureBack offset floor = .error e :=
  Except.map_eq_error_iff

/-- There is no way back from the floor, nor from below it. -/
theorem previous_of_le (b : Buffer) (h : offset ≤ floor) :
    b.previous offset floor = .error (.scan (.underflow floor)) := by
  have hroom : room floor offset = 0 := by
    unfold room
    omega
  rw [previous_eq_error_iff, measureBack, hroom]
  rfl

/-- The offset and the floor of a step that may go back are offsets of the buffer. -/
theorem exists_natCast (hfloor : 0 ≤ floor) (h : floor < offset) :
    ∃ o f : Nat, offset = o ∧ floor = f := by
  obtain ⟨o, ho⟩ := Int.eq_ofNat_of_zero_le (Int.le_of_lt (Int.lt_of_le_of_lt hfloor h))
  obtain ⟨f, hf⟩ := Int.eq_ofNat_of_zero_le hfloor
  exact ⟨o, f, ho, hf⟩

/-- The step back finds the sequence that precedes its offset, and nothing else. -/
theorem previous_eq_ok_iff_precedes (hfloor : 0 ≤ floor) (hoffset : offset ≤ b.size) :
    b.previous offset floor = .ok first ↔ b.Precedes first offset floor := by
  by_cases hlt : floor < offset
  · obtain ⟨o, f, rfl, rfl⟩ := exists_natCast hfloor hlt
    have hsize : o ≤ b.size := by omega
    rw [previous_eq_ok_iff]
    constructor
    · intro h
      obtain ⟨width, hback, rfl⟩ := h
      obtain ⟨hle, hmeasure⟩ := (measureBack_natCast_eq_ok_iff hsize).mp hback
      have hpos := width.bytes_pos
      have hcast : ((o - width.bytes : Nat) : Int) = o - width.bytes := by omega
      rw [hcast] at hmeasure
      exact ⟨by omega, by omega, next_eq_ok_iff.mpr ⟨width, hmeasure, by omega⟩⟩
    · intro h
      obtain ⟨hle, _, hnext⟩ := h
      obtain ⟨width, hmeasure, hend⟩ := next_eq_ok_iff.mp hnext
      obtain ⟨k, rfl⟩ := Int.eq_ofNat_of_zero_le (Int.le_trans hfloor hle)
      have hk : k = o - width.bytes := by omega
      rw [hk] at hmeasure
      exact ⟨width, (measureBack_natCast_eq_ok_iff hsize).mpr ⟨by omega, hmeasure⟩, by omega⟩
  · rw [b.previous_of_le (Int.not_lt.mp hlt)]
    simp only [reduceCtorEq, false_iff]
    intro h
    exact hlt (Int.lt_of_le_of_lt h.floor_le h.lt)

/-- At most one sequence ends at an offset. -/
theorem Precedes.unique {first' : Int} (hfloor : 0 ≤ floor) (hoffset : offset ≤ b.size)
    (h : b.Precedes first offset floor) (h' : b.Precedes first' offset floor) : first = first' := by
  have hfirst := (previous_eq_ok_iff_precedes hfloor hoffset).mpr h
  have hfirst' := (previous_eq_ok_iff_precedes hfloor hoffset).mpr h'
  exact Except.ok.inj (hfirst.symm.trans hfirst')

/-- Above the floor, a step back fails at a byte that it may look at. -/
theorem previous_error (hfloor : 0 ≤ floor) (hoffset : offset ≤ b.size) (hlt : floor < offset)
    (h : b.previous offset floor = .error e) :
    ∃ x, e = .scan x ∧ x.kind = .invalidCharacter ∧ floor ≤ x.position ∧ x.position < offset := by
  obtain ⟨o, f, rfl, rfl⟩ := exists_natCast hfloor hlt
  rw [previous_eq_error_iff, measureBack, room_natCast, Except.mapError_eq_error_iff] at h
  obtain ⟨fault, hfault, rfl⟩ := h
  cases Sequence.measureBack_fault (b.length_behind (by omega)) hfault with
  | exhausted hroom => omega
  | @malformed displacement reason hroom hneg =>
      refine ⟨.malformed (o + displacement) reason, rfl, rfl, ?_, ?_⟩
      · show (f : Int) ≤ o + displacement
        omega
      · show (o : Int) + displacement < o
        omega

/-- **A step back is the exact partial inverse of a step forward.**  It returns the offset from
which a step forward leads to where it began, if there is one at the floor or above, and there is
never more than one.  Otherwise it fails: for want of room if it began at the floor or below it, and
else at a byte between the floor and its offset that is not well formed. -/
theorem previous_iff_next (b : Buffer) (hfloor : 0 ≤ floor) (hoffset : offset ≤ b.size) :
    (∀ first, b.previous offset floor = .ok first ↔ b.Precedes first offset floor) ∧
      (∀ first first', b.Precedes first offset floor → b.Precedes first' offset floor →
        first = first') ∧
      (offset ≤ floor → b.previous offset floor = .error (.scan (.underflow floor)) ∧
        (ScanError.underflow floor).kind = .overflow) ∧
      (floor < offset → (¬ ∃ first, b.Precedes first offset floor) →
        ∃ x, b.previous offset floor = .error (.scan x) ∧ x.kind = .invalidCharacter ∧
          floor ≤ x.position ∧ x.position < offset) := by
  refine ⟨fun first => previous_eq_ok_iff_precedes hfloor hoffset,
    fun first first' h h' => h.unique hfloor hoffset h', ?_, ?_⟩
  · intro hle
    exact ⟨b.previous_of_le hle, rfl⟩
  · intro hlt hnone
    cases hprevious : b.previous offset floor with
    | ok first =>
        exact absurd ⟨first, (previous_eq_ok_iff_precedes hfloor hoffset).mp hprevious⟩ hnone
    | error e =>
        obtain ⟨x, rfl, hkind, hle, hposition⟩ := previous_error hfloor hoffset hlt hprevious
        exact ⟨x, rfl, hkind, hle, hposition⟩

/-- A sequence of two bytes with stray continuation bytes around it: it precedes its end, and
nothing precedes the offset behind that. -/
theorem previous_iff_next_stray :
    let b : Buffer := .ofList [0x80, 0xC3, 0xA9, 0x80]
    (0 ≤ (1 : Int) ∧ (3 : Int) ≤ b.size ∧ (4 : Int) ≤ b.size ∧ b.Precedes 1 3 1) ∧
      b.previous 3 1 = .ok 1 ∧
      b.previous 1 1 = .error (.scan (.underflow 1)) ∧
      ∃ x, b.previous 4 1 = .error (.scan x) ∧ x.kind = .invalidCharacter ∧
        1 ≤ x.position ∧ x.position < 4 := by
  intro b
  have hthree : (3 : Int) ≤ b.size := by decide
  have hfour : (4 : Int) ≤ b.size := by decide
  have hprecedes : b.Precedes 1 3 1 := ⟨by decide, by decide, by decide⟩
  have hmismatch : b.previous 4 1 = .error (.scan (.malformed 1 .widthMismatch)) := by decide
  have hfloor : 0 ≤ (1 : Int) := by decide
  obtain ⟨hfinds, _, _, _⟩ := previous_iff_next b hfloor hthree
  obtain ⟨_, _, hends, _⟩ := previous_iff_next b hfloor (show (1 : Int) ≤ b.size by decide)
  obtain ⟨hiff, _, _, hfails⟩ := previous_iff_next b hfloor hfour
  refine ⟨⟨hfloor, hthree, hfour, hprecedes⟩, (hfinds 1).mpr hprecedes, (hends (by decide)).1,
    hfails (by decide) ?_⟩
  intro h
  obtain ⟨first, hfirst⟩ := h
  exact absurd (((hiff first).mpr hfirst).symm.trans hmismatch) nofun

end Utf8Scan.Buffer
