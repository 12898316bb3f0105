/-
Operations on a part of a buffer.

An operation is run on a scanner for the part and on its image in the whole buffer.
`Lockstep` says that the two runs come to the same: values that go together or errors
that do, and scanners of which one is the image of the other again.  So programs are
compared part by part, and a program of several parts needs only to know that the
scanner between them still lies in the part.
-/
import Utf8Scan.Proofs.ExcerptReading

namespace Utf8Scan.Excerpt

open Scan

variable {x : Excerpt} {t : Scanner} {own : Error → Prop} {α β : Type}

/-- Two runs side by side, on the whole buffer and on the part. -/
inductive Lockstep (x : Excerpt) (own : Error → Prop) (V : α → α → Prop) :
    EStateM.Result Error Scanner α → EStateM.Result Error Scanner α → Prop
  | ok {a a' : α} {left : Scanner} (h : V a a') :
      Lockstep x own V (.ok a (x.embed left)) (.ok a' left)
  | error {e e' : Error} {left : Scanner} (h : e.Follows x.base own e') :
      Lockstep x own V (.error e (x.embed left)) (.error e' left)

/-- The one scanner is the other at its place in the whole buffer. -/
def Image (x : Excerpt) (u u' : Scanner) : Prop := u = x.embed u'

namespace Lockstep

variable {V : α → α → Prop} {W : β → β → Prop} {program program' : Scan α}

theorem step {f f' : Scanner → Except Error (α × Nat)}
    (h : x.Agree own (x.Moved V) (f (x.embed t)) (f' t)) :
    x.Lockstep own V (Scan.step f (x.embed t)) (Scan.step f' t) := by
  unfold Scan.step
  generalize f (x.embed t) = r at h
  generalize f' t = r' at h
  cases h with
  | error h => exact .error h
  | @ok r r' h =>
      obtain ⟨value, pos⟩ := r
      obtain ⟨value', pos'⟩ := r'
      obtain ⟨hvalue, rfl⟩ : V value value' ∧ pos = x.base + pos' := h
      have hok : x.Lockstep own V (.ok value (x.embed { t with pos := pos' }))
          (.ok value' { t with pos := pos' }) := .ok hvalue
      exact hok

theorem query {f f' : Scanner → Except Error α} (h : x.Agree own V (f (x.embed t)) (f' t)) :
    x.Lockstep own V (Scan.query f (x.embed t)) (Scan.query f' t) := by
  unfold Scan.query
  generalize f (x.embed t) = r at h
  generalize f' t = r' at h
  cases h with
  | error h => exact .error h
  | ok h => exact .ok h

theorem bind {next next' : α → Scan β}
    (h : x.Lockstep own V (program (x.embed t)) (program' t))
    (hnext : ∀ a a' left, program' t = .ok a' left → V a a' →
      x.Lockstep own W (next a (x.embed left)) (next' a' left)) :
    x.Lockstep own W ((program >>= next) (x.embed t)) ((program' >>= next') t) := by
  generalize hr : program (x.embed t) = r at h
  generalize hr' : program' t = r' at h
  cases h with
  | ok h =>
      rw [bind_of_ok hr, bind_of_ok hr']
      exact hnext _ _ _ hr' h
  | error h =>
      rw [bind_of_error hr, bind_of_error hr']
      exact .error h

theorem returning {f f' : α → β} (h : x.Lockstep own V (program (x.embed t)) (program' t))
    (hf : ∀ a a', V a a' → W (f a) (f' a')) :
    x.Lockstep own W ((do return f (← program)) (x.embed t)) ((do return f' (← program')) t) :=
  h.bind fun a a' _ _ hvalue => .ok (hf a a' hvalue)

/-- Only errors of scanning put the cursor back, and moving their offsets keeps them such. -/
theorem backtrack (h : x.Lockstep own V (program (x.embed t)) (program' t)) :
    x.Lockstep own V (Scan.backtrack program (x.embed t)) (Scan.backtrack program' t) := by
  unfold Scan.backtrack
  generalize program (x.embed t) = r at h
  generalize program' t = r' at h
  cases h with
  | ok h => exact .ok h
  | @error e e' left h =>
      have herror : ∀ left' : Scanner,
          x.Lockstep own V (.error e (x.embed left')) (.error e' left') := fun _ => .error h
      cases h with
      | shift =>
          cases e' with
          | scan => exact herror { left with pos := t.pos }
          | _ => exact herror left
      | own =>
          cases e with
          | scan => exact herror { left with pos := t.pos }
          | _ => exact herror left

end Lockstep

/-- An operation does not lead out of the part. -/
theorem Has.left {program : Scan α} {V : α → Nat → Prop} {E : Error → Prop} {a : α}
    {left : Scanner}
    (h : x.Has t) (houtcome : Outcome program t V E) (hV : ∀ a pos, V a pos → t.Visits pos)
    (hrun : program t = .ok a left) : x.Has left := by
  cases houtcome with
  | raises run => exact absurd (run.symm.trans hrun) nofun
  | returns run value =>
      obtain ⟨rfl, rfl⟩ := EStateM.Result.ok.inj (run.symm.trans hrun)
      exact ⟨h.buffer, h.inside.move (hV _ _ value)⟩

/-! ### Readings at the cursor -/

theorem decode_agree (h : x.Has t) :
    x.Agree own Eq ((x.embed t).decodeAt (x.embed t).pos) (t.decodeAt t.pos) :=
  .of_tell (decodeAt_embed h t.pos) fun _ _ => rfl

theorem peek_agree (h : x.Has t) : x.Agree own Eq (x.embed t).peek t.peek :=
  (decode_agree h).map fun _ _ _ heq => congrArg Prod.fst heq

theorem skip_agree (h : x.Has t) (n : Nat) :
    x.Agree own (fun o o' => o = x.base + o') ((x.embed t).skip n (x.embed t).pos)
      (t.skip n t.pos) :=
  .of_tell (skip_embed h n t.pos) fun _ _ => rfl

theorem text_agree (h : x.Has t) {first last : Nat} (hlast : last ≤ x.length) :
    x.Agree own Eq ((x.embed t).textBetween (x.base + first) (x.base + last))
      (t.textBetween first last) :=
  .of_tell (textBetween_embed h hlast first) fun _ _ => rfl

theorem atEnd_embed (x : Excerpt) (t : Scanner) : (x.embed t).atEnd = t.atEnd := by
  rw [Bool.eq_iff_iff]
  show (x.base + t.pos == x.base + t.stop) = true ↔ (t.pos == t.stop) = true
  rw [beq_iff_eq, beq_iff_eq, Nat.add_left_cancel_iff]

/-- Characters that were skipped lie in the part. -/
theorem skip_le (h : x.Has t) {n after : Nat} (hskip : t.skip n t.pos = .ok after) :
    after ≤ x.length :=
  Nat.le_trans (t.skip_le h.inside.pos_le_stop hskip) h.stop_le

/-- An error that names no offset is told as it is. -/
theorem agree_self {r : Except Error α} (h : ∀ e, r = .error e → e.shift x.base = e) :
    x.Agree own Eq r r := by
  cases r with
  | ok a => exact .ok rfl
  | error e =>
      have herror : (e.shift x.base).Follows x.base own e := .shift e
      rw [h e rfl] at herror
      exact .error herror

/-! ### Moves -/

theorem character_lockstep (h : x.Has t) :
    x.Lockstep own Eq (character (x.embed t)) (character t) := by
  refine .step ((decode_agree h).map ?_)
  rintro _ ⟨c, width⟩ _ rfl
  exact ⟨rfl, Nat.add_assoc ..⟩

theorem checkedCount_agree (count : Int) :
    x.Agree own Eq (checkedCount count) (checkedCount count) := by
  refine agree_self fun e he => ?_
  obtain ⟨_, rfl⟩ := checkedCount_eq_error he
  rfl

theorem advance_lockstep (h : x.Has t) (count : Int) :
    x.Lockstep own Eq (advance count (x.embed t)) (advance count t) := by
  refine .step ((checkedCount_agree count).bind ?_)
  rintro n _ _ rfl
  refine (skip_agree h n).bind ?_
  rintro _ after _ rfl
  exact .ok ⟨rfl, rfl⟩

theorem retreat_lockstep (h : x.Has t) (count : Int) :
    x.Lockstep own Eq (retreat count (x.embed t)) (retreat count t) := by
  have hpos : t.pos ≤ x.length := Nat.le_trans h.inside.pos_le_stop h.stop_le
  refine .step ?_
  by_cases hneg : count < 0
  · rw [if_pos hneg, if_pos hneg]
    exact .error (.shift (.argument (.negativeRetreat count)))
  · rw [if_neg hneg, if_neg hneg]
    refine Agree.map (V := fun o o' => o = x.base + o') ?_ ?_
    · exact .of_tell (skipBack_embed h count.toNat hpos) fun _ _ => rfl
    · rintro _ before _ rfl
      exact ⟨rfl, rfl⟩

theorem readCount_lockstep (h : x.Has t) (count : Int) :
    x.Lockstep own Eq (readCount count (x.embed t)) (readCount count t) := by
  refine .step ((checkedCount_agree count).bind ?_)
  rintro n _ _ rfl
  refine (skip_agree h n).bind ?_
  rintro _ after hskip rfl
  refine (text_agree h (skip_le h hskip)).bind ?_
  rintro text _ _ rfl
  exact .ok ⟨rfl, rfl⟩

theorem reset_lockstep : x.Lockstep own Eq (reset (x.embed t)) (reset t) :=
  .step (.ok ⟨rfl, rfl⟩)

/-! ### Offsets that a caller gives -/

/-- An integer of the window is a boundary on both sides or on neither. -/
theorem isBoundary_embed (h : x.Has t) {mark : Int} (hstart : t.start ≤ mark)
    (hstop : mark ≤ t.stop) :
    x.whole.isBoundary (x.base + mark) = t.buffer.isBoundary mark := by
  obtain ⟨o, rfl⟩ := Int.eq_ofNat_of_zero_le (Int.le_trans (Int.natCast_nonneg _) hstart)
  have hle : o ≤ x.length := Nat.le_trans (Int.ofNat_le.mp hstop) h.stop_le
  rw [h.buffer]
  exact isBoundary_part hle

theorem restore_lockstep (h : x.Has t) (mark : Int) :
    x.Lockstep own Eq (restore (x.base + mark) (x.embed t)) (restore mark t) := by
  refine .step ?_
  show x.Agree own _
    (if ((x.base + t.start : Nat) : Int) ≤ x.base + mark ∧ x.base + mark ≤ (x.base + t.stop : Nat)
      ∧ x.whole.isBoundary (x.base + mark) then _ else _) _
  by_cases hin : t.start ≤ mark ∧ mark ≤ t.stop
  · obtain ⟨hstart, hstop⟩ := hin
    by_cases hboundary : t.buffer.isBoundary mark = true
    · have hwhole := (isBoundary_embed h hstart hstop).trans hboundary
      rw [if_pos ⟨by omega, by omega, hwhole⟩, if_pos ⟨hstart, hstop, hboundary⟩]
      exact .ok ⟨rfl, by omega⟩
    · rw [if_neg, if_neg fun hall => hboundary hall.2.2]
      · exact .error (.shift (.argument (.unusableMark mark t.start t.stop)))
      · rintro ⟨_, _, hwhole⟩
        exact hboundary ((isBoundary_embed h hstart hstop).symm.trans hwhole)
  · rw [if_neg fun hall => hin ⟨by omega, by omega⟩, if_neg fun hall => hin ⟨hall.1, hall.2.1⟩]
    exact .error (.shift (.argument (.unusableMark mark t.start t.stop)))

theorem subScanner_agree (h : x.Has t) (first last : Int) :
    x.Agree own x.Image ((x.embed t).subScanner (x.base + first) (x.base + last))
      (t.subScanner first last) := by
  unfold Scanner.subScanner
  show x.Agree own _
    (if ¬ (((x.base + t.start : Nat) : Int) ≤ x.base + first ∧ x.base + first ≤ x.base + last
      ∧ x.base + last ≤ (x.base + t.stop : Nat)) then _
    else if !x.whole.isBoundary (x.base + first) then _
    else if !x.whole.isBoundary (x.base + last) then _ else _) _
  by_cases hrange : t.start ≤ first ∧ first ≤ last ∧ last ≤ t.stop
  · have hfirst := isBoundary_embed h hrange.1 (Int.le_trans hrange.2.1 hrange.2.2)
    have hlast := isBoundary_embed h (Int.le_trans hrange.1 hrange.2.1) hrange.2.2
    rw [if_neg (not_not_intro ⟨by omega, by omega, by omega⟩), if_neg (not_not_intro hrange),
      hfirst, hlast]
    cases t.buffer.isBoundary first with
    | false => exact .error (.shift (.argument (.startInsideCharacter first)))
    | true =>
        cases t.buffer.isBoundary last with
        | false => exact .error (.shift (.argument (.stopInsideCharacter last)))
        | true =>
            refine .ok ?_
            have hstart : (x.base + first).toNat = x.base + first.toNat := by omega
            have hstop : (x.base + last).toNat = x.base + last.toNat := by omega
            show (x.embed t).view _ _
              = (x.embed t).view (x.base + first.toNat) (x.base + last.toNat)
            rw [hstart, hstop]
  · rw [if_pos fun hall => hrange ⟨by omega, by omega, by omega⟩, if_pos hrange]
    exact .error (.shift (.argument (.outsideWindow first last t.start t.stop)))

/-! ### Matches -/

theorem matchTest_lockstep (h : x.Has t) {test : CharTest} (htest : test.RaisesOnly own) :
    x.Lockstep own Eq (matchTest test (x.embed t)) (matchTest test t) := by
  have hdecode : (x.embed t).decodeAt (x.embed t).pos = x.tell id (t.decodeAt t.pos) :=
    decodeAt_embed h t.pos
  refine .step ?_
  rw [hdecode]
  cases t.decodeAt t.pos with
  | error e => exact .error (.shift e)
  | ok found =>
      obtain ⟨c, width⟩ := found
      show x.Agree own _ ((test c).map _) ((test c).map _)
      cases hanswer : test c with
      | error e => exact .error (.own (htest c e hanswer))
      | ok answer =>
          cases answer with
          | true => exact .ok ⟨rfl, Nat.add_assoc ..⟩
          | false => exact .ok ⟨rfl, rfl⟩

/-- The bytes of a text lie at the cursor on both sides or on neither, if they fit. -/
theorem holdsAt_embed (h : x.Has t) (bytes : List UInt8) {after : Nat} (hafter : after ≤ x.length) :
    (x.base + after = x.base + t.pos + bytes.length ∧
        x.whole.holdsAt (x.base + t.pos) bytes = true) ↔
      (after = t.pos + bytes.length ∧ t.buffer.holdsAt t.pos bytes = true) := by
  rw [h.buffer, Nat.add_assoc, Nat.add_left_cancel_iff]
  refine and_congr_right fun heq => ?_
  rw [holdsAt_part (heq ▸ hafter)]

theorem matchString_lockstep (h : x.Has t) (text : String) :
    x.Lockstep own Eq (matchString text (x.embed t)) (matchString text t) := by
  refine .step ?_
  by_cases hempty : text = ""
  · rw [if_pos hempty, if_pos hempty]
    exact .error (.shift (.scan (.emptyTarget "match_string")))
  rw [if_neg hempty, if_neg hempty]
  refine (skip_agree h text.length).map ?_
  rintro _ after hskip rfl
  have hholds := holdsAt_embed h (encoded text) (skip_le h hskip)
  show x.Moved Eq
    (if x.base + after = x.base + t.pos + _ ∧ x.whole.holdsAt (x.base + t.pos) _ then _ else _) _
  by_cases hmatch : after = t.pos + (encoded text).length ∧ t.buffer.holdsAt t.pos (encoded text)
  · rw [if_pos (hholds.mpr hmatch), if_pos hmatch]
    exact ⟨rfl, rfl⟩
  · rw [if_neg fun hwhole => hmatch (hholds.mp hwhole), if_neg hmatch]
    exact ⟨rfl, rfl⟩

/-- Both sides show what they found, and say where. -/
theorem throw_found_lockstep {peek : Scanner → Except Error α}
    (hpeek : x.Agree own Eq (peek (x.embed t)) (peek t)) (expected : String)
    (found : α → String) :
    let program : Scan Unit := do
      let s ← get
      let a ← query peek
      throw (.scan (.unexpected expected (found a) s.pos))
    x.Lockstep own Eq (program (x.embed t)) (program t) := by
  intro program
  show x.Lockstep own Eq ((query peek >>= _) (x.embed t)) ((query peek >>= _) t)
  refine (Lockstep.query hpeek).bind ?_
  rintro a _ left _ rfl
  exact .error (.shift (.scan (.unexpected expected (found a) t.pos)))

theorem expectChar_lockstep (h : x.Has t) (text : String) :
    x.Lockstep own Eq (expectChar text (x.embed t)) (expectChar text t) := by
  have htest := (CharTest.equals_total text).raisesOnly own
  refine (matchTest_lockstep h htest).bind ?_
  rintro passed _ left hrun rfl
  have hleft := h.left (matchChar_outcome h.inside text) (fun _ _ hv => hv.1) hrun
  cases passed with
  | true => exact .ok rfl
  | false => exact throw_found_lockstep (peek_agree hleft) text String.singleton

theorem expectString_lockstep (h : x.Has t) (text : String) :
    x.Lockstep own Eq (expectString text (x.embed t)) (expectString text t) := by
  refine (matchString_lockstep h text).bind ?_
  rintro passed _ left hrun rfl
  have hleft := h.left (matchString_outcome h.inside text) (fun _ _ hv => hv.1) hrun
  cases passed with
  | true => exact .ok rfl
  | false =>
      refine throw_found_lockstep ?_ text id
      refine (skip_agree hleft text.length).bind ?_
      rintro _ after hskip rfl
      exact text_agree hleft (skip_le hleft hskip)

/-! ### Searches -/

theorem finish_agree (target : Target) (required : Bool) (found? : Option Nat) :
    x.Agree own (x.Moved x.Image)
      ((x.embed t).finish target required (found?.map (x.base + ·)))
      (t.finish target required found?) := by
  cases found? with
  | some found => exact .ok ⟨rfl, rfl⟩
  | none =>
      cases required with
      | true => exact .error (.shift (.scan (.notFound target t.pos)))
      | false => exact .ok ⟨rfl, rfl⟩

theorem readUntil_lockstep (h : x.Has t) {test : CharTest} (htest : test.RaisesOnly own)
    (target : Target) (required : Bool) :
    x.Lockstep own x.Image (readUntil test target required (x.embed t))
      (readUntil test target required t) := by
  refine .step ((seek_embed h htest t.pos).bind ?_)
  rintro _ found? _ rfl
  exact finish_agree target required found?

theorem readUntilString_lockstep (h : x.Has t) (text : String) (required : Bool) :
    x.Lockstep own x.Image (readUntilString text required (x.embed t))
      (readUntilString text required t) := by
  have hfind : x.whole.find? (encoded text) (x.base + t.pos) (x.base + t.stop)
      = (t.buffer.find? (encoded text) t.pos t.stop).map (x.base + ·) := by
    rw [h.buffer]
    exact find?_part h.stop_le
  refine .step ?_
  by_cases hempty : text = ""
  · rw [if_pos hempty, if_pos hempty]
    exact .error (.shift (.scan (.emptyTarget "read_until_string")))
  · rw [if_neg hempty, if_neg hempty]
    show x.Agree own _
      ((x.embed t).finish _ _ (x.whole.find? _ (x.base + t.pos) (x.base + t.stop))) _
    rw [hfind]
    exact finish_agree (.text text) required _

theorem readToEnd_lockstep : x.Lockstep own x.Image (readToEnd (x.embed t)) (readToEnd t) :=
  .step (.ok ⟨rfl, rfl⟩)

theorem countWhile_lockstep (h : x.Has t) {test : CharTest} (htest : test.RaisesOnly own) :
    x.Lockstep own Eq (countWhile test (x.embed t)) (countWhile test t) :=
  .step (tally_embed h htest t.pos 0)

theorem readWhile_lockstep (h : x.Has t) {test : CharTest} (htest : test.RaisesOnly own) :
    x.Lockstep own x.Image (readWhile test (x.embed t)) (readWhile test t) := by
  refine .step ((pass_embed h htest t.pos).map ?_)
  rintro _ after _ rfl
  exact ⟨rfl, rfl⟩

/-! ### Lines -/

theorem lineEnd_lockstep (h : x.Has t) :
    x.Lockstep own Eq (lineEnd (x.embed t)) (lineEnd t) := by
  unfold lineEnd
  rw [get_bind, get_bind, atEnd_embed]
  by_cases hend : t.atEnd
  · rw [if_pos hend]
    exact .ok rfl
  rw [if_neg hend]
  refine (character_lockstep h).bind ?_
  rintro first _ left hrun rfl
  have hleft := h.left (character_outcome h.inside) (fun _ _ hv => hv) hrun
  by_cases hcr : first = '\r'
  · rw [if_pos hcr, get_bind, get_bind, atEnd_embed]
    by_cases hend' : left.atEnd
    · rw [if_pos hend']
      exact .ok rfl
    · rw [if_neg hend']
      exact (matchTest_lockstep hleft ((CharTest.equals_total "\n").raisesOnly own)).bind
        fun _ _ _ _ _ => .ok rfl
  · rw [if_neg hcr]
    exact .ok rfl

theorem readLine_lockstep (h : x.Has t)
    (htest : CharTest.RaisesOnly (t.classifier.test .newline) own) (required : Bool) :
    x.Lockstep own x.Image (readLine required (x.embed t)) (readLine required t) := by
  refine Lockstep.backtrack ?_
  rw [get_bind, get_bind]
  refine (readUntil_lockstep h htest .test required).bind ?_
  intro line line' left hrun hline
  have hleft := h.left (readUntil_view h.inside _ .test required) (fun _ _ hv => hv.1) hrun
  exact (lineEnd_lockstep hleft).bind fun _ _ _ _ _ => .ok hline

end Utf8Scan.Excerpt
