/-
Commands on a part of a buffer.

`run_lockstep` compares every command that is about its window with the same command on
the part by itself, its offsets taken from the start of the part.  Values are the same
but for offsets and scanners, which `Tells` moves.

Two commands are not about the window.  The whole buffer is what one of them asks for,
and the other counts lines from the start of it.
-/
import Utf8Scan.Proofs.Command
import Utf8Scan.Proofs.ExcerptOperation

namespace Utf8Scan

namespace Command

/-- The command on the part that starts at `base`. -/
def relative (base : Nat) : Command → Command
  | restore mark => restore (mark - base)
  | subScanner first last => subScanner (first - base) (last - base)
  | c => c

/-- A command that has to do with nothing outside the window. -/
def Windowed : Command → Prop
  | buffer | lineColumn _ => False
  | _ => True

/-- An error that a caller's test or the classifier has raised. -/
def Own (k : Classifier) (c : Command) (e : Error) : Prop :=
  (∃ test ∈ c.test?, ∃ char, test char = .error e) ∨
    ∃ property ∈ c.property?, ∃ char, k.test property char = .error e

theorem raisesOnly_of_test {k : Classifier} {c : Command} {test : CharTest} (h : test ∈ c.test?) :
    test.RaisesOnly (c.Own k) := fun char _ he => Or.inl ⟨test, h, char, he⟩

theorem raisesOnly_of_property {k : Classifier} {c : Command} {property : Property}
    (h : property ∈ c.property?) : CharTest.RaisesOnly (k.test property) (c.Own k) :=
  fun char _ he => Or.inr ⟨property, h, char, he⟩

/-- Whether the value of a command says where the window or the cursor is. -/
def tellsPlace : Command → Bool
  | start | stop | position | describe => true
  | _ => false

end Command

namespace Excerpt

open Scan

variable {x : Excerpt} {t : Scanner} {own : Error → Prop} {c : Command} {α : Type}

/-- What a command on the whole buffer returns, beside what it returns on the part. -/
inductive Tells (x : Excerpt) : Command → Value → Value → Prop
  | start (n : Nat) : Tells x .start (.number (x.base + n)) (.number n)
  | stop (n : Nat) : Tells x .stop (.number (x.base + n)) (.number n)
  | position (n : Nat) : Tells x .position (.number (x.base + n)) (.number n)
  /-- A line that shows the same text at offsets that are moved. -/
  | describe {t : Scanner} (h : (x.embed t).preview = t.preview) :
      Tells x .describe (.text (x.embed t).describe) (.text t.describe)
  | scanner {c : Command} (t : Scanner) : Tells x c (.scanner (x.embed t)) (.scanner t)
  | same {c : Command} {value : Value} (hplace : c.tellsPlace = false)
      (hscanner : ∀ t, value ≠ .scanner t) : Tells x c value value

/-! ### Commands by what they return -/

/-- A question that has an answer in every state. -/
theorem reading_lockstep (value : Scanner → Value)
    (h : x.Tells c (value (x.embed t)) (value t)) :
    x.Lockstep own (x.Tells c) (query (fun s => .ok (value s)) (x.embed t))
      (query (fun s => .ok (value s)) t) := .query (.ok h)

theorem question_lockstep {f : Scanner → Except Error α} {value : α → Value}
    (h : x.Agree own Eq (f (x.embed t)) (f t)) (hplace : c.tellsPlace = false)
    (hscanner : ∀ a t, value a ≠ .scanner t) :
    x.Lockstep own (x.Tells c) (query (fun s => (f s).map value) (x.embed t))
      (query (fun s => (f s).map value) t) := by
  refine .query (h.map ?_)
  rintro a _ _ rfl
  exact .same hplace (hscanner a)

theorem value_lockstep {program program' : Scan α} {value : α → Value}
    (h : x.Lockstep own Eq (program (x.embed t)) (program' t)) (hplace : c.tellsPlace = false)
    (hscanner : ∀ a t, value a ≠ .scanner t) :
    x.Lockstep own (x.Tells c) ((do return value (← program) : Scan Value) (x.embed t))
      ((do return value (← program') : Scan Value) t) := by
  refine h.returning ?_
  rintro a _ rfl
  exact .same hplace (hscanner a)

theorem view_lockstep {program : Scan Scanner}
    (h : x.Lockstep own x.Image (program (x.embed t)) (program t)) :
    x.Lockstep own (x.Tells c) ((do return .scanner (← program) : Scan Value) (x.embed t))
      ((do return .scanner (← program) : Scan Value) t) := by
  refine h.returning ?_
  rintro _ u rfl
  exact .scanner u

/-- A set that is none is refused without regard to the text. -/
theorem resolve_shift {source : CharSource} {e : Error} (h : source.resolve = .error e) :
    e.shift x.base = e := by
  have hsingles : ∀ (items : List String) (a : ArgumentError), CharSet.ofSingles items = .error a →
      a.shift x.base = a := by
    intro items
    induction items with
    | nil => nofun
    | cons item rest ih =>
        intro a ha
        unfold CharSet.ofSingles at ha
        split at ha
        · cases ha
          rfl
        · exact ih a (Except.map_eq_error_iff.mp ha)
  cases source with
  | characters => cases h
  | items => cases h
  | singles items =>
      obtain ⟨a, ha, rfl⟩ := Except.mapError_eq_error_iff.mp h
      exact congrArg Error.argument (hsingles items a ha)

theorem withChars_lockstep {source : CharSource} {operation : CharSet → Scan α}
    {V : α → α → Prop}
    (h : ∀ set, x.Lockstep own V (operation set (x.embed t)) (operation set t)) :
    x.Lockstep own V (Command.withChars source operation (x.embed t))
      (Command.withChars source operation t) := by
  have hquery : x.Lockstep own Eq (query (fun _ => source.resolve) (x.embed t))
      (query (fun _ => source.resolve) t) := .query (agree_self fun _ => resolve_shift)
  refine hquery.bind ?_
  rintro set _ left hrun rfl
  obtain rfl : t = left := by
    unfold query at hrun
    cases hset : source.resolve with
    | error e => rw [hset] at hrun; cases hrun
    | ok set => rw [hset] at hrun; cases hrun; rfl
  exact h set

/-! ### Offsets from the start of the part -/

theorem restore_relative (h : x.Has t) (mark : Int) :
    x.Lockstep own Eq (restore mark (x.embed t)) (restore (mark - x.base) t) := by
  have hrestore : x.Lockstep own Eq _ _ := restore_lockstep h (mark - x.base)
  rwa [show (x.base : Int) + (mark - x.base) = mark by omega] at hrestore

theorem subScanner_relative (h : x.Has t) (first last : Int) :
    x.Agree own x.Image ((x.embed t).subScanner first last)
      (t.subScanner (first - x.base) (last - x.base)) := by
  have hagree : x.Agree own x.Image _ _ := subScanner_agree h (first - x.base) (last - x.base)
  rwa [show (x.base : Int) + (first - x.base) = first by omega,
    show (x.base : Int) + (last - x.base) = last by omega] at hagree

/-! ### All commands -/

/-- **A command on a window does what it does on the bytes of the window by themselves**, with all
offsets moved by where the window starts. -/
theorem run_lockstep (h : x.Has t) (hc : c.Windowed) :
    x.Lockstep (c.Own t.classifier) (x.Tells c) (c.run (x.embed t))
      ((c.relative x.base).run t) := by
  have hequals (text : String) {own : Error → Prop} : (CharTest.equals text).RaisesOnly own :=
    (CharTest.equals_total text).raisesOnly own
  have hinSet (set : CharSet) {own : Error → Prop} : (CharTest.inSet set).RaisesOnly own :=
    (CharTest.inSet_total set).raisesOnly own
  cases c with
  | buffer => exact hc.elim
  | lineColumn => exact hc.elim
  | start => exact reading_lockstep (fun s => .number s.start) (.start t.start)
  | stop => exact reading_lockstep (fun s => .number s.stop) (.stop t.stop)
  | position => exact reading_lockstep (fun s => .number s.pos) (.position t.pos)
  | describe => exact reading_lockstep (fun s => .text s.describe) (.describe (preview_embed h))
  | byteCount =>
      have hcount : (x.embed t).byteCount = t.byteCount := Nat.add_sub_add_left ..
      refine reading_lockstep (fun s => .number s.byteCount) ?_
      rw [hcount]
      exact .same rfl nofun
  | remaining =>
      have hcount : (x.embed t).remaining = t.remaining := Nat.add_sub_add_left ..
      refine reading_lockstep (fun s => .number s.remaining) ?_
      rw [hcount]
      exact .same rfl nofun
  | atEnd =>
      refine reading_lockstep (fun s => .bool s.atEnd) ?_
      rw [atEnd_embed]
      exact .same rfl nofun
  | text => exact question_lockstep (text_agree h h.stop_le) rfl nofun
  | peek => exact question_lockstep (peek_agree h) rfl nofun
  | current =>
      refine question_lockstep ?_ rfl nofun
      unfold Scanner.current
      rw [atEnd_embed]
      by_cases hend : t.atEnd
      · rw [if_pos hend, if_pos hend]
        exact .ok rfl
      · rw [if_neg hend, if_neg hend]
        exact peek_agree h
  | characters =>
      exact question_lockstep (.of_tell (charactersFrom_embed h t.pos) fun _ _ => rfl) rfl nofun
  | subScanner first last =>
      show x.Lockstep _ _ (query (fun s => (s.subScanner first last).map Value.scanner) _)
        (query (fun s => (s.subScanner (first - x.base) (last - x.base)).map Value.scanner) _)
      refine .query ((subScanner_relative h first last).map ?_)
      rintro _ u _ rfl
      exact .scanner u
  | restore mark => exact value_lockstep (restore_relative h mark) rfl nofun
  | character => exact value_lockstep (character_lockstep h) rfl nofun
  | readCount count => exact value_lockstep (readCount_lockstep h count) rfl nofun
  | advance count => exact value_lockstep (advance_lockstep h count) rfl nofun
  | retreat count => exact value_lockstep (retreat_lockstep h count) rfl nofun
  | reset => exact value_lockstep reset_lockstep rfl nofun
  | matchChar text => exact value_lockstep (matchTest_lockstep h (hequals text)) rfl nofun
  | matchAny source =>
      refine value_lockstep (withChars_lockstep fun set => ?_) rfl nofun
      exact matchTest_lockstep h (hinSet set)
  | matchString text => exact value_lockstep (matchString_lockstep h text) rfl nofun
  | expectChar text => exact value_lockstep (expectChar_lockstep h text) rfl nofun
  | expectString text => exact value_lockstep (expectString_lockstep h text) rfl nofun
  | readUntilChar text required =>
      exact view_lockstep (readUntil_lockstep h (hequals text) (.text text) required)
  | readUntilSet source required =>
      refine view_lockstep (withChars_lockstep fun set => ?_)
      exact readUntil_lockstep h (hinSet set) .charSet required
  | readUntilTest test required =>
      exact view_lockstep
        (readUntil_lockstep h (Command.raisesOnly_of_test rfl) .test required)
  | readUntilString text required => exact view_lockstep (readUntilString_lockstep h text required)
  | readToEnd => exact view_lockstep readToEnd_lockstep
  | readWhileChar text => exact value_lockstep (countWhile_lockstep h (hequals text)) rfl nofun
  | readWhileSet source =>
      refine view_lockstep (withChars_lockstep fun set => ?_)
      exact readWhile_lockstep h (hinSet set)
  | readWhileTest test =>
      exact view_lockstep (readWhile_lockstep h (Command.raisesOnly_of_test rfl))
  | skipWhitespace =>
      exact value_lockstep (countWhile_lockstep h (Command.raisesOnly_of_property rfl)) rfl nofun
  | readLine required =>
      exact view_lockstep (readLine_lockstep h (Command.raisesOnly_of_property rfl) required)

end Excerpt

end Utf8Scan
