/-
Whole sessions on a part of a buffer.

A program is run twice: on a scanner for a window, and on a scanner for the bytes of the
window by themselves.  `Mirrors` relates the two sessions, `Alike` the answers of one step.
A step keeps the one and gives the other, so a program can come by nothing that lies
outside the window, whatever it cuts out of it on the way.
-/
import Utf8Scan.Proofs.ExcerptCommand
import Utf8Scan.Proofs.Session

namespace Utf8Scan

/-! ### Programs on a window -/

namespace Step

mutual

/-- The step on the part that starts at `base`. -/
def relative (base : Nat) : Step → Step
  | .call on keep? command => .call on keep? (command.relative base)
  | .sameBuffer on other => .sameBuffer on other
  | .inquire on inquiry => .inquire on inquiry
  | .block on steps => .block on (relatives base steps)

def relatives (base : Nat) : List Step → List Step
  | [] => []
  | first :: rest => first.relative base :: relatives base rest

end

/-- A step that has to do with nothing outside the window.  The place of an error is a line of the
whole buffer, so to explain one is not such a step. -/
inductive Windowed : Step → Prop
  | call {on : String} {keep? : Option String} {c : Command} (h : c.Windowed) :
      Windowed (.call on keep? c)
  | sameBuffer (on other : String) : Windowed (.sameBuffer on other)
  | block {on : String} {steps : List Step} (h : ∀ st ∈ steps, Windowed st) :
      Windowed (.block on steps)

/-- An error that a test of the step or the classifier has raised. -/
inductive Own (k : Classifier) : Step → Error → Prop
  | call {on : String} {keep? : Option String} {c : Command} {e : Error} (h : c.Own k e) :
      Own k (.call on keep? c) e
  | block {on : String} {steps : List Step} {st : Step} {e : Error} (hst : st ∈ steps)
      (h : Own k st e) : Own k (.block on steps) e

end Step

def State.shift (base : Nat) (state : State) : State :=
  ⟨base + state.start, base + state.pos, base + state.stop⟩

/-- The same error with its offsets moved, of the same kind and with the same fields. -/
structure Report.Follows (base : Nat) (own : Error → Prop) (report report' : Report) : Prop where
  error : report.error.Follows base own report'.error
  kind : report.error.kind? = report'.error.kind?
  fields : report.diagnostic?.map Diagnostic.fields = report'.diagnostic?.map Diagnostic.fields

theorem Error.Follows.mono {base : Nat} {own own' : Error → Prop} {e e' : Error}
    (h : e.Follows base own e') (hown : ∀ e, own e → own' e) : e.Follows base own' e' := by
  cases h with
  | shift => exact .shift e'
  | own h => exact .own (hown e h)

theorem Error.Follows.rel_mono {base : Nat} {own own' : Error → Prop} {e? e'? : Option Error}
    (h : Option.Rel (Follows base own) e? e'?) (hown : ∀ e, own e → own' e) :
    Option.Rel (Follows base own') e? e'? := by
  cases h with
  | none => exact .none
  | some h => exact .some (h.mono hown)

theorem Scanner.diagnose_fields (s : Scanner) (e : ScanError) :
    (s.diagnose e).map Diagnostic.fields = e.diagnostic?.map Diagnostic.fields := by
  unfold Scanner.diagnose
  rw [Option.map_map]
  congr 1
  funext d
  show Diagnostic.fields (if _ then _ else d) = d.fields
  split <;> rfl

namespace Excerpt

mutual

/-- The answer to a step on the whole buffer, beside the answer to it on the part. -/
inductive Alike (x : Excerpt) (k : Classifier) : Step → Answer → Answer → Prop
  | noSuchScanner (st : Step) : Alike x k st .noSuchScanner .noSuchScanner
  | value {on : String} {keep? : Option String} {c : Command} {value value' : Value} {state : State}
      (h : x.Tells c value value') :
      Alike x k (.call on keep? c) (.value value (state.shift x.base)) (.value value' state)
  | failed {on : String} {keep? : Option String} {c : Command} {report report' : Report}
      {state : State} (h : report.Follows x.base (c.Own k) report') :
      Alike x k (.call on keep? c) (.failed report (state.shift x.base)) (.failed report' state)
  | compared {on other : String} (same : Bool) (state : State) :
      Alike x k (.sameBuffer on other) (.value (.bool same) (state.shift x.base))
        (.value (.bool same) state)
  /-- A block ends with its first error, if there is one, so it may answer fewer steps. -/
  | block {on : String} {steps : List Step} {failure? failure'? : Option Report}
      {answers answers' : List Answer} {state : State}
      (hfailure : Option.Rel (Report.Follows x.base ((Step.block on steps).Own k)) failure?
        failure'?)
      (hanswers : AllAlike x k (steps.take answers.length) answers answers') :
      Alike x k (.block on steps) (.block failure? answers (state.shift x.base))
        (.block failure'? answers' state)

inductive AllAlike (x : Excerpt) (k : Classifier) :
    List Step → List Answer → List Answer → Prop
  | nil : AllAlike x k [] [] []
  | cons {st : Step} {steps : List Step} {answer answer' : Answer} {answers answers' : List Answer}
      (h : Alike x k st answer answer') (hrest : AllAlike x k steps answers answers') :
      AllAlike x k (st :: steps) (answer :: answers) (answer' :: answers')

end

/-- A session on the whole buffer whose scanners are those of a session on the part, each at its
place. -/
structure Mirrors (x : Excerpt) (session session' : Session) : Prop where
  scanners : session.scanners = session'.scanners.map x.embed
  names : session.names = session'.names

/-- What a step comes to on the whole buffer, beside what it comes to on the part. -/
structure Beside (x : Excerpt) (k : Classifier) (st : Step)
    (out out' : Answer × Option Error × Session) : Prop where
  answer : x.Alike k st out.1 out'.1
  error : Option.Rel (Error.Follows x.base (st.Own k)) out.2.1 out'.2.1
  mirrors : x.Mirrors out.2.2 out'.2.2

/-- The same of steps that are run up to the first error. -/
structure AllBeside (x : Excerpt) (k : Classifier) (steps : List Step)
    (out out' : List Answer × Option Error × Session) : Prop where
  answers : x.AllAlike k (steps.take out.1.length) out.1 out'.1
  error : Option.Rel (Error.Follows x.base fun e => ∃ st ∈ steps, st.Own k e) out.2.1 out'.2.1
  mirrors : x.Mirrors out.2.2 out'.2.2

variable {x : Excerpt} {session session' : Session} {root t : Scanner} {i : Nat}
  {own : Error → Prop} {k : Classifier}

/-! ### The two sessions side by side -/

theorem Mirrors.getElem? (h : x.Mirrors session session') (i : Nat) :
    session.scanners[i]? = (session'.scanners[i]?).map x.embed := by
  rw [h.scanners, Array.getElem?_map]

theorem Mirrors.find? (h : x.Mirrors session session') (name : String) :
    session.find? name = (session'.find? name).map fun (i, s) => (i, x.embed s) := by
  unfold Session.find? Session.number?
  rw [h.names]
  cases session'.names.lookup name with
  | none => rfl
  | some j =>
      show (session.scanners[j]?).bind _ = ((session'.scanners[j]?).bind _).map _
      rw [h.getElem?]
      cases session'.scanners[j]? <;> rfl

theorem Mirrors.find?_none {name : String} (h : x.Mirrors session session')
    (hfind : session.find? name = none) : session'.find? name = none := by
  rw [h.find?, Option.map_eq_none_iff] at hfind
  exact hfind

theorem Mirrors.find?_some {name : String} {s : Scanner} (h : x.Mirrors session session')
    (hfind : session.find? name = some (i, s)) :
    ∃ t, session'.find? name = some (i, t) ∧ s = x.embed t := by
  rw [h.find?, Option.map_eq_some_iff] at hfind
  obtain ⟨⟨j, t⟩, ht, heq⟩ := hfind
  cases heq
  exact ⟨t, ht, rfl⟩

theorem Mirrors.put (h : x.Mirrors session session') (i : Nat) (t : Scanner) :
    x.Mirrors (session.put i (x.embed t)) (session'.put i t) := by
  refine ⟨?_, h.names⟩
  show session.scanners.setIfInBounds i (x.embed t) = (session'.scanners.setIfInBounds i t).map _
  rw [h.scanners, Array.map_setIfInBounds]

theorem Mirrors.remember (h : x.Mirrors session session') (e e' : Error) :
    x.Mirrors (session.remember e) (session'.remember e') := by
  refine ⟨?_, ?_⟩
  · rw [Session.remember_scanners, Session.remember_scanners]
    exact h.scanners
  · rw [Session.remember_names, Session.remember_names]
    exact h.names

theorem Mirrors.keepValue {c : Command} {value value' : Value} (h : x.Mirrors session session')
    (keep? : Option String) (hvalue : x.Tells c value value') :
    x.Mirrors (session.keepValue keep? value) (session'.keepValue keep? value') := by
  cases keep? with
  | none => exact h
  | some name =>
      cases hvalue with
      | start => exact h
      | stop => exact h
      | position => exact h
      | describe => exact h
      | scanner u =>
          refine ⟨?_, ?_⟩
          · show session.scanners.push (x.embed u) = (session'.scanners.push u).map _
            rw [h.scanners, Array.map_push]
          · show (name, session.scanners.size) :: session.names = _
            rw [h.names, h.scanners, Array.size_map]
            rfl
      | same hplace hscanner =>
          cases value with
          | scanner u => exact absurd rfl (hscanner u)
          | _ => exact h

theorem report_follows {e e' : Error} (h : e.Follows x.base own e') :
    ((x.embed t).report e).Follows x.base own (t.report e') := by
  cases h with
  | shift =>
      refine ⟨.shift e', Error.kind?_shift x.base e', ?_⟩
      cases e' with
      | scan error =>
          show ((x.embed t).diagnose (error.shift x.base)).map _ = (t.diagnose error).map _
          rw [Scanner.diagnose_fields, Scanner.diagnose_fields, ScanError.fields_shift]
      | _ => rfl
  | own h =>
      refine ⟨.own h, rfl, ?_⟩
      cases e with
      | scan error =>
          show ((x.embed t).diagnose error).map _ = (t.diagnose error).map _
          rw [Scanner.diagnose_fields, Scanner.diagnose_fields]
      | _ => rfl

/-- Every scanner of a session on the part reads the part. -/
theorem has_of_reachable (hroot : x.Has root) (h : root.Reachable t) :
    x.Has t ∧ t.classifier = root.classifier := by
  obtain ⟨ht, hwithin⟩ := h.within hroot.inside
  exact ⟨⟨hwithin.buffer.trans hroot.buffer, ht⟩, hwithin.classifier⟩

/-! ### Steps -/

theorem call_beside (h : x.Mirrors session session') (ht : x.Has t) {c : Command}
    (hc : c.Windowed) (on : String) (keep? : Option String) (i : Nat) :
    x.Beside t.classifier (.call on keep? c) (session.call i (x.embed t) keep? c)
      (session'.call i t keep? (c.relative x.base)) := by
  have hrun := run_lockstep ht hc
  unfold Session.call
  generalize c.run (x.embed t) = r at hrun
  generalize (c.relative x.base).run t = r' at hrun
  cases hrun with
  | @ok value value' left hvalue =>
      have hanswer : x.Alike t.classifier (.call on keep? c)
          (.value value (left.state.shift x.base)) (.value value' left.state) := .value hvalue
      exact ⟨hanswer, .none, (h.put i left).keepValue keep? hvalue⟩
  | @error e e' left herror =>
      have hanswer : x.Alike t.classifier (.call on keep? c)
          (.failed ((x.embed left).report e) (left.state.shift x.base))
          (.failed (left.report e') left.state) := .failed (report_follows herror)
      exact ⟨hanswer, .some (herror.mono fun _ => .call), (h.put i left).remember e e'⟩

theorem leave_beside {on : String} {steps : List Step}
    {out out' : List Answer × Option Error × Session} (h : x.AllBeside k steps out out')
    (i entry : Nat) :
    x.Beside k (.block on steps) (out.2.2.leave i (x.base + entry) out.1 out.2.1)
      (out'.2.2.leave i entry out'.1 out'.2.1) := by
  obtain ⟨answers, error?, session⟩ := out
  obtain ⟨answers', error'?, session'⟩ := out'
  obtain ⟨hanswers, herror, h⟩ := h
  replace herror : Option.Rel (Error.Follows x.base ((Step.block on steps).Own k)) error? error'? :=
    Error.Follows.rel_mono herror fun _ ⟨_, hst, hown⟩ => .block hst hown
  unfold Session.leave
  rw [h.getElem?]
  cases hi : session'.scanners[i]? with
  | none => exact ⟨.noSuchScanner _, herror, h⟩
  | some t =>
      cases herror with
      | none =>
          have hanswer : x.Alike k (.block on steps) (.block none answers (t.state.shift x.base))
              (.block none answers' t.state) := .block .none hanswers
          exact ⟨hanswer, .none, h.put i t⟩
      | @some e e' he =>
          have hanswer (u : Scanner) : x.Alike k (.block on steps)
              (.block (some ((x.embed u).report e)) answers (u.state.shift x.base))
              (.block (some (u.report e')) answers' u.state) :=
            .block (.some (report_follows he)) hanswers
          -- The cursor goes back on both sides or on neither: both errors are of scanning, or none.
          have herror : Option.Rel _ (some e) (some e') := .some he
          cases he with
          | shift =>
              cases e' with
              | scan =>
                  exact ⟨hanswer { t with pos := entry }, herror, h.put i { t with pos := entry }⟩
              | _ => exact ⟨hanswer t, herror, h.put i t⟩
          | own =>
              cases e with
              | scan =>
                  exact ⟨hanswer { t with pos := entry }, herror, h.put i { t with pos := entry }⟩
              | _ => exact ⟨hanswer t, herror, h.put i t⟩

/-- Scanners for one buffer are told from no other. -/
theorem compared_alike (h : x.Mirrors session session') (hroot : x.Has root)
    (hreach : session'.ReachableFrom root) (ht : x.Has t) (other : String) :
    ((session.find? other).any fun (_, u) => u.buffer = (x.embed t).buffer)
      = (session'.find? other).any fun (_, u) => u.buffer = t.buffer := by
  rw [h.find?]
  cases hfind : session'.find? other with
  | none => rfl
  | some found =>
      obtain ⟨j, u⟩ := found
      have hu := (has_of_reachable hroot (hreach.get (Session.find?_eq_some hfind))).1
      show decide (x.whole = x.whole) = decide (u.buffer = t.buffer)
      rw [hu.buffer, ht.buffer, decide_eq_true rfl, decide_eq_true rfl]

/-- A step is answered on the whole buffer as it is on the part. -/
theorem step_beside (hroot : x.Has root) :
    (∀ (session : Session) (st : Step), st.Windowed → ∀ session' : Session,
      x.Mirrors session session' → session'.ReachableFrom root →
      x.Beside root.classifier st (session.step st) (session'.step (st.relative x.base))) ∧
    ∀ (session : Session) (steps : List Step), (∀ st ∈ steps, st.Windowed) →
      ∀ session' : Session, x.Mirrors session session' → session'.ReachableFrom root →
      x.AllBeside root.classifier steps (session.upToError steps)
        (session'.upToError (Step.relatives x.base steps)) := by
  refine Session.step.mutual_induct_unfolding
    (fun session st out => st.Windowed → ∀ session' : Session, x.Mirrors session session' →
      session'.ReachableFrom root →
      x.Beside root.classifier st out (session'.step (st.relative x.base)))
    (fun session steps out => (∀ st ∈ steps, st.Windowed) → ∀ session' : Session,
      x.Mirrors session session' → session'.ReachableFrom root →
      x.AllBeside root.classifier steps out (session'.upToError (Step.relatives x.base steps)))
    ?_ ?_ ?_ ?_ ?_ ?_ ?_ ?_ ?_ ?_ ?_
  -- calls
  · intro session on keep? c hfind _ session' h _
    rw [Step.relative, Session.step, h.find?_none hfind]
    exact ⟨.noSuchScanner _, .none, h⟩
  · intro session on keep? c i s hfind hst session' h hreach
    obtain ⟨t, hfind', rfl⟩ := h.find?_some hfind
    obtain ⟨ht, hclassifier⟩ := has_of_reachable hroot (hreach.get (Session.find?_eq_some hfind'))
    rw [Step.relative, Session.step, hfind', ← hclassifier]
    cases hst with
    | call hc => exact call_beside h ht hc on keep? i
  -- comparisons
  · intro session on other hfind _ session' h _
    rw [Step.relative, Session.step, h.find?_none hfind]
    exact ⟨.noSuchScanner _, .none, h⟩
  · intro session on other i s hfind same _ session' h hreach
    obtain ⟨t, hfind', rfl⟩ := h.find?_some hfind
    have ht := (has_of_reachable hroot (hreach.get (Session.find?_eq_some hfind'))).1
    have hsame : same = _ := compared_alike h hroot hreach ht other
    rw [Step.relative, Session.step, hfind', hsame]
    exact ⟨.compared _ t.state, .none, h⟩
  -- inquiries
  · intro session on inquiry _ hst
    cases hst
  · intro session on inquiry i s _ hst
    cases hst
  -- blocks
  · intro session on steps hfind _ session' h _
    rw [Step.relative, Session.step, h.find?_none hfind]
    exact ⟨.noSuchScanner _, .none, h⟩
  · intro session on steps i s hfind answers error? after hrun ih hst session' h hreach
    obtain ⟨t, hfind', rfl⟩ := h.find?_some hfind
    rw [Step.relative, Session.step, hfind']
    cases hst with
    | block hsteps =>
        have hall := ih hsteps session' h hreach
        rw [hrun] at hall
        exact leave_beside hall i t.pos
  -- the steps of a block
  · intro session _ session' h _
    exact ⟨.nil, .none, h⟩
  · intro session first rest answer e after hstep ih hsteps session' h hreach
    have hfirst := ih (hsteps first List.mem_cons_self) session' h hreach
    rw [hstep] at hfirst
    rw [Step.relatives, Session.upToError]
    generalize session'.step (first.relative x.base) = out at hfirst
    obtain ⟨answer', error'?, after'⟩ := out
    obtain ⟨hanswer, herror, hafter⟩ := hfirst
    cases herror with
    | some he =>
        exact ⟨.cons hanswer .nil, .some (he.mono fun _ hown => ⟨first, List.mem_cons_self, hown⟩),
          hafter⟩
  · intro session first rest answer after hstep answers error? last hrest ih ih' hsteps session' h
      hreach
    have hfirst := ih (hsteps first List.mem_cons_self) session' h hreach
    have hreach' := ((Session.step_leads hroot.inside).1 session' (first.relative x.base)
      hreach).reachable
    rw [hstep] at hfirst
    rw [Step.relatives, Session.upToError]
    generalize session'.step (first.relative x.base) = out at hfirst hreach'
    obtain ⟨answer', error'?, after'⟩ := out
    obtain ⟨hanswer, herror, hafter⟩ := hfirst
    cases herror with
    | none =>
        have hrest' : ∀ st ∈ rest, st.Windowed := fun st hst =>
          hsteps st (List.mem_cons_of_mem _ hst)
        have hall := ih' hrest' after' hafter hreach'
        rw [hrest] at hall
        obtain ⟨hanswers, herror, hlast⟩ := hall
        exact ⟨.cons hanswer hanswers, Error.Follows.rel_mono herror
          fun _ ⟨st, hst, hown⟩ => ⟨st, List.mem_cons_of_mem _ hst, hown⟩, hlast⟩

/-! ### Programs -/

/-- Every step of a program is answered on the whole buffer as it is on the part. -/
theorem runAll_alike (hroot : x.Has root) (steps : List Step) (hsteps : ∀ st ∈ steps, st.Windowed)
    (h : x.Mirrors session session') (hreach : session'.ReachableFrom root) :
    x.AllAlike root.classifier steps (session.runAll steps).1
        (session'.runAll (steps.map (Step.relative x.base))).1 ∧
      x.Mirrors (session.runAll steps).2
        (session'.runAll (steps.map (Step.relative x.base))).2 := by
  induction steps generalizing session session' with
  | nil => exact ⟨.nil, h⟩
  | cons first rest ih =>
      have hfirst := (step_beside hroot).1 session first (hsteps first List.mem_cons_self)
        session' h hreach
      have hreach' := ((Session.step_leads hroot.inside).1 session' (first.relative x.base)
        hreach).reachable
      obtain ⟨hanswers, hlast⟩ := ih (fun st hst => hsteps st (List.mem_cons_of_mem _ hst))
        hfirst.mirrors hreach'
      exact ⟨.cons hfirst.answer hanswers, hlast⟩

/-- A part that also starts where no character is cut is accepted, and the scanner for it is the one
for its window. -/
theorem ofBuffer_part {maxSize : Int} (hstart : x.whole.isBoundary x.base = true)
    (hsize : x.length ≤ maxSize) (k : Classifier) :
    ∃ fresh, Scanner.ofBuffer x.part maxSize k = .ok fresh ∧ x.Has fresh ∧ fresh.classifier = k ∧
      x.embed fresh = ⟨x.whole, x.base, x.base + x.length, x.base, k⟩ := by
  have hboundary : x.part.isBoundary 0 = true :=
    (isBoundary_part (Nat.zero_le x.length)).symm.trans hstart
  have hinside : Scanner.Inside ⟨x.part, 0, x.part.size, 0, k⟩ :=
    ⟨Nat.le_refl _, Nat.zero_le _, Nat.le_refl _⟩
  refine ⟨⟨x.part, 0, x.part.size, 0, k⟩, ?_, ⟨rfl, hinside⟩, rfl, ?_⟩
  · rw [Scanner.ofBuffer_eq_ok_iff, size_part]
    exact ⟨⟨hsize, hboundary⟩, rfl⟩
  · show Scanner.mk x.whole (x.base + 0) (x.base + x.part.size) (x.base + 0) k = _
    rw [size_part, Nat.add_zero]

end Excerpt

namespace Scanner

open Session

variable {b : Buffer} {maxSize maxSize' first last : Int} {k : Classifier} {root s t : Scanner}
  {steps : List Step}

/-- The window of a sub-scanner is an excerpt of the buffer. -/
theorem exists_excerpt (hs : s.Inside) (ht : s.subScanner first last = .ok t) :
    ∃ x : Excerpt, x.whole = s.buffer ∧ x.base = first ∧ (x.base + x.length : Nat) = last ∧
      x.whole.isBoundary x.base = true ∧
      t = ⟨x.whole, x.base, x.base + x.length, x.base, s.classifier⟩ := by
  obtain ⟨hrange, hfirst, hlast, rfl⟩ := Command.subScanner_eq_ok_iff.mp ht
  have hstop := hs.stop_le_size
  obtain ⟨base, rfl⟩ := Int.eq_ofNat_of_zero_le (show 0 ≤ first by omega)
  obtain ⟨stop, rfl⟩ := Int.eq_ofNat_of_zero_le (show 0 ≤ last by omega)
  obtain ⟨length, rfl⟩ := Nat.exists_eq_add_of_le (Int.ofNat_le.mp hrange.2.1)
  exact ⟨⟨s.buffer, base, length, by omega, hlast⟩, rfl, rfl, rfl, hfirst, rfl⟩

/-- **A program runs on a sub-scanner as it runs on a scanner for the bytes of its window alone**,
if the offsets in it are taken from the start of the window.  The answers are alike step by step,
and so are all scanners in the end; so bytes outside the window have no influence. -/
theorem Reachable.subScanner_runAll (hroot : ofBuffer b maxSize k = .ok root)
    (h : root.Reachable s) (ht : s.subScanner first last = .ok t)
    (hsize : last - first ≤ maxSize') (hsteps : ∀ st ∈ steps, st.Windowed) :
    ∃ (x : Excerpt) (fresh : Scanner),
      (x.whole = b ∧ x.base = first ∧ (x.base + x.length : Nat) = last) ∧
      ofBuffer x.part maxSize' k = .ok fresh ∧
      x.AllAlike k steps ((ofScanner t).runAll steps).1
        ((ofScanner fresh).runAll (steps.map (Step.relative x.base))).1 ∧
      ((ofScanner t).runAll steps).2.scanners
        = ((ofScanner fresh).runAll (steps.map (Step.relative x.base))).2.scanners.map x.embed := by
  have hinside := inside_of_ofBuffer hroot
  obtain ⟨hs, hwithin⟩ := h.within hinside
  obtain ⟨_, rfl⟩ := ofBuffer_eq_ok_iff.mp hroot
  obtain ⟨x, hwhole, rfl, rfl, hstart, rfl⟩ := exists_excerpt hs ht
  obtain ⟨fresh, hfresh, hhas, hclassifier, hembed⟩ :=
    Excerpt.ofBuffer_part hstart (show (x.length : Int) ≤ maxSize' by omega) k
  have hmirrors : x.Mirrors (ofScanner (x.embed fresh)) (ofScanner fresh) :=
    ⟨by simp [ofScanner], rfl⟩
  obtain ⟨hanswers, hlast⟩ := Excerpt.runAll_alike hhas steps hsteps hmirrors
    (reachableFrom_ofScanner fresh)
  rw [hembed, hclassifier] at hanswers
  rw [hembed] at hlast
  rw [hwithin.classifier]
  exact ⟨x, fresh, ⟨hwhole.trans hwithin.buffer, rfl, rfl⟩, hfresh, hanswers, hlast.scanners⟩

/-- The sought text goes on behind the window, and so do the bytes behind a leading byte. -/
theorem Reachable.subScanner_runAll_straddling :
    let root : Scanner := ⟨.ofList [0x78, 0x61, 0xC3, 0x62, 0x63, 0x64], 0, 6, 0, .unicode⟩
    let steps : List Step := [
      .call "p" none (.readUntilString "bc" true), .call "p" (some "q") (.subScanner 2 3),
      .block "p" [.call "p" none (.advance 1), .call "q" none .peek],
      .call "p" none (.restore 3), .call "p" none (.matchString "bc")]
    ofBuffer root.buffer 6 .unicode = .ok root ∧ root.Reachable root ∧
      root.subScanner 1 4 = .ok (root.view 1 4) ∧ (4 : Int) - 1 ≤ 3 ∧
      (∀ st ∈ steps, st.Windowed) ∧
      ∃ (x : Excerpt) (fresh : Scanner), x.base = (1 : Int) ∧
        ofBuffer x.part 3 .unicode = .ok fresh ∧
        x.AllAlike .unicode steps ((ofScanner (root.view 1 4)).runAll steps).1
          ((ofScanner fresh).runAll (steps.map (Step.relative x.base))).1 := by
  intro root steps
  have hroot : ofBuffer root.buffer 6 .unicode = .ok root := by cbv
  have hsub : root.subScanner 1 4 = .ok (root.view 1 4) := by cbv
  have hsize : (4 : Int) - 1 ≤ 3 := by decide
  have hblock :
      ∀ st ∈ [Step.call "p" none (.advance 1), Step.call "q" none .peek], st.Windowed := by
    intro st hst
    simp only [List.mem_cons, List.not_mem_nil, or_false] at hst
    rcases hst with rfl | rfl <;> exact .call trivial
  have hsteps : ∀ st ∈ steps, st.Windowed := by
    intro st hst
    simp only [steps, List.mem_cons, List.not_mem_nil, or_false] at hst
    rcases hst with rfl | rfl | rfl | rfl | rfl
    · exact .call trivial
    · exact .call trivial
    · exact .block hblock
    · exact .call trivial
    · exact .call trivial
  obtain ⟨x, fresh, ⟨_, hbase, _⟩, hfresh, halike, _⟩ :=
    Reachable.subScanner_runAll hroot .root hsub hsize hsteps
  exact ⟨hroot, .root, hsub, hsize, hsteps, x, fresh, hbase, hfresh, halike⟩

end Scanner

end Utf8Scan
