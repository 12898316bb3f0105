/-
What a session can come to.

A session runs commands on many scanners, and blocks of them under backtracking.
None of this leads to a scanner that the commands alone could not reach: a block
changes the cursor of its own scanner back to one that it had, and its window has
stayed the same in between, which is what `Continues` says.

So what holds of every reachable scanner holds of all scanners of a session, and the
answers of a session are as sound as the commands are.  Both are proved by following
the recursion of `step` and `upToError`.
-/
import Utf8Scan.Proofs.Reachable
import Utf8Scan.Session

namespace Utf8Scan

namespace Session

variable {root s t : Scanner} {session later last : Session} {i : Nat}

/-! ### Scanners of a session -/

theorem getElem?_put_self (hi : session.scanners[i]? = some t) (s : Scanner) :
    (session.put i s).scanners[i]? = some s :=
  Array.getElem?_setIfInBounds_self_of_lt (Array.getElem?_eq_some_iff.mp hi).1

theorem getElem?_put_of_ne (session : Session) {j : Nat} (hij : i ≠ j) (s : Scanner) :
    (session.put i s).scanners[j]? = session.scanners[j]? :=
  Array.getElem?_setIfInBounds_ne hij

/-- Keeping a further scanner leaves the others alone. -/
theorem getElem?_keep (hi : session.scanners[i]? = some s) (name : String) (t : Scanner) :
    (session.keep name t).scanners[i]? = some s := by
  have hlt : i < session.scanners.size := (Array.getElem?_eq_some_iff.mp hi).1
  show (session.scanners.push t)[i]? = some s
  rw [Array.getElem?_push_lt hlt, ← Array.getElem?_eq_getElem hlt]
  exact hi

/-- All scanners of a session are reachable from a root. -/
def ReachableFrom (root : Scanner) (session : Session) : Prop :=
  ∀ s ∈ session.scanners, root.Reachable s

/-- A later state of a session, in which every scanner still has its window. -/
def Continues (session later : Session) : Prop :=
  ∀ (i : Nat) (s : Scanner), session.scanners[i]? = some s →
    ∃ pos, later.scanners[i]? = some { s with pos := pos }

/-- What running steps leads to. -/
structure Leads (root : Scanner) (session later : Session) : Prop where
  continues : session.Continues later
  reachable : later.ReachableFrom root

theorem ReachableFrom.get (h : session.ReachableFrom root) (hi : session.scanners[i]? = some s) :
    root.Reachable s := h s (Array.mem_of_getElem? hi)

theorem Leads.refl (h : session.ReachableFrom root) : session.Leads root session :=
  ⟨fun _ s hi => ⟨s.pos, hi⟩, h⟩

theorem Leads.trans (h : session.Leads root later) (h' : later.Leads root last) :
    session.Leads root last := by
  refine ⟨?_, h'.reachable⟩
  intro i s hi
  obtain ⟨pos, hpos⟩ := h.continues i s hi
  obtain ⟨pos', hpos'⟩ := h'.continues i { s with pos := pos } hpos
  exact ⟨pos', hpos'⟩

theorem remember_scanners (session : Session) (e : Error) :
    (session.remember e).scanners = session.scanners := by
  cases e <;> rfl

theorem remember_names (session : Session) (e : Error) :
    (session.remember e).names = session.names := by
  cases e <;> rfl

theorem Leads.remember (h : session.Leads root later) (e : Error) :
    session.Leads root (later.remember e) := by
  refine ⟨?_, ?_⟩
  · intro i s hi
    rw [remember_scanners]
    exact h.continues i s hi
  · intro s hs
    rw [remember_scanners] at hs
    exact h.reachable s hs

/-- Moving the cursor of one scanner. -/
theorem Leads.put {o pos : Nat} (h : session.ReachableFrom root)
    (hi : session.scanners[i]? = some { s with pos := o })
    (hs : root.Reachable { s with pos := pos }) :
    session.Leads root (session.put i { s with pos := pos }) := by
  refine ⟨?_, ?_⟩
  · intro j t hj
    by_cases hij : i = j
    · subst hij
      obtain rfl : { s with pos := o } = t := Option.some.inj (hi.symm.trans hj)
      exact ⟨pos, getElem?_put_self hi _⟩
    · exact ⟨t.pos, (getElem?_put_of_ne session hij _).trans hj⟩
  · intro t ht
    rcases Array.mem_or_eq_of_mem_setIfInBounds ht with ht | rfl
    · exact h t ht
    · exact hs

theorem Leads.keepValue {keep? : Option String} {value : Value} (h : session.Leads root later)
    (hvalue : ∀ t, value = .scanner t → root.Reachable t) :
    session.Leads root (later.keepValue keep? value) := by
  unfold Session.keepValue
  split
  · rename_i name t
    refine h.trans ⟨?_, ?_⟩
    · intro j s hj
      exact ⟨s.pos, getElem?_keep hj name t⟩
    · intro s hs
      rcases Array.mem_push.mp hs with hs | rfl
      · exact h.reachable s hs
      · exact hvalue _ rfl
  · exact h

theorem find?_eq_some {on : String} (h : session.find? on = some (i, s)) :
    session.scanners[i]? = some s := by
  unfold find? at h
  obtain ⟨j, _, h⟩ := Option.bind_eq_some_iff.mp h
  obtain ⟨t, ht, h⟩ := Option.bind_eq_some_iff.mp h
  cases h
  exact ht

/-! ### Steps -/

theorem call_leads (hroot : root.Inside) (h : session.ReachableFrom root)
    (hi : session.scanners[i]? = some s) (keep? : Option String) (c : Command) :
    session.Leads root (session.call i s keep? c).2.2 := by
  have hs : root.Reachable s := h.get hi
  obtain ⟨pos, _, heq⟩ := Scanner.after_eq (hs.inside hroot) c
  have hafter : root.Reachable { s with pos := pos } := heq ▸ hs.after c
  unfold call
  split
  · rename_i value left hrun
    obtain rfl : left = { s with pos := pos } := (Scanner.after_of_ok hrun).symm.trans heq
    refine (Leads.put h hi hafter).keepValue ?_
    rintro t rfl
    exact hs.returned hrun
  · rename_i e left hrun
    obtain rfl : left = { s with pos := pos } := (Scanner.after_of_error hrun).symm.trans heq
    exact (Leads.put h hi hafter).remember e

/-- A question changes nothing, but if it fails its error may be the one that was raised last. -/
theorem inquire_eq (session : Session) (s : Scanner) (inquiry : Inquiry) :
    (session.inquire s inquiry).2.2 = session ∨
      ∃ e, (session.inquire s inquiry).2.2 = session.remember e := by
  unfold inquire
  split
  · exact Or.inl rfl
  · exact Or.inr ⟨_, rfl⟩
  · split
    · exact Or.inl rfl
    · split
      · exact Or.inr ⟨_, rfl⟩
      · split
        · exact Or.inr ⟨_, rfl⟩
        · exact Or.inl rfl

theorem inquire_leads (h : session.ReachableFrom root) (s : Scanner) (inquiry : Inquiry) :
    session.Leads root (session.inquire s inquiry).2.2 := by
  have hrefl : session.Leads root session := .refl h
  rcases inquire_eq session s inquiry with heq | ⟨e, heq⟩
  · rw [heq]
    exact hrefl
  · rw [heq]
    exact hrefl.remember e

/-- A block ends with its own scanner where the steps left it, or where it was before them. -/
theorem leave_eq (h : session.Leads root later) (hs : root.Reachable s)
    (hi : session.scanners[i]? = some s) (answers : List Answer) (error? : Option Error) :
    ∃ pos, root.Reachable { s with pos := pos } ∧
      (later.leave i s.pos answers error?).1
        = .block (error?.map ({ s with pos := pos } : Scanner).report) answers
            ({ s with pos := pos } : Scanner).state ∧
      (later.leave i s.pos answers error?).2.1 = error? ∧
      session.Leads root (later.leave i s.pos answers error?).2.2 := by
  obtain ⟨pos, hpos⟩ := h.continues i s hi
  have hleft : root.Reachable { s with pos := pos } := h.reachable.get hpos
  have hlast : session.Leads root (later.put i { s with pos := pos }) :=
    h.trans (.put h.reachable hpos hleft)
  unfold leave
  rw [hpos]
  rcases error? with _ | e
  · exact ⟨pos, hleft, rfl, rfl, hlast⟩
  cases e with
  | scan x => exact ⟨s.pos, hs, rfl, rfl, h.trans (.put h.reachable hpos hs)⟩
  | _ => exact ⟨pos, hleft, rfl, rfl, hlast⟩

/-- Running steps leads only to scanners that commands can reach. -/
theorem step_leads (hroot : root.Inside) :
    (∀ (session : Session) (st : Step), session.ReachableFrom root →
      session.Leads root (session.step st).2.2) ∧
    ∀ (session : Session) (steps : List Step), session.ReachableFrom root →
      session.Leads root (session.upToError steps).2.2 := by
  refine step.mutual_induct_unfolding
    (fun session _ out => session.ReachableFrom root → session.Leads root out.2.2)
    (fun session _ out => session.ReachableFrom root → session.Leads root out.2.2)
    ?_ ?_ ?_ ?_ ?_ ?_ ?_ ?_ ?_ ?_ ?_
  -- calls
  · intro session on keep? c _ h
    exact .refl h
  · intro session on keep? c i s hfind h
    exact call_leads hroot h (find?_eq_some hfind) keep? c
  -- comparisons
  · intro session on other _ h
    exact .refl h
  · intro session on other i s _ same h
    exact .refl h
  -- inquiries
  · intro session on inquiry _ h
    exact .refl h
  · intro session on inquiry i s _ h
    exact inquire_leads h s inquiry
  -- blocks
  · intro session on steps _ h
    exact .refl h
  · intro session on steps i s hfind answers error? after hrun ih h
    rw [hrun] at ih
    have hi := find?_eq_some hfind
    obtain ⟨_, _, _, _, hleads⟩ := leave_eq (ih h) (h.get hi) hi answers error?
    exact hleads
  -- the steps of a block
  · intro session h
    exact .refl h
  · intro session first rest answer e after hstep ih h
    rw [hstep] at ih
    exact ih h
  · intro session first rest answer after hstep answers error? last hrest ih ih' h
    rw [hstep] at ih
    rw [hrest] at ih'
    exact (ih h).trans (ih' (ih h).reachable)

theorem runAll_reachable (hroot : root.Inside) (steps : List Step)
    (h : session.ReachableFrom root) : (session.runAll steps).2.ReachableFrom root := by
  induction steps generalizing session with
  | nil => exact h
  | cons first rest ih =>
      unfold runAll
      exact ih ((step_leads hroot).1 session first h).reachable

theorem reachableFrom_ofScanner (root : Scanner) : (ofScanner root).ReachableFrom root := by
  intro s hs
  obtain rfl : s = root := by simpa [ofScanner] using hs
  exact .root

end Session

/-! ### Sound answers -/

/-- The state of a scanner that lies inside a buffer. -/
structure State.Inside (state : State) (b : Buffer) : Prop where
  start_le_pos : state.start ≤ state.pos
  pos_le_stop : state.pos ≤ state.stop
  stop_le_size : state.stop ≤ b.size

/-- An error that some command documents. -/
def Error.Documented (e : Error) : Prop := ∃ c : Command, c.Documents e

theorem documented_none : ∀ e ∈ (none : Option Error), e.Documented := by
  intro e he
  cases he

/-- A step that hands over nothing that fails by itself. -/
inductive Step.Total : Step → Prop
  | call {on : String} {keep? : Option String} {c : Command} (h : c.Total) :
      Total (.call on keep? c)
  | sameBuffer (on other : String) : Total (.sameBuffer on other)
  | inquire (on : String) (error? : Option ScanError) :
      Total (.inquire on ⟨error?.map .ok, none⟩)
  | block {on : String} {steps : List Step} (h : ∀ st ∈ steps, Total st) : Total (.block on steps)

/-- What may come of a step on scanners for a buffer. -/
inductive Step.Sound (b : Buffer) : Step → Answer → Prop
  | noSuchScanner (st : Step) : Sound b st .noSuchScanner
  | returned {on : String} {keep? : Option String} {c : Command} {value : Value} {state : State}
      (hstate : state.Inside b)
      (hvalue : ∀ t, value = .scanner t →
        t.buffer = b ∧ t.Inside ∧ state.start ≤ t.start ∧ t.stop ≤ state.stop) :
      Sound b (.call on keep? c) (.value value state)
  | failed {on : String} {keep? : Option String} {c : Command} {report : Report} {state : State}
      (hstate : state.Inside b) (herror : c.Documents report.error) :
      Sound b (.call on keep? c) (.failed report state)
  | compared {on other : String} {same : Bool} {state : State} (hstate : state.Inside b) :
      Sound b (.sameBuffer on other) (.value (.bool same) state)
  | noErrorYet {on : String} {inquiry : Inquiry} {state : State} (hstate : state.Inside b) :
      Sound b (.inquire on inquiry) (.noErrorYet state)
  | explained {on : String} {inquiry : Inquiry} {diagnostic? : Option Diagnostic}
      {text? : Option String} {state : State} (hstate : state.Inside b) :
      Sound b (.inquire on inquiry) (.explained diagnostic? text? state)
  /-- A block ends with its first error, if there is one, so it may answer fewer steps. -/
  | block {on : String} {steps : List Step} {failure? : Option Report} {answers : List Answer}
      {state : State} (hstate : state.Inside b)
      (hfailure : ∀ report ∈ failure?, report.error.Documented)
      (hanswers : List.Forall₂ (Sound b) (steps.take answers.length) answers) :
      Sound b (.block on steps) (.block failure? answers state)

namespace Session

open Scanner

variable {root s : Scanner} {session later : Session} {i : Nat}

theorem state_inside (hs : s.Inside) : s.state.Inside s.buffer :=
  ⟨hs.start_le_pos, hs.pos_le_stop, hs.stop_le_size⟩

/-- A reachable scanner lies in the root's buffer and has its classifier. -/
theorem reachable_spec (hroot : root.Inside) (h : root.Reachable s) :
    s.Inside ∧ s.state.Inside root.buffer ∧ s.classifier = root.classifier := by
  obtain ⟨hs, hwithin⟩ := h.within hroot
  refine ⟨hs, ?_, hwithin.classifier⟩
  rw [← hwithin.buffer]
  exact state_inside hs

theorem call_sound (hroot : root.Inside) (hk : root.classifier.Total) (h : root.Reachable s)
    {c : Command} (hc : c.Total) (session : Session) (on : String) (keep? : Option String) :
    Step.Sound root.buffer (.call on keep? c) (session.call i s keep? c).1 ∧
      ∀ e ∈ (session.call i s keep? c).2.1, e.Documented := by
  obtain ⟨hs, _, hclassifier⟩ := reachable_spec hroot h
  have hafter := (reachable_spec hroot (h.after c)).2.1
  unfold call
  split
  · rename_i value left hrun
    rw [after_of_ok hrun] at hafter
    refine ⟨.returned hafter ?_, documented_none⟩
    rintro t rfl
    obtain ⟨ht, hwithin⟩ := (h.returned hrun).within hroot
    have hview := ((run_value hs hrun).isView t rfl).within hs
    obtain ⟨pos, _, heq⟩ := after_eq hs c
    rw [after_of_ok hrun] at heq
    rw [heq]
    exact ⟨hwithin.buffer, ht, hview.start_le, hview.stop_le⟩
  · rename_i e left hrun
    rw [after_of_error hrun] at hafter
    rw [← hclassifier] at hk
    have hdocuments := (run_error hs hrun).2.documents hk hc
    refine ⟨.failed hafter hdocuments, ?_⟩
    intro e' he'
    obtain rfl : e = e' := Option.some.inj he'
    exact ⟨c, hdocuments⟩

/-- The usual layout takes every diagnostic, so a plain question about an error has an answer. -/
theorem inquire_sound {b : Buffer} (hs : s.state.Inside b) (session : Session) (on : String)
    (error? : Option ScanError) :
    Step.Sound b (.inquire on ⟨error?.map .ok, none⟩)
        (session.inquire s ⟨error?.map .ok, none⟩).1 ∧
      (session.inquire s ⟨error?.map .ok, none⟩).2.1 = none := by
  have hasked : ∃ asked? : Option ScanError,
      (error?.map Except.ok <|> session.lastError?.map Except.ok
        : Option (Except Error ScanError)) = asked?.map .ok := by
    cases error? with
    | none => exact ⟨session.lastError?, rfl⟩
    | some error => exact ⟨some error, rfl⟩
  obtain ⟨asked?, hasked⟩ := hasked
  unfold inquire
  rw [hasked]
  cases asked? with
  | none => exact ⟨.noErrorYet hs, rfl⟩
  | some error =>
      cases hdiagnose : s.diagnose error with
      | none =>
          simp only [Option.map_some, hdiagnose]
          exact ⟨.explained hs, trivial⟩
      | some d =>
          have hlayout : ({} : Layout).layOut d = .ok d.render := by rfl
          simp only [Option.map_some, hdiagnose, Option.getD_none, hlayout]
          exact ⟨.explained hs, trivial⟩

/-- Steps that hand over nothing that fails by itself have sound answers. -/
theorem step_sound (hroot : root.Inside) (hk : root.classifier.Total) :
    (∀ (session : Session) (st : Step), session.ReachableFrom root → st.Total →
      st.Sound root.buffer (session.step st).1 ∧ ∀ e ∈ (session.step st).2.1, e.Documented) ∧
    ∀ (session : Session) (steps : List Step), session.ReachableFrom root →
      (∀ st ∈ steps, st.Total) →
      List.Forall₂ (Step.Sound root.buffer) (steps.take (session.upToError steps).1.length)
          (session.upToError steps).1 ∧
        ∀ e ∈ (session.upToError steps).2.1, e.Documented := by
  refine step.mutual_induct_unfolding
    (fun session st out => session.ReachableFrom root → st.Total →
      st.Sound root.buffer out.1 ∧ ∀ e ∈ out.2.1, e.Documented)
    (fun session steps out => session.ReachableFrom root → (∀ st ∈ steps, st.Total) →
      List.Forall₂ (Step.Sound root.buffer) (steps.take out.1.length) out.1 ∧
        ∀ e ∈ out.2.1, e.Documented)
    ?_ ?_ ?_ ?_ ?_ ?_ ?_ ?_ ?_ ?_ ?_
  -- calls
  · intro session on keep? c _ _ _
    exact ⟨.noSuchScanner _, documented_none⟩
  · intro session on keep? c i s hfind h htotal
    cases htotal with
    | call hc => exact call_sound hroot hk (h.get (find?_eq_some hfind)) hc session on keep?
  -- comparisons
  · intro session on other _ _ _
    exact ⟨.noSuchScanner _, documented_none⟩
  · intro session on other i s hfind same h _
    have hs := reachable_spec hroot (h.get (find?_eq_some hfind))
    exact ⟨.compared hs.2.1, documented_none⟩
  -- inquiries
  · intro session on inquiry _ _ _
    exact ⟨.noSuchScanner _, documented_none⟩
  · intro session on inquiry i s hfind h htotal
    have hs := reachable_spec hroot (h.get (find?_eq_some hfind))
    cases htotal with
    | inquire _ error? =>
        obtain ⟨hsound, hnone⟩ := inquire_sound hs.2.1 session on error?
        refine ⟨hsound, ?_⟩
        rw [hnone]
        exact documented_none
  -- blocks
  · intro session on steps _ _ _
    exact ⟨.noSuchScanner _, documented_none⟩
  · intro session on steps i s hfind answers error? after hrun ih h htotal
    cases htotal with
    | block hsteps =>
        obtain ⟨hanswers, herror⟩ := ih h hsteps
        have hleads := (step_leads hroot).2 session steps h
        rw [hrun] at hanswers herror hleads
        have hi := find?_eq_some hfind
        obtain ⟨pos, hreach, hanswer, heq, _⟩ := leave_eq hleads (h.get hi) hi answers error?
        rw [hanswer, heq]
        refine ⟨.block (reachable_spec hroot hreach).2.1 ?_ hanswers, herror⟩
        intro report hreport
        obtain ⟨e, he, rfl⟩ := Option.map_eq_some_iff.mp hreport
        exact herror e he
  -- the steps of a block
  · intro session _ _
    exact ⟨.nil, documented_none⟩
  · intro session first rest answer e after hstep ih h htotal
    rw [hstep] at ih
    obtain ⟨hsound, herror⟩ := ih h (htotal first List.mem_cons_self)
    exact ⟨.cons hsound .nil, herror⟩
  · intro session first rest answer after hstep answers error? last hrest ih ih' h htotal
    have hleads := (step_leads hroot).1 session first h
    rw [hstep] at ih hleads
    rw [hrest] at ih'
    obtain ⟨hsound, _⟩ := ih h (htotal first List.mem_cons_self)
    obtain ⟨hsounds, herror⟩ := ih' hleads.reachable fun st hst =>
      htotal st (List.mem_cons_of_mem _ hst)
    exact ⟨.cons hsound hsounds, herror⟩

theorem runAll_answers (hroot : root.Inside) (hk : root.classifier.Total) (steps : List Step)
    (h : session.ReachableFrom root) (htotal : ∀ st ∈ steps, st.Total) :
    List.Forall₂ (Step.Sound root.buffer) steps (session.runAll steps).1 := by
  induction steps generalizing session with
  | nil => exact .nil
  | cons first rest ih =>
      unfold runAll
      have hsound := ((step_sound hroot hk).1 session first h (htotal first List.mem_cons_self)).1
      have hleads := (step_leads hroot).1 session first h
      exact .cons hsound (ih hleads.reachable fun st hst => htotal st (List.mem_cons_of_mem _ hst))

/-- **A session on an accepted buffer, well formed or not, never leaves it.**  After any steps,
all scanners lie inside the buffer; every command then answers or raises an error that it
documents; a scanner that it returns lies in the window of its own.  The same holds of the answers
to the steps themselves, those of blocks included. -/
theorem runAll_sound {b : Buffer} {maxSize : Int} {k : Classifier} {steps : List Step}
    (hroot : ofBuffer b maxSize k = .ok root) (hk : k.Total) (htotal : ∀ st ∈ steps, st.Total) :
    List.Forall₂ (Step.Sound b) steps ((ofScanner root).runAll steps).1 ∧
      ∀ s ∈ ((ofScanner root).runAll steps).2.scanners,
        (s.buffer = b ∧ s.Inside) ∧ ∀ c : Command, c.Total → s.Answers c := by
  have hinside := inside_of_ofBuffer hroot
  obtain ⟨_, rfl⟩ := ofBuffer_eq_ok_iff.mp hroot
  refine ⟨runAll_answers hinside hk steps (reachableFrom_ofScanner _) htotal, ?_⟩
  intro s hs
  have hreach := runAll_reachable hinside steps (reachableFrom_ofScanner _) s hs
  obtain ⟨hs, hwithin⟩ := hreach.within hinside
  refine ⟨⟨hwithin.buffer, hs⟩, ?_⟩
  intro c hc
  refine answers_of_total hs ?_ hc
  rw [hwithin.classifier]
  exact hk

/-- A block that fails on a sequence that the buffer cuts off, between two other steps. -/
theorem runAll_sound_truncated :
    let root : Scanner := ⟨.ofList [0x61, 0xE2, 0x82], 0, 3, 0, .unicode⟩
    let steps : List Step := [
      .call "p" (some "q") (.readUntilString "b" false),
      .block "q" [.call "q" none (.advance 1), .call "q" none (.readLine true)],
      .call "p" none (.subScanner (-1) 7)]
    ofBuffer root.buffer 3 .unicode = .ok root ∧ Classifier.unicode.Total ∧
      (∀ st ∈ steps, st.Total) ∧
      List.Forall₂ (Step.Sound root.buffer) steps ((ofScanner root).runAll steps).1 := by
  intro root steps
  have hroot : ofBuffer root.buffer 3 .unicode = .ok root := by cbv
  have htotal : ∀ st ∈ steps, st.Total := by
    intro st hst
    simp only [steps, List.mem_cons, List.not_mem_nil, or_false] at hst
    rcases hst with rfl | rfl | rfl
    · exact .call (Command.total_of_none rfl rfl)
    · refine .block ?_
      intro st hst
      simp only [List.mem_cons, List.not_mem_nil, or_false] at hst
      rcases hst with rfl | rfl
      · exact .call (Command.total_of_none rfl rfl)
      · exact .call (Command.total_of_none rfl rfl)
    · exact .call (Command.total_of_none rfl rfl)
  exact ⟨hroot, Classifier.unicode_total, htotal,
    (runAll_sound hroot Classifier.unicode_total htotal).1⟩

end Session

end Utf8Scan
