/-
What a block under backtracking does to the scanners of a program.

The steps of a session cannot catch an error.  A program that uses the library can: it
may catch the error that left an inner block and go on, let it pass, or raise another.
`Program` is the tree of what such a program does, where every step has a branch for
each thing that can come of it, and a session's steps are the programs that catch
nothing.

A run tells which calls returned and which blocks were left by which error.  What counts
for the cursor of a scanner are the calls on it that returned, except those in a block on
it that was left by an error of scanning.  The invariant of a run is that the last call
that counts has left the cursor where it is, and that the window is the old one.  It holds
across a block because leaving the block discards just the calls that do not count.
-/
import Utf8Scan.Proofs.Session

namespace Utf8Scan

/-! ### Programs -/

/-- What can be told of a run. -/
inductive Event where
  /-- A call on the scanner with a number returned and left its cursor at an offset. -/
  | returned (number pos : Nat)
  /-- A block on the scanner with a number was left, by an error or at its end. -/
  | block (number : Nat) (events : List Event) (error? : Option Error)

/-- A program on the scanners of a session.  It goes on as it likes with what came of a step, so it
may catch the error of a call or of a block, and it may raise any error itself. -/
inductive Program where
  | done
  | raise (e : Error)
  /-- Decides by anything that is known. -/
  | look (next : Session → Program)
  | call (on : String) (keep? : Option String) (command : Command)
      (next : Answer → Option Error → Program)
  | inquire (on : String) (inquiry : Inquiry) (next : Answer → Option Error → Program)
  /-- Makes a scanner for another source. -/
  | create (name : String) (source : Scanner.Source) (maxSize : Int) (k : Classifier)
      (next : Option Error → Program)
  /-- Runs a body under backtracking; the rest begins with the error that left it. -/
  | block (on : String) (body : Program) (next : Option Error → Program)

namespace Program

/-- What comes of running a program. -/
structure Result where
  events : List Event
  /-- The error that the program lets pass. -/
  error? : Option Error
  session : Session

/-- The event of a call, if it returned. -/
def called (i : Nat) : Answer → List Event
  | .value _ state => [.returned i state.pos]
  | _ => []

def run : Program → Session → Result
  | done, session => ⟨[], none, session⟩
  | raise e, session => ⟨[], some e, session⟩
  | look next, session => (next session).run session
  | call on keep? command next, session =>
    match session.find? on with
    | none => (next .noSuchScanner none).run session
    | some (i, s) =>
      let (answer, error?, after) := session.call i s keep? command
      let rest := (next answer error?).run after
      { rest with events := called i answer ++ rest.events }
  | inquire on inquiry next, session =>
    match session.find? on with
    | none => (next .noSuchScanner none).run session
    | some (_, s) =>
      let (answer, error?, after) := session.inquire s inquiry
      (next answer error?).run after
  | create name source maxSize k next, session =>
    match Scanner.ofSource source maxSize k with
    | .error e => (next (some e)).run session
    | .ok s => (next none).run (session.keep name s)
  | block on body next, session =>
    match session.find? on with
    | none => (next none).run session
    | some (i, s) =>
      let inner := body.run session
      let (error?, after) := (inner.session.leave i s.pos [] inner.error?).2
      let rest := (next error?).run after
      { rest with events := .block i inner.events inner.error? :: rest.events }

end Program

/-! ### Which calls count -/

/-- Whether an error that leaves a block puts the cursor back. -/
def Error.backtracks : Option Error → Bool
  | some (.scan _) => true
  | _ => false

mutual

/-- The offsets at which the calls that count left the cursor of a scanner.  None counts in a block
on that scanner that was left by an error of scanning. -/
def Event.counted (number : Nat) : Event → List Nat
  | .returned i pos => if i = number then [pos] else []
  | .block i events error? =>
    if i = number ∧ Error.backtracks error? then [] else countedAmong number events

def countedAmong (number : Nat) : List Event → List Nat
  | [] => []
  | event :: events => event.counted number ++ countedAmong number events

end

/-- Where the last call that counts left the cursor of a scanner, or where the cursor was. -/
def cursorAfter (number entry : Nat) (events : List Event) : Nat :=
  (countedAmong number events).getLast?.getD entry

theorem countedAmong_append (number : Nat) (events events' : List Event) :
    countedAmong number (events ++ events')
      = countedAmong number events ++ countedAmong number events' := by
  induction events with
  | nil => rfl
  | cons event events ih =>
      rw [List.cons_append, countedAmong, countedAmong, ih, List.append_assoc]

theorem cursorAfter_append (number entry : Nat) (events events' : List Event) :
    cursorAfter number entry (events ++ events')
      = cursorAfter number (cursorAfter number entry events) events' := by
  rw [cursorAfter, cursorAfter, countedAmong_append, List.getLast?_append]
  cases (countedAmong number events').getLast? with
  | none => rfl
  | some pos => rfl

theorem cursorAfter_returned (number entry pos : Nat) :
    cursorAfter number entry [.returned number pos] = pos := by
  simp [cursorAfter, countedAmong, Event.counted]

theorem cursorAfter_returned_of_ne {number other : Nat} (h : other ≠ number) (entry pos : Nat) :
    cursorAfter number entry [.returned other pos] = entry := by
  simp [cursorAfter, countedAmong, Event.counted, h]

/-- For its own scanner, a block that puts the cursor back counts as if nothing was called in it. -/
theorem cursorAfter_block_of_backtracks (number entry : Nat) (events : List Event)
    {error? : Option Error} (h : Error.backtracks error? = true) :
    cursorAfter number entry [.block number events error?] = entry := by
  simp [cursorAfter, countedAmong, Event.counted, h]

theorem cursorAfter_block_of_not_backtracks (number other entry : Nat) (events : List Event)
    {error? : Option Error} (h : other ≠ number ∨ Error.backtracks error? = false) :
    cursorAfter number entry [.block other events error?] = cursorAfter number entry events := by
  have hcounted : ¬ (other = number ∧ Error.backtracks error? = true) := by
    rintro ⟨hnumber, hbacktracks⟩
    rcases h with h | h
    · exact h hnumber
    · rw [h] at hbacktracks
      cases hbacktracks
  rw [cursorAfter, countedAmong, countedAmong, Event.counted, if_neg hcounted, List.append_nil]
  rfl

/-! ### What a run keeps -/

/-- A scanner that commands make from one for an accepted buffer. -/
def Scanner.Arises (s : Scanner) : Prop :=
  ∃ b maxSize k root, Scanner.ofBuffer b maxSize k = .ok root ∧ root.Reachable s

namespace Scanner.Arises

variable {s t left : Scanner} {c : Command} {value : Value}

theorem inside (h : s.Arises) : s.Inside := by
  obtain ⟨b, maxSize, k, root, hroot, hs⟩ := h
  exact hs.inside (inside_of_ofBuffer hroot)

theorem run (h : s.Arises) (hrun : c.run s = .ok value left) : left.Arises := by
  obtain ⟨b, maxSize, k, root, hroot, hs⟩ := h
  exact ⟨b, maxSize, k, root, hroot, hs.run hrun⟩

theorem returned (h : s.Arises) (hrun : c.run s = .ok (.scanner t) left) : t.Arises := by
  obtain ⟨b, maxSize, k, root, hroot, hs⟩ := h
  exact ⟨b, maxSize, k, root, hroot, .returned hs hrun⟩

theorem of_ofSource {source : Scanner.Source} {maxSize : Int} {k : Classifier}
    (h : Scanner.ofSource source maxSize k = .ok s) : s.Arises := by
  cases source with
  | buffer b => exact ⟨b, maxSize, k, s, h, .root⟩
  | other typeName => cases h

end Scanner.Arises

namespace Session

variable {session inner later last : Session} {s t : Scanner} {i : Nat}
  {events events' : List Event}

/-- All scanners of a session arise from accepted buffers, which may be different ones. -/
def Arises (session : Session) : Prop := ∀ s ∈ session.scanners, s.Arises

theorem arises_of_reachableFrom {b : Buffer} {maxSize : Int} {k : Classifier} {root : Scanner}
    (hroot : Scanner.ofBuffer b maxSize k = .ok root) (h : session.ReachableFrom root) :
    session.Arises := fun s hs => ⟨b, maxSize, k, root, hroot, h s hs⟩

/-- What a run with some events leads to: every scanner is where the last call that counts has left
it, and has its old window. -/
structure Runs (session : Session) (events : List Event) (later : Session) : Prop where
  arises : later.Arises
  cursor : ∀ (i : Nat) (s : Scanner), session.scanners[i]? = some s →
    later.scanners[i]? = some { s with pos := cursorAfter i s.pos events }

theorem Runs.refl (h : session.Arises) : session.Runs [] session := ⟨h, fun _ _ hi => hi⟩

theorem Runs.trans (h : session.Runs events later) (h' : later.Runs events' last) :
    session.Runs (events ++ events') last := by
  refine ⟨h'.arises, ?_⟩
  intro i s hi
  have hlast := h'.cursor i _ (h.cursor i s hi)
  rw [cursorAfter_append]
  exact hlast

theorem Arises.get (h : session.Arises) (hi : session.scanners[i]? = some s) : s.Arises :=
  h s (Array.mem_of_getElem? hi)

theorem Runs.remember (h : session.Runs events later) (e : Error) :
    session.Runs events (later.remember e) := by
  refine ⟨?_, ?_⟩
  · intro s hs
    rw [remember_scanners] at hs
    exact h.arises s hs
  · intro i s hi
    rw [remember_scanners]
    exact h.cursor i s hi

theorem Runs.keep (h : session.Runs events later) (name : String) (ht : t.Arises) :
    session.Runs events (later.keep name t) := by
  refine ⟨?_, ?_⟩
  · intro s hs
    rcases Array.mem_push.mp hs with hs | rfl
    · exact h.arises s hs
    · exact ht
  · intro i s hi
    exact getElem?_keep (h.cursor i s hi) name t

/-- The cursor of one scanner is put somewhere, and the events say so of it and of no other. -/
theorem Runs.put {pos : Nat} (h : session.Runs events later)
    (hi : session.scanners[i]? = some s) (hs : ({ s with pos := pos } : Scanner).Arises)
    (hself : cursorAfter i s.pos events' = pos)
    (hother : ∀ j ≠ i, ∀ entry, cursorAfter j entry events' = cursorAfter j entry events) :
    session.Runs events' (later.put i { s with pos := pos }) := by
  refine ⟨?_, ?_⟩
  · intro t ht
    rcases Array.mem_or_eq_of_mem_setIfInBounds ht with ht | rfl
    · exact h.arises t ht
    · exact hs
  · intro j t hj
    by_cases hij : i = j
    · subst hij
      obtain rfl : s = t := Option.some.inj (hi.symm.trans hj)
      rw [getElem?_put_self (h.cursor i s hi), hself]
    · rw [getElem?_put_of_ne later hij, h.cursor j t hj, hother j (Ne.symm hij)]

/-! ### Steps -/

/-- A call that returns moves its own scanner, and a call that fails moves none. -/
theorem call_runs (h : session.Arises) (hi : session.scanners[i]? = some s)
    (keep? : Option String) (c : Command) :
    session.Runs (Program.called i (session.call i s keep? c).1)
      (session.call i s keep? c).2.2 := by
  have hs := h.get hi
  have hrefl := Runs.refl h
  unfold call
  split
  · rename_i value left hrun
    obtain ⟨pos, _, heq⟩ := Scanner.after_eq hs.inside c
    obtain rfl : left = { s with pos := pos } := (Scanner.after_of_ok hrun).symm.trans heq
    have hput := hrefl.put hi (hs.run hrun) (cursorAfter_returned i s.pos pos)
      fun j hj entry => cursorAfter_returned_of_ne (Ne.symm hj) entry pos
    unfold keepValue
    split
    · exact hput.keep _ (hs.returned hrun)
    · exact hput
  · rename_i e left hrun
    obtain rfl := (Scanner.run_error hs.inside hrun).1
    exact (hrefl.put hi hs rfl fun _ _ _ => rfl).remember e

theorem inquire_runs (h : session.Arises) (s : Scanner) (inquiry : Inquiry) :
    session.Runs [] (session.inquire s inquiry).2.2 := by
  rcases inquire_eq session s inquiry with heq | ⟨e, heq⟩
  · rw [heq]
    exact .refl h
  · rw [heq]
    exact (Runs.refl h).remember e

/-- What a block leaves behind does not depend on the answers that it reports. -/
theorem leave_snd (session : Session) (i entry : Nat) (answers answers' : List Answer)
    (error? : Option Error) :
    (session.leave i entry answers error?).2 = (session.leave i entry answers' error?).2 := by
  unfold leave
  cases session.scanners[i]? with
  | none => rfl
  | some s => rfl

/-- Leaving a block lets the error pass and puts the cursor back if it is one of scanning. -/
theorem leave_eq_put (hi : inner.scanners[i]? = some t) (entry : Nat) (answers : List Answer)
    (error? : Option Error) :
    (inner.leave i entry answers error?).2 = (error?, inner.put i
      { t with pos := if Error.backtracks error? then entry else t.pos }) := by
  unfold leave
  rw [hi]
  rcases error? with _ | e
  · rfl
  cases e with
  | scan x => rfl
  | _ => rfl

/-- Leaving a block puts the cursor of its own scanner where the calls that count have left it. -/
theorem leave_runs (h : session.Runs events inner) (hi : session.scanners[i]? = some s)
    (hs : s.Arises) (answers : List Answer) (error? : Option Error) :
    session.Runs [.block i events error?] (inner.leave i s.pos answers error?).2.2 := by
  have hinner := h.cursor i s hi
  have hother (j : Nat) (hj : j ≠ i) (entry : Nat) :
      cursorAfter j entry [.block i events error?] = cursorAfter j entry events :=
    cursorAfter_block_of_not_backtracks j i entry events (Or.inl (Ne.symm hj))
  rw [leave_eq_put hinner]
  cases hback : Error.backtracks error? with
  | true =>
      have hself := cursorAfter_block_of_backtracks i s.pos events hback
      exact h.put (s := s) hi hs hself hother
  | false =>
      have hself := cursorAfter_block_of_not_backtracks i i s.pos events (Or.inr hback)
      exact h.put (s := s) hi (h.arises.get hinner) hself hother

end Session

/-! ### Runs -/

namespace Program

variable {session : Session}

/-- **After any program, every scanner is where the last call that counts has left it.** -/
theorem run_runs (program : Program) (h : session.Arises) :
    session.Runs (program.run session).events (program.run session).session := by
  induction program generalizing session with
  | done => exact .refl h
  | raise e => exact .refl h
  | look next ih => exact ih session h
  | call on keep? command next ih =>
      rw [run]
      cases hfind : session.find? on with
      | none => exact ih _ _ h
      | some found =>
          obtain ⟨i, s⟩ := found
          have hcall := Session.call_runs h (Session.find?_eq_some hfind) keep? command
          exact hcall.trans (ih _ _ hcall.arises)
  | inquire on inquiry next ih =>
      rw [run]
      cases hfind : session.find? on with
      | none => exact ih _ _ h
      | some found =>
          have hinquire := Session.inquire_runs h found.2 inquiry
          exact hinquire.trans (ih _ _ hinquire.arises)
  | create name source maxSize k next ih =>
      rw [run]
      cases hsource : Scanner.ofSource source maxSize k with
      | error e => exact ih _ h
      | ok s =>
          have hkeep := (Session.Runs.refl h).keep name (Scanner.Arises.of_ofSource hsource)
          exact hkeep.trans (ih _ hkeep.arises)
  | block on body next ihbody ih =>
      rw [run]
      cases hfind : session.find? on with
      | none => exact ih _ h
      | some found =>
          obtain ⟨i, s⟩ := found
          have hi := Session.find?_eq_some hfind
          have hbody := ihbody h
          have hleave := Session.leave_runs hbody hi (h.get hi) [] (body.run session).error?
          exact hleave.trans (ih _ hleave.arises)

/-! ### Session steps are programs -/

/-- Goes on unless there is an error, which is let pass. -/
def onward (rest : Program) : Option Error → Program
  | none => rest
  | some e => .raise e

mutual

/-- A step of a session, and what comes after it unless it raises an error. -/
def ofStep (rest : Program) : Step → Program
  | .call on keep? command => .call on keep? command fun _ => rest.onward
  | .sameBuffer _ _ => rest
  | .inquire on inquiry => .inquire on inquiry fun _ => rest.onward
  | .block on steps => .block on (ofSteps steps) rest.onward

def ofSteps : List Step → Program
  | [] => .done
  | first :: rest => ofStep (ofSteps rest) first

end

/-- How a run ends. -/
def Result.ending (result : Result) : Option Error × Session := (result.error?, result.session)

/-- Steps up to an error are a program that catches nothing, and end as it does. -/
theorem run_ofSteps :
    (∀ (session : Session) (st : Step) (rest : Program), ((ofStep rest st).run session).ending
      = ((rest.onward (session.step st).2.1).run (session.step st).2.2).ending) ∧
    ∀ (session : Session) (steps : List Step),
      ((ofSteps steps).run session).ending = (session.upToError steps).2 := by
  refine Session.step.mutual_induct_unfolding
    (fun session st out => ∀ rest : Program,
      ((ofStep rest st).run session).ending = ((rest.onward out.2.1).run out.2.2).ending)
    (fun session steps out => ((ofSteps steps).run session).ending = out.2)
    ?_ ?_ ?_ ?_ ?_ ?_ ?_ ?_ ?_ ?_ ?_
  -- calls
  · intro session on keep? c hfind rest
    rw [ofStep, run, hfind]
  · intro session on keep? c i s hfind rest
    rw [ofStep, run, hfind]
    rfl
  -- comparisons
  · intro session on other _ rest
    rfl
  · intro session on other i s _ same rest
    rfl
  -- inquiries
  · intro session on inquiry hfind rest
    rw [ofStep, run, hfind]
  · intro session on inquiry i s hfind rest
    rw [ofStep, run, hfind]
  -- blocks
  · intro session on steps hfind rest
    rw [ofStep, run, hfind]
  · intro session on steps i s hfind answers error? after hrun ih rest
    rw [hrun] at ih
    obtain ⟨herror, hsession⟩ := Prod.mk.inj ih
    have hleave := after.leave_snd i s.pos [] answers error?
    rw [ofStep, run, hfind]
    simp only [herror, hsession, hleave]
    rfl
  -- the steps of a block
  · intro session
    rfl
  · intro session first rest answer e after hstep ih
    rw [hstep] at ih
    exact ih _
  · intro session first rest answer after hstep answers error? last hrest ih ih'
    rw [hstep] at ih
    rw [hrest] at ih'
    exact (ih _).trans ih'

/-! ### Leaving a block -/

/-- A block and nothing else, which lets pass the error that left it. -/
def within (on : String) (body : Program) : Program := .block on body done.onward

/-- A block of a session is such a program. -/
theorem run_within_ofSteps (session : Session) (on : String) (steps : List Step) :
    ((within on (ofSteps steps)).run session).ending = (session.step (.block on steps)).2 := by
  refine (run_ofSteps.1 session (.block on steps) done).trans ?_
  cases h : (session.step (.block on steps)).2.1 with
  | none => exact Prod.ext h.symm rfl
  | some e => exact Prod.ext h.symm rfl

/-- The block lets pass what its body lets pass, and changes one cursor at most. -/
theorem run_within {on : String} {i : Nat} {s t : Scanner} {body : Program}
    (hon : session.find? on = some (i, s))
    (hinner : (body.run session).session.scanners[i]? = some t) :
    ((within on body).run session).error? = (body.run session).error? ∧
      ((within on body).run session).session = (body.run session).session.put i
        { t with pos := if Error.backtracks (body.run session).error? then s.pos else t.pos } := by
  have hleave := Session.leave_eq_put hinner s.pos [] (body.run session).error?
  rw [within, run, hon]
  simp only [hleave]
  cases (body.run session).error? with
  | none => exact ⟨rfl, rfl⟩
  | some e => exact ⟨rfl, rfl⟩

/-- **Whatever a program does in a block, leaving it touches the cursor of the block's own scanner
and nothing else, and that only for an error of scanning.**  The body may call any operations on
any scanners, make further ones, run blocks inside blocks and catch what leaves them.  If an error
of scanning leaves the block, its scanner is as it was before; otherwise its cursor is where the
last call that counts has left it. -/
theorem within_backtracks {on : String} {i : Nat} {s : Scanner} (h : session.Arises)
    (hon : session.find? on = some (i, s)) (body : Program) :
    let inner := body.run session
    let outer := (within on body).run session
    outer.error? = inner.error? ∧
      (∀ x, inner.error? = some (.scan x) → outer.session.scanners[i]? = some s) ∧
      ((∀ x, inner.error? ≠ some (.scan x)) → outer.session.scanners[i]?
        = some { s with pos := cursorAfter i s.pos inner.events }) ∧
      inner.session.scanners[i]? = some { s with pos := cursorAfter i s.pos inner.events } ∧
      ∀ j ≠ i, outer.session.scanners[j]? = inner.session.scanners[j]? := by
  intro inner outer
  have hinner := (body.run_runs h).cursor i s (Session.find?_eq_some hon)
  obtain ⟨herror, hsession⟩ := run_within hon hinner
  have hput := Session.getElem?_put_self hinner
    { s with pos := if Error.backtracks inner.error? then s.pos
      else cursorAfter i s.pos inner.events }
  have hself : outer.session.scanners[i]? = _ := (congrArg (·.scanners[i]?) hsession).trans hput
  refine ⟨herror, ?_, ?_, hinner, ?_⟩
  · intro x hx
    rw [hself, hx]
    rfl
  · intro hother
    have hpasses : Error.backtracks inner.error? = false := by
      unfold Error.backtracks
      split
      · rename_i x hx
        exact absurd hx (hother x)
      · rfl
    rw [hself, hpasses]
    rfl
  · intro j hj
    have hne := Session.getElem?_put_of_ne inner.session (Ne.symm hj)
    exact (congrArg (·.scanners[j]?) hsession).trans (hne _)

/-- An error of scanning leaves two blocks, one of them on a part, and is caught; then an error of
another kind leaves the outermost block, and the move before the blocks counts. -/
theorem within_backtracks_caught :
    let root : Scanner := ⟨.ofList [0x61, 0x62, 0x63, 0x64], 0, 4, 0, .unicode⟩
    let session : Session := .ofScanner root
    let search : Program :=
      .call "p" none (.advance 2) fun _ _ =>
      .call "p" (some "q") (.subScanner 1 3) fun _ _ =>
      .block "q" (.call "q" none (.expectChar "z") fun _ => done.onward) done.onward
    let body : Program :=
      .call "p" none (.advance 1) fun _ _ =>
      .block "p" search fun _ =>
      .call "p" none (.retreat (-1)) fun _ => done.onward
    let outer := (within "p" body).run session
    session.Arises ∧ session.find? "p" = some (0, root) ∧
      outer.error? = some (.argument (.negativeRetreat (-1))) ∧
      outer.session.scanners[0]? = some { root with pos := 1 } := by
  intro root session search body outer
  have hroot : Scanner.ofBuffer root.buffer 4 .unicode = .ok root := by cbv
  have harises : session.Arises :=
    Session.arises_of_reachableFrom hroot (Session.reachableFrom_ofScanner root)
  have hon : session.find? "p" = some (0, root) := by rfl
  have hrun : (body.run session).error? = some (.argument (.negativeRetreat (-1))) := by
    decide +kernel
  have hevents : cursorAfter 0 0 (body.run session).events = 1 := by decide +kernel
  obtain ⟨herror, _, hstays, _⟩ := within_backtracks harises hon body
  refine ⟨harises, hon, herror.trans hrun, ?_⟩
  rw [hstays (by simp [hrun]), hevents]

end Program

end Utf8Scan
