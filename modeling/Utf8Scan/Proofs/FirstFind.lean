/-
Searches over bytes that need not be a text.

Going on from an offset, some characters of a window can be read one after another,
until the window ends or the bytes there are no character.  `Reads` says which these
are and what stops the reading; each window and offset has one such run.

A search asks its predicate of the characters in this order and of nothing else, so the
run decides how it ends.  The first character that satisfies the predicate is the find,
whatever comes behind it, and only a search without a find learns what stopped the
reading.  The three searches for characters share one loop and differ in the predicate
and in how an error names it.
-/
import Utf8Scan.Proofs.Lenient
import Utf8Scan.Proofs.TextRefinement

namespace Utf8Scan

namespace Scanner

variable {s : Scanner} {P : Char → Bool} {o : Nat} {run run' : List (Nat × Char)}
  {stopped? stopped?' : Option Error} {e : Error}

/-! ### What can be read -/

/-- The characters that can be read one after another from an offset, each with its own offset, and
the error that stops the reading, unless that is the end of the window. -/
inductive Reads (s : Scanner) : Nat → List (Nat × Char) → Option Error → Prop
  | ended : Reads s s.stop [] none
  | broken {o : Nat} {e : Error} (hlt : o < s.stop) (h : s.decodeAt o = .error e) :
      Reads s o [] (some e)
  | read {o : Nat} {c : Char} {width : Width} {run : List (Nat × Char)} {stopped? : Option Error}
      (h : s.decodeAt o = .ok (c, width)) (hrest : Reads s (o + width.bytes) run stopped?) :
      Reads s o ((o, c) :: run) stopped?

theorem exists_reads (ho : o ≤ s.stop) : ∃ run stopped?, s.Reads o run stopped? := by
  induction hleft : s.stop - o using Nat.strong_induction_on generalizing o with
  | _ left ih =>
      rcases Nat.lt_or_eq_of_le ho with hlt | rfl
      · cases hdecode : s.decodeAt o with
        | error e => exact ⟨_, _, .broken hlt hdecode⟩
        | ok read =>
            obtain ⟨c, width⟩ := read
            have hpos := width.bytes_pos
            have hle := decodeAt_le hdecode
            obtain ⟨run, stopped?, hrest⟩ := ih (s.stop - (o + width.bytes)) (by omega) hle rfl
            exact ⟨_, _, .read hdecode hrest⟩
      · exact ⟨_, _, .ended⟩

/-- A window and an offset determine what can be read. -/
theorem Reads.unique (h : s.Reads o run stopped?) (h' : s.Reads o run' stopped?') :
    run' = run ∧ stopped?' = stopped? := by
  induction h generalizing run' stopped?' with
  | ended =>
      cases h' with
      | ended => exact ⟨rfl, rfl⟩
      | broken hlt _ => exact absurd hlt (Nat.lt_irrefl _)
      | read hdecode _ => exact absurd (decodeAt_lt hdecode) (Nat.lt_irrefl _)
  | broken hlt hbroken =>
      cases h' with
      | ended => exact absurd hlt (Nat.lt_irrefl _)
      | broken _ hbroken' =>
          obtain rfl := Except.error.inj (hbroken.symm.trans hbroken')
          exact ⟨rfl, rfl⟩
      | read hdecode _ => cases hbroken.symm.trans hdecode
  | @read o c width run stopped? hdecode _ ih =>
      cases h' with
      | ended => exact absurd (decodeAt_lt hdecode) (Nat.lt_irrefl _)
      | broken _ hbroken => cases hdecode.symm.trans hbroken
      | read hdecode' hrest' =>
          cases hdecode.symm.trans hdecode'
          obtain ⟨rfl, rfl⟩ := ih hrest'
          exact ⟨rfl, rfl⟩

theorem Reads.breaksFrom (h : s.Reads o run (some e)) : s.BreaksFrom o e := by
  generalize hstopped : some e = stopped? at h
  induction h with
  | ended => cases hstopped
  | broken hlt h =>
      cases hstopped
      exact ⟨_, .refl, hlt, h⟩
  | read h _ ih => exact (ih hstopped).head (.single (stepsTo_of_decodeAt h))

/-! ### What a search makes of it -/

variable {test : CharTest} {before behind : List (Nat × Char)} {c : Char} {o' : Nat}

/-- A search stops at the first character that satisfies its predicate. -/
theorem Reads.seek_eq_find (h : s.Reads o run stopped?) (htest : ∀ c, test c = .ok (P c))
    (hrun : run = before ++ (o', c) :: behind) (hbefore : ∀ r ∈ before, P r.2 = false)
    (hc : P c = true) : s.seek test o = .ok (some o') := by
  induction h generalizing before with
  | ended => simp at hrun
  | broken => simp at hrun
  | @read o d width run stopped? hdecode _ ih =>
      rw [seek, if_pos (decodeAt_lt hdecode), hdecode]
      simp only [htest]
      cases before with
      | nil =>
          cases hrun
          rw [hc]
      | cons first before =>
          obtain ⟨rfl, hrest⟩ := List.cons.inj hrun
          rw [hbefore (o, d) List.mem_cons_self]
          exact ih hrest fun r hr => hbefore r (List.mem_cons_of_mem _ hr)

/-- A search without a find learns what stopped the reading. -/
theorem Reads.seek_of_none (h : s.Reads o run stopped?) (htest : ∀ c, test c = .ok (P c))
    (hrun : ∀ r ∈ run, P r.2 = false) :
    s.seek test o = stopped?.elim (.ok none) .error := by
  induction h with
  | ended => rw [seek, if_neg (Nat.lt_irrefl _), Option.elim_none]
  | broken hlt hbroken => rw [seek, if_pos hlt, hbroken, Option.elim_some]
  | @read o d width run stopped? hdecode _ ih =>
      rw [seek, if_pos (decodeAt_lt hdecode), hdecode]
      simp only [htest, hrun (o, d) List.mem_cons_self]
      exact ih fun r hr => hrun r (List.mem_cons_of_mem _ hr)

end Scanner

/-! ### The searches for characters -/

/-- The commands that search for a character, the predicate they ask, and what they call it. -/
inductive Command.Searches : Command → (Char → Bool) → Target → Bool → Prop
  | test {test : CharTest} {P : Char → Bool} (required : Bool) (h : ∀ c, test c = .ok (P c)) :
      Searches (.readUntilTest test required) P .test required
  /-- No character equals a text of another length than one. -/
  | char (text : String) (required : Bool) :
      Searches (.readUntilChar text required) (fun c => text = String.singleton c) (.text text)
        required
  | set {chars : CharSource} {set : CharSet} (required : Bool) (h : chars.resolve = .ok set) :
      Searches (.readUntilSet chars required) (fun c => chars.Has c) .charSet required

variable {s : Scanner} {c : Command} {P : Char → Bool} {target : Target} {required : Bool}

open Scan in
/-- They are one loop. -/
theorem Command.Searches.run_eq (h : c.Searches P target required) (s : Scanner) :
    ∃ test : CharTest, (∀ c, test c = .ok (P c)) ∧
      c.run s = (do return Value.scanner (← readUntil test target required) : Scan Value) s := by
  cases h with
  | @test test P required h => exact ⟨test, h, rfl⟩
  | char text required =>
      exact ⟨.equals text, CharTest.equals_eq text, rfl⟩
  | @set chars set required h =>
      exact ⟨.inSet set, CharTest.inSet_eq h, bind_congr (withChars_of_ok h _ s)⟩

/-- Where the loop ends well, so does the search. -/
theorem Command.Searches.run_of_ok (h : c.Searches P target required) {t : Scanner} {pos : Nat}
    {found? : Option Nat}
    (hseek : ∀ test : CharTest, (∀ c, test c = .ok (P c)) → s.seek test s.pos = .ok found?)
    (hfinish : s.finish target required found? = .ok (t, pos)) :
    c.run s = .ok (.scanner t) { s with pos := pos } := by
  obtain ⟨test, htest, hrun⟩ := h.run_eq s
  rw [hrun]
  refine Scan.bind_of_ok ?_
  simp only [Scan.readUntil, Scan.step, hseek test htest, Except.bind, hfinish]

/-- Where the loop fails, or ends without a find that is required, so does the search. -/
theorem Command.Searches.run_of_error (h : c.Searches P target required) {e : Error}
    (hseek : ∀ test : CharTest, (∀ c, test c = .ok (P c)) →
      (s.seek test s.pos).bind (s.finish target required) = .error e) :
    c.run s = .error e s := by
  obtain ⟨test, htest, hrun⟩ := h.run_eq s
  rw [hrun]
  refine Scan.bind_of_error ?_
  simp only [Scan.readUntil, Scan.step, hseek test htest]

namespace Scanner

variable {root : Scanner} {b : Buffer} {maxSize : Int} {k : Classifier}
  {run : List (Nat × Char)} {stopped? : Option Error}

/-- How a search from the cursor ends, by the characters that can be read from there and by what
stops the reading. -/
structure EndsSearch (s : Scanner) (P : Char → Bool) (target : Target) (required : Bool)
    (run : List (Nat × Char)) (stopped? : Option Error)
    (result : EStateM.Result Error Scanner Value) : Prop where
  /-- The first character that satisfies the predicate is the find, whatever comes behind it. -/
  found : ∀ before o c behind, run = before ++ (o, c) :: behind →
    (∀ r ∈ before, P r.2 = false) → P c = true →
    result = .ok (.scanner (s.view s.pos o)) { s with pos := o }
  /-- Without a find, the search fails as the reading does. -/
  broken : ∀ e, (∀ r ∈ run, P r.2 = false) → stopped? = some e → result = .error e s
  /-- A find that is required and missing is an error at the cursor. -/
  missing : (∀ r ∈ run, P r.2 = false) → stopped? = none → required = true →
    ∃ x : ScanError, result = .error (.scan x) s ∧ x = .notFound target s.pos ∧
      x.kind = .overflow ∧ x.position = s.pos
  /-- A find that is not required leaves the rest of the window. -/
  rest : (∀ r ∈ run, P r.2 = false) → stopped? = none → required = false →
    result = .ok (.scanner (s.view s.pos s.stop)) { s with pos := s.stop }

theorem Reads.endsSearch (h : s.Reads s.pos run stopped?) (hc : c.Searches P target required) :
    s.EndsSearch P target required run stopped? (c.run s) where
  found before o d behind hrun hbefore hd :=
    hc.run_of_ok (fun test htest => h.seek_eq_find htest hrun hbefore hd) rfl
  broken e hrun hstopped := by
    refine hc.run_of_error fun test htest => ?_
    rw [h.seek_of_none htest hrun, hstopped]
    rfl
  missing hrun hstopped hrequired := by
    refine ⟨.notFound target s.pos, hc.run_of_error fun test htest => ?_, rfl, rfl, rfl⟩
    rw [h.seek_of_none htest hrun, hstopped, hrequired]
    rfl
  rest hrun hstopped hrequired := by
    have hseek (test : CharTest) (htest : ∀ c, test c = .ok (P c)) :
        s.seek test s.pos = .ok none := by
      rw [h.seek_of_none htest hrun, hstopped, Option.elim_none]
    refine hc.run_of_ok hseek ?_
    rw [hrequired]
    rfl

/-- **In every reachable state, the characters that can be read from the cursor and what stops the
reading decide how a search for a character ends.**  There is one such run, and it is stopped by
the end of the window, by malformed bytes or by a sequence that the window cuts off.  The buffer
may hold any bytes. -/
theorem Reachable.run_searches (hroot : ofBuffer b maxSize k = .ok root) (h : root.Reachable s)
    (hc : c.Searches P target required) :
    ∃ run stopped?, s.Reads s.pos run stopped? ∧
      (∀ run' stopped?', s.Reads s.pos run' stopped?' → run' = run ∧ stopped?' = stopped?) ∧
      (∀ e ∈ stopped?, (∃ o reason, e = .scan (.malformed o reason)) ∨
        ∃ (o : Nat) (width : Width), e = .scan (.truncated o width) ∧ s.CutsOff o width) ∧
      s.EndsSearch P target required run stopped? (c.run s) := by
  have hs := h.inside (inside_of_ofBuffer hroot)
  obtain ⟨run, stopped?, hreads⟩ := s.exists_reads hs.pos_le_stop
  refine ⟨run, stopped?, hreads, ?_, ?_, hreads.endsSearch hc⟩
  · intro run' stopped?' h'
    exact hreads.unique h'
  · intro e he
    obtain rfl : stopped? = some e := he
    rcases hreads.breaksFrom.error hs with hmalformed | ⟨o, width, rfl, _, hcut⟩
    · exact Or.inl hmalformed
    · exact Or.inr ⟨o, width, rfl, hcut⟩

/-- The bytes behind the semicolon are malformed.  A search for the semicolon does not learn that,
and a search for a character behind them does. -/
theorem Reachable.run_searches_malformed :
    let root : Scanner := ⟨.ofList [0x61, 0x3B, 0xC3, 0x28, 0x78], 0, 5, 0, .unicode⟩
    let semicolon : Char → Bool := fun c => ";" = String.singleton c
    let x : Char → Bool := fun c => "x" = String.singleton c
    ofBuffer root.buffer 5 .unicode = .ok root ∧ root.Reachable root ∧
      (Command.readUntilChar ";" true).Searches semicolon (.text ";") true ∧
      (Command.readUntilChar "x" true).Searches x (.text "x") true ∧
      root.Reads 0 [(0, 'a'), (1, ';')] (some (.scan (.malformed 3 .continuationMissing))) ∧
      (Command.readUntilChar ";" true).run root
        = .ok (.scanner (root.view 0 1)) { root with pos := 1 } ∧
      (Command.readUntilChar "x" true).run root
        = .error (.scan (.malformed 3 .continuationMissing)) root := by
  intro root semicolon x
  have hroot : ofBuffer root.buffer 5 .unicode = .ok root := by cbv
  have hreads : root.Reads 0 [(0, 'a'), (1, ';')]
      (some (.scan (.malformed 3 .continuationMissing))) := by
    have ha : root.decodeAt 0 = .ok ('a', .one) := by decide
    have hsemicolon : root.decodeAt 1 = .ok (';', .one) := by decide
    exact .read ha (.read hsemicolon (.broken (by decide) (by decide)))
  have hsemicolon : (Command.readUntilChar ";" true).Searches semicolon (.text ";") true :=
    .char ";" true
  have hx : (Command.readUntilChar "x" true).Searches x (.text "x") true := .char "x" true
  obtain ⟨run, stopped?, _, hunique, _, hends⟩ := Reachable.run_searches hroot .root hsemicolon
  obtain ⟨rfl, rfl⟩ := hunique _ _ hreads
  obtain ⟨run, stopped?, _, hunique', _, hends'⟩ := Reachable.run_searches hroot .root hx
  obtain ⟨rfl, rfl⟩ := hunique' _ _ hreads
  refine ⟨hroot, .root, hsemicolon, hx, hreads, ?_, ?_⟩
  · exact hends.found [(0, 'a')] 1 ';' [] rfl (by decide) (by decide)
  · exact hends'.broken _ (by decide) rfl

end Scanner

end Utf8Scan
