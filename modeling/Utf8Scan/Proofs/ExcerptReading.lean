/-
What a scanner reads in its own part of a buffer.

Two scanners are compared, one for the part by itself and its image in the whole buffer.
A reading gives the same result on both sides, with offsets moved.  An error is moved
likewise, except one that a caller's own test or the classifier has raised: such an
error knows nothing of the part, so it is the very same on both sides.  `Agree` says this
of results, and the loops that ask a test are compared by it.
-/
import Utf8Scan.Proofs.Excerpt

namespace Utf8Scan

/-! ### Moving offsets -/

/-- The error with its offsets moved.  One that names no place, or was made outside this library,
stays as it is. -/
def ScanError.shift (base : Nat) : ScanError → ScanError
  | overflow offset => overflow (base + offset)
  | underflow offset => underflow (base + offset)
  | notFound target offset => notFound target (base + offset)
  | truncated offset width => truncated (base + offset) width
  | malformed offset reason => malformed (base + offset) reason
  | unexpected expected found offset => unexpected expected found (base + offset)
  | emptyTarget operation => emptyTarget operation
  | custom kind content position => custom kind content position

/-- The offsets of an argument are moved with the window that it does not fit. -/
def ArgumentError.shift (base : Nat) : ArgumentError → ArgumentError
  | startInsideCharacter start => startInsideCharacter (base + start)
  | stopInsideCharacter stop => stopInsideCharacter (base + stop)
  | outsideWindow start stop windowStart windowStop =>
    outsideWindow (base + start) (base + stop) (base + windowStart) (base + windowStop)
  | unusableMark mark windowStart windowStop =>
    unusableMark (base + mark) (base + windowStart) (base + windowStop)
  | a => a

def Error.shift (base : Nat) : Error → Error
  | scan e => scan (e.shift base)
  | argument a => argument (a.shift base)
  | e => e

/-- The family of an error of scanning. -/
def Error.kind? : Error → Option ErrorKind
  | scan e => some e.kind
  | _ => none

/-- What a diagnostic says apart from where. -/
def Diagnostic.fields (d : Diagnostic) : Code × Datum × Datum × Datum × String :=
  (d.code, d.hint, d.expected, d.found, d.severity)

section Shift

variable (base : Nat) (e : ScanError)

theorem Error.kind?_shift (e : Error) : (e.shift base).kind? = e.kind? := by
  cases e with
  | scan e => cases e <;> rfl
  | _ => rfl

theorem ScanError.fields_shift :
    (e.shift base).diagnostic?.map Diagnostic.fields = e.diagnostic?.map Diagnostic.fields := by
  -- The fields are compared one by one: comparing the diagnostics would write out their messages.
  cases e <;> simp only [ScanError.shift, ScanError.diagnostic?, Option.map_some,
    Diagnostic.fields, Diagnostic.overflow, Diagnostic.underflow, Diagnostic.notFound,
    Diagnostic.truncatedSequence, Diagnostic.invalidCharacter, Diagnostic.unexpected]

theorem Fault.shift_errorAhead (fault : Fault) (offset : Nat) :
    fault.errorAhead (base + offset : Nat) = (fault.errorAhead offset).shift base := by
  cases fault with
  | malformed displacement reason =>
      simp only [Fault.errorAhead, Error.shift, ScanError.shift, Nat.cast_add, Int.add_assoc]
  | _ => rfl

theorem Fault.shift_errorBehind (fault : Fault) (offset floor : Nat) :
    fault.errorBehind (base + offset : Nat) (base + floor : Nat)
      = (fault.errorBehind offset floor).shift base := by
  cases fault with
  | exhausted => rfl
  | unreadable => rfl
  | truncated width => rfl
  | malformed displacement reason => exact shift_errorAhead base (.malformed _ _) offset

end Shift

/-! ### Results side by side -/

/-- An error on the whole buffer goes with one on the part: it is the same one with its offsets
moved, or it is one of a caller's own, and then it is just the same. -/
inductive Error.Follows (base : Nat) (own : Error → Prop) : Error → Error → Prop
  | shift (e : Error) : Follows base own (e.shift base) e
  | own {e : Error} (h : own e) : Follows base own e e

/-- The errors of a test are among some. -/
def CharTest.RaisesOnly (test : CharTest) (own : Error → Prop) : Prop :=
  ∀ c e, test c = .error e → own e

theorem CharTest.Total.raisesOnly {test : CharTest} (h : test.Total) (own : Error → Prop) :
    test.RaisesOnly own := fun c e he => absurd he (h c e)

namespace Excerpt

variable {x : Excerpt} {t : Scanner} {own : Error → Prop} {α β : Type} {o : Nat}

/-- The same window at its place in the whole buffer. -/
def embed (x : Excerpt) (t : Scanner) : Scanner where
  buffer := x.whole
  start := x.base + t.start
  stop := x.base + t.stop
  pos := x.base + t.pos
  classifier := t.classifier

/-- A scanner for the part by itself. -/
structure Has (x : Excerpt) (t : Scanner) : Prop where
  buffer : t.buffer = x.part
  inside : t.Inside

theorem Has.stop_le (h : x.Has t) : t.stop ≤ x.length := by
  have hstop := h.inside.stop_le_size
  rwa [h.buffer, x.size_part] at hstop

/-- A result on the part, as it is told of the whole buffer. -/
def tell (x : Excerpt) (f : α → β) : Except Error α → Except Error β
  | .ok a => .ok (f a)
  | .error e => .error (e.shift x.base)

/-- Results that go together: both are values, and the values do, or both are errors, and those
do. -/
inductive Agree (x : Excerpt) (own : Error → Prop) (V : α → α → Prop) :
    Except Error α → Except Error α → Prop
  | ok {a a' : α} (h : V a a') : Agree x own V (.ok a) (.ok a')
  | error {e e' : Error} (h : e.Follows x.base own e') : Agree x own V (.error e) (.error e')

/-- Results that go with a cursor, which is moved. -/
def Moved (x : Excerpt) (V : α → α → Prop) (r r' : α × Nat) : Prop :=
  V r.1 r'.1 ∧ r.2 = x.base + r'.2

namespace Agree

variable {V : α → α → Prop} {W : β → β → Prop} {r r' : Except Error α}

theorem of_tell {f : α → α} (hr : r = x.tell f r') (hV : ∀ a, r' = .ok a → V (f a) a) :
    x.Agree own V r r' := by
  subst hr
  cases r' with
  | ok a => exact .ok (hV a rfl)
  | error e => exact .error (.shift e)

theorem map {f f' : α → β} (h : x.Agree own V r r')
    (hf : ∀ a a', r' = .ok a' → V a a' → W (f a) (f' a')) :
    x.Agree own W (r.map f) (r'.map f') := by
  cases h with
  | ok h => exact .ok (hf _ _ rfl h)
  | error h => exact .error h

theorem bind {f f' : α → Except Error β} (h : x.Agree own V r r')
    (hf : ∀ a a', r' = .ok a' → V a a' → x.Agree own W (f a) (f' a')) :
    x.Agree own W (r.bind f) (r'.bind f') := by
  cases h with
  | ok h => exact hf _ _ rfl h
  | error h => exact .error h

end Agree

/-! ### Single characters -/

theorem tell_mapError {r : Except Fault α} {place place' : Fault → Error}
    (h : ∀ fault, place fault = (place' fault).shift x.base) :
    r.mapError place = x.tell id (r.mapError place') := by
  cases r with
  | ok a => rfl
  | error fault => exact congrArg Except.error (h fault)

theorem room_embed (x : Excerpt) (t : Scanner) (o : Nat) :
    (x.embed t).stop - (x.base + o) = t.stop - o := Nat.add_sub_add_left ..

theorem lt_stop_embed : x.base + o < (x.embed t).stop ↔ o < t.stop := Nat.add_lt_add_iff_left

theorem ahead_embed (h : x.Has t) (o : Nat) :
    (x.embed t).buffer.ahead (x.base + o : Nat) (min 4 (t.stop - o))
      = t.buffer.ahead o (min 4 (t.stop - o)) := by
  have hstop := h.stop_le
  rw [h.buffer]
  exact ahead_part (by omega)

theorem measureAt_embed (h : x.Has t) (o : Nat) :
    (x.embed t).measureAt (x.base + o) = x.tell id (t.measureAt o) := by
  rw [Scanner.measureAt_eq, Scanner.measureAt_eq, room_embed, ahead_embed h]
  exact tell_mapError fun fault => fault.shift_errorAhead x.base o

theorem decodeAt_embed (h : x.Has t) (o : Nat) :
    (x.embed t).decodeAt (x.base + o) = x.tell id (t.decodeAt o) := by
  rw [Scanner.decodeAt_eq, Scanner.decodeAt_eq, room_embed, ahead_embed h]
  exact tell_mapError fun fault => fault.shift_errorAhead x.base o

theorem measureBackAt_embed (h : x.Has t) (ho : o ≤ x.length) :
    (x.embed t).measureBackAt (x.base + o) = x.tell id (t.measureBackAt o) := by
  have hroom : x.base + o - (x.embed t).start = o - t.start := Nat.add_sub_add_left ..
  have hbehind : (x.embed t).buffer.behind (x.base + o : Nat) (min 4 (o - t.start))
      = t.buffer.behind o (min 4 (o - t.start)) := by
    rw [h.buffer]
    exact behind_part ho (by omega)
  rw [Scanner.measureBackAt_eq, Scanner.measureBackAt_eq, hroom, hbehind]
  exact tell_mapError fun fault => fault.shift_errorBehind x.base o t.start

/-! ### Loops -/

theorem skip_embed (h : x.Has t) (n o : Nat) :
    (x.embed t).skip n (x.base + o) = x.tell (x.base + ·) (t.skip n o) := by
  induction n generalizing o with
  | zero => rfl
  | succ n ih =>
      rw [Scanner.skip, Scanner.skip, measureAt_embed h]
      cases t.measureAt o with
      | error e => rfl
      | ok width =>
          simp only [tell, id, Nat.add_assoc]
          exact ih (o + width.bytes)

theorem skipBack_embed (h : x.Has t) (n : Nat) (ho : o ≤ x.length) :
    (x.embed t).skipBack n (x.base + o) = x.tell (x.base + ·) (t.skipBack n o) := by
  induction n generalizing o with
  | zero => rfl
  | succ n ih =>
      rw [Scanner.skipBack, Scanner.skipBack, measureBackAt_embed h ho]
      cases hwidth : t.measureBackAt o with
      | error e => rfl
      | ok width =>
          have hle := Scanner.measureBackAt_le hwidth
          have hcast : x.base + o - width.bytes = x.base + (o - width.bytes) := by omega
          simp only [tell, id, hcast]
          exact ih (by omega)

theorem charactersFrom_embed (h : x.Has t) (o : Nat) :
    (x.embed t).charactersFrom (x.base + o) = x.tell id (t.charactersFrom o) := by
  fun_induction Scanner.charactersFrom t o with
  | case1 o hlt e hdecode =>
      rw [Scanner.charactersFrom, if_pos (lt_stop_embed.mpr hlt), decodeAt_embed h, hdecode]
      rfl
  | case2 o hlt c width hdecode ih =>
      rw [Scanner.charactersFrom, if_pos (lt_stop_embed.mpr hlt), decodeAt_embed h, hdecode]
      simp only [tell, id, Nat.add_assoc, ih]
      cases t.charactersFrom (o + width.bytes) <;> rfl
  | case3 o hge =>
      rw [Scanner.charactersFrom, if_neg fun hlt => hge (lt_stop_embed.mp hlt)]
      rfl

theorem seek_embed (h : x.Has t) {test : CharTest} (htest : test.RaisesOnly own) (o : Nat) :
    x.Agree own (fun found found' => found = found'.map (x.base + ·))
      ((x.embed t).seek test (x.base + o)) (t.seek test o) := by
  fun_induction Scanner.seek t test o with
  | case1 o hlt e hdecode =>
      rw [Scanner.seek, if_pos (lt_stop_embed.mpr hlt), decodeAt_embed h, hdecode]
      exact .error (.shift e)
  | case2 o hlt c width hdecode e he =>
      rw [Scanner.seek, if_pos (lt_stop_embed.mpr hlt), decodeAt_embed h, hdecode]
      simp only [tell, id, he]
      exact .error (.own (htest c e he))
  | case3 o hlt c width hdecode hpass =>
      rw [Scanner.seek, if_pos (lt_stop_embed.mpr hlt), decodeAt_embed h, hdecode]
      simp only [tell, id, hpass]
      exact .ok rfl
  | case4 o hlt c width hdecode hfail ih =>
      rw [Scanner.seek, if_pos (lt_stop_embed.mpr hlt), decodeAt_embed h, hdecode]
      simp only [tell, id, hfail, Nat.add_assoc]
      exact ih
  | case5 o hge =>
      rw [Scanner.seek, if_neg fun hlt => hge (lt_stop_embed.mp hlt)]
      exact .ok rfl

theorem tally_embed (h : x.Has t) {test : CharTest} (htest : test.RaisesOnly own)
    (o passed : Nat) :
    x.Agree own (x.Moved Eq) ((x.embed t).tally test (x.base + o) passed)
      (t.tally test o passed) := by
  fun_induction Scanner.tally t test o passed with
  | case1 o passed hlt e hdecode =>
      rw [Scanner.tally, if_pos (lt_stop_embed.mpr hlt), decodeAt_embed h, hdecode]
      exact .error (.shift e)
  | case2 o passed hlt c width hdecode e he =>
      rw [Scanner.tally, if_pos (lt_stop_embed.mpr hlt), decodeAt_embed h, hdecode]
      simp only [tell, id, he]
      exact .error (.own (htest c e he))
  | case3 o passed hlt c width hdecode hpass ih =>
      rw [Scanner.tally, if_pos (lt_stop_embed.mpr hlt), decodeAt_embed h, hdecode]
      simp only [tell, id, hpass, Nat.add_assoc]
      exact ih
  | case4 o passed hlt c width hdecode hfail =>
      rw [Scanner.tally, if_pos (lt_stop_embed.mpr hlt), decodeAt_embed h, hdecode]
      simp only [tell, id, hfail]
      exact .ok ⟨rfl, rfl⟩
  | case5 o passed hge =>
      rw [Scanner.tally, if_neg fun hlt => hge (lt_stop_embed.mp hlt)]
      exact .ok ⟨rfl, rfl⟩

theorem pass_embed (h : x.Has t) {test : CharTest} (htest : test.RaisesOnly own) (o : Nat) :
    x.Agree own (fun after after' => after = x.base + after')
      ((x.embed t).pass test (x.base + o)) (t.pass test o) := by
  rw [← Scanner.tally_map_snd _ test _ 0, ← Scanner.tally_map_snd _ test _ 0]
  exact (tally_embed h htest o 0).map fun _ _ _ hmoved => hmoved.2

/-! ### Texts -/

theorem textBetween_embed (h : x.Has t) {stop : Nat} (hstop : stop ≤ x.length) (o : Nat) :
    (x.embed t).textBetween (x.base + o) (x.base + stop) = x.tell id (t.textBetween o stop) := by
  unfold Scanner.textBetween Buffer.text
  show Except.mapError _ (Buffer.text.go x.whole _ _ _) = _
  rw [text_go_part hstop, h.buffer]
  cases Buffer.text.go x.part stop o "" with
  | ok text => rfl
  | error fault => rfl

theorem preview_embed (h : x.Has t) : (x.embed t).preview = t.preview := by
  have hlenient : (x.embed t).buffer.lenientText (x.embed t).start (x.embed t).stop
        (Scanner.previewLength + 1)
      = t.buffer.lenientText t.start t.stop (Scanner.previewLength + 1) := by
    rw [h.buffer]
    exact lenientText_part h.stop_le _ _
  unfold Scanner.preview
  rw [hlenient]

end Excerpt

end Utf8Scan
