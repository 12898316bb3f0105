/-
Whole sessions on text.

A session of calls is run twice: on scanners for bytes, as it is, and on scanners for
characters.  `Mirrors` relates the two: the same names, and every scanner the encoding
of its counterpart.  A call keeps this and gives the same answer on both sides, so a
session on a well-formed text cannot tell that it works on bytes, however many scanners
it makes on the way.
-/
import Utf8Scan.Proofs.Session
import Utf8Scan.Proofs.TextRefinement

namespace Utf8Scan

/-- A command for a scanner, which may be kept if it returns one. -/
structure Call where
  on : String
  keep? : Option String
  command : Command

def Call.step (call : Call) : Step := .call call.on call.keep? call.command

/-- What came of a call, with the scanner that it left. -/
inductive TextAnswer where
  | noSuchScanner
  | value (result : TextValue) (left : TextScanner)
  | failed (error : TextError) (left : TextScanner)

/-- A session of scanners for characters. -/
structure TextSession where
  scanners : Array TextScanner
  names : List (String × Nat)

namespace TextSession

def ofScanner (r : TextScanner) : TextSession where
  scanners := #[r]
  names := [(Session.firstName, 0)]

def find? (ts : TextSession) (name : String) : Option (Nat × TextScanner) := do
  let i ← ts.names.lookup name
  let r ← ts.scanners[i]?
  return (i, r)

def put (ts : TextSession) (i : Nat) (r : TextScanner) : TextSession :=
  { ts with scanners := ts.scanners.setIfInBounds i r }

/-- Adds the scanner that a call returned, if it is to be kept. -/
def keepValue (ts : TextSession) (keep? : Option String) (value : TextValue) : TextSession :=
  match keep?, value with
  | some name, .scanner r =>
    { scanners := ts.scanners.push r, names := (name, ts.scanners.size) :: ts.names }
  | _, _ => ts

/-- Runs one call; one that fails changes nothing. -/
def call (ts : TextSession) (call : Call) : TextAnswer × TextSession :=
  match ts.find? call.on with
  | none => (.noSuchScanner, ts)
  | some (i, r) =>
    match call.command.runText r with
    | .ok (value, k) =>
      (.value value { r with pos := k }, (ts.put i { r with pos := k }).keepValue call.keep? value)
    | .error e => (.failed e r, ts)

def runAll (ts : TextSession) : List Call → List TextAnswer × TextSession
  | [] => ([], ts)
  | first :: rest =>
    let (answer, after) := ts.call first
    let (answers, last) := after.runAll rest
    (answer :: answers, last)

/-- All scanners are for one text and lie in it. -/
def On (ts : TextSession) (chars : List Char) (k : Classifier) : Prop :=
  ∀ r ∈ ts.scanners, r.Valid ∧ r.chars = chars ∧ r.classifier = k

end TextSession

/-- The answer of the session on bytes. -/
def TextAnswer.encode : TextAnswer → Answer
  | noSuchScanner => .noSuchScanner
  | value result left => .value (result.encode left.chars) left.encode.state
  | failed error left => .failed (left.encode.report (error.encode left.chars)) left.encode.state

/-- A session on bytes whose scanners are the encodings of those of a session on characters. -/
structure TextSession.Mirrors (ts : TextSession) (session : Session) : Prop where
  scanners : session.scanners = ts.scanners.map TextScanner.encode
  names : session.names = ts.names

namespace TextSession

variable {ts : TextSession} {session : Session} {r : TextScanner} {i : Nat} {chars : List Char}
  {k : Classifier}

/-! ### The two sessions side by side -/

theorem find?_eq_some {name : String} (h : ts.find? name = some (i, r)) :
    ts.scanners[i]? = some r := by
  unfold find? at h
  obtain ⟨j, _, h⟩ := Option.bind_eq_some_iff.mp h
  obtain ⟨t, ht, h⟩ := Option.bind_eq_some_iff.mp h
  cases h
  exact ht

theorem Mirrors.find? (h : ts.Mirrors session) (name : String) :
    session.find? name = (ts.find? name).map fun (i, r) => (i, r.encode) := by
  unfold Session.find? Session.number? TextSession.find?
  rw [h.names, h.scanners]
  cases ts.names.lookup name with
  | none => rfl
  | some j =>
      show ((ts.scanners.map TextScanner.encode)[j]?).bind _ = ((ts.scanners[j]?).bind _).map _
      rw [Array.getElem?_map]
      cases ts.scanners[j]? <;> rfl

theorem Mirrors.put (h : ts.Mirrors session) (i : Nat) (r : TextScanner) :
    (ts.put i r).Mirrors (session.put i r.encode) := by
  refine ⟨?_, h.names⟩
  show session.scanners.setIfInBounds i r.encode = (ts.scanners.setIfInBounds i r).map _
  rw [h.scanners, Array.map_setIfInBounds]

theorem Mirrors.keepValue (h : ts.Mirrors session) (keep? : Option String) (value : TextValue)
    (chars : List Char) :
    (ts.keepValue keep? value).Mirrors (session.keepValue keep? (value.encode chars)) := by
  cases keep? with
  | none => exact h
  | some name =>
      cases value with
      | scanner r =>
          refine ⟨?_, ?_⟩
          · show session.scanners.push r.encode = (ts.scanners.push r).map _
            rw [h.scanners, Array.map_push]
          · show (name, session.scanners.size) :: session.names = _
            rw [h.names, h.scanners, Array.size_map]
            rfl
      | _ => exact h

/-- Putting a scanner back where it was found changes nothing. -/
theorem put_self (h : ts.scanners[i]? = some r) : ts.put i r = ts := by
  have hlt : i < ts.scanners.size := (Array.getElem?_eq_some_iff.mp h).1
  have hset : ts.scanners.setIfInBounds i r = ts.scanners := by
    refine Array.ext_getElem? fun j => ?_
    by_cases hij : i = j
    · rw [← hij, Array.getElem?_setIfInBounds_self_of_lt hlt, h]
    · rw [Array.getElem?_setIfInBounds_ne hij]
  rw [put, hset]

theorem Mirrors.remember (h : ts.Mirrors session) (e : Error) :
    ts.Mirrors (session.remember e) := by
  refine ⟨?_, ?_⟩
  · rw [Session.remember_scanners]
    exact h.scanners
  · rw [Session.remember_names]
    exact h.names

theorem On.put (h : ts.On chars k) (hr : r.Valid ∧ r.chars = chars ∧ r.classifier = k) :
    (ts.put i r).On chars k := by
  intro t ht
  rcases Array.mem_or_eq_of_mem_setIfInBounds ht with ht | rfl
  · exact h t ht
  · exact hr

theorem On.keepValue (h : ts.On chars k) {keep? : Option String} {value : TextValue}
    (hvalue : ∀ t, value = .scanner t → t.Valid ∧ t.chars = chars ∧ t.classifier = k) :
    (ts.keepValue keep? value).On chars k := by
  unfold TextSession.keepValue
  split
  · rename_i name t
    intro s hs
    rcases Array.mem_push.mp hs with hs | rfl
    · exact h s hs
    · exact hvalue _ rfl
  · exact h

/-! ### Calls -/

/-- One call has the same answer on both sides, and keeps them side by side. -/
theorem call_encode (h : ts.Mirrors session) (hon : ts.On chars k) (hk : k.Total) {c : Call}
    (hc : c.command.Textual) (ht : c.command.Total) :
    (session.step c.step).1 = (ts.call c).1.encode ∧
      (ts.call c).2.Mirrors (session.step c.step).2.2 ∧ (ts.call c).2.On chars k := by
  show (Session.step session (.call c.on c.keep? c.command)).1 = _ ∧
    (ts.call c).2.Mirrors (Session.step session (.call c.on c.keep? c.command)).2.2 ∧ _
  unfold Session.step TextSession.call
  rw [h.find? c.on]
  cases hfind : ts.find? c.on with
  | none => exact ⟨rfl, h, hon⟩
  | some found =>
      obtain ⟨i, r⟩ := found
      have hi := find?_eq_some hfind
      obtain ⟨hr, hchars, hclassifier⟩ := hon r (Array.mem_of_getElem? hi)
      have hrun := Command.run_encode hr (hclassifier ▸ hk) hc ht
      simp only [Option.map_some, Session.call, hrun]
      cases htext : c.command.runText r with
      | error e =>
          refine ⟨rfl, ?_, hon⟩
          have hput := h.put i r
          rw [put_self hi] at hput
          exact hput.remember _
      | ok result =>
          obtain ⟨value, j⟩ := result
          obtain ⟨hcovers, hpart⟩ := c.command.runText_stays hr value j htext
          refine ⟨rfl, (h.put i _).keepValue c.keep? value _, ?_⟩
          refine (hon.put ⟨hr.move hcovers, hchars, hclassifier⟩).keepValue ?_
          intro t ht
          have ht := hpart t ht
          exact ⟨ht.valid, ht.chars.trans hchars, ht.classifier.trans hclassifier⟩

theorem calls_encode (h : ts.Mirrors session) (hon : ts.On chars k) (hk : k.Total)
    (calls : List Call) (hcalls : ∀ c ∈ calls, c.command.Textual ∧ c.command.Total) :
    (session.runAll (calls.map Call.step)).1 = (ts.runAll calls).1.map TextAnswer.encode ∧
      (ts.runAll calls).2.Mirrors (session.runAll (calls.map Call.step)).2 ∧
      (ts.runAll calls).2.On chars k := by
  induction calls generalizing ts session with
  | nil => exact ⟨rfl, h, hon⟩
  | cons first rest ih =>
      obtain ⟨hc, ht⟩ := hcalls first List.mem_cons_self
      obtain ⟨hanswer, hmirrors, hon'⟩ := call_encode h hon hk hc ht
      obtain ⟨hanswers, hlast⟩ := ih hmirrors hon' fun c hmem =>
        hcalls c (List.mem_cons_of_mem _ hmem)
      exact ⟨congrArg₂ List.cons hanswer hanswers, hlast⟩

/-! ### From the text on -/

theorem valid_ofText (text : String) (k : Classifier) : (TextScanner.ofText text k).Valid :=
  ⟨Nat.le_refl _, Nat.zero_le _, Nat.le_refl _⟩

/-- A text is accepted unless it is too large, and then the scanner is the encoding of its own. -/
theorem ofBuffer_ofString {text : String} {maxSize : Int}
    (hsize : (Buffer.ofString text).size ≤ maxSize) (k : Classifier) :
    Scanner.ofBuffer (.ofString text) maxSize k = .ok (TextScanner.ofText text k).encode := by
  have hholds := Buffer.holds_ofString text
  have hstart : (Buffer.ofString text).isBoundary 0 = true :=
    hholds.isBoundary_iff.mpr ⟨0, Nat.zero_le _, rfl⟩
  rw [Scanner.ofBuffer_eq_ok_iff]
  refine ⟨⟨hsize, hstart⟩, ?_⟩
  unfold TextScanner.encode TextScanner.ofText
  simp only [String.ofList_toList, offsetOf_zero, hholds.size_eq]

/-- **On every text, any sequence of calls is answered as if the scanners held characters.**  All
scanners that the session comes to hold are encodings: their windows and cursors lie at the offsets
of characters, in order and inside the text. -/
theorem runAll_encode {text : String} {maxSize : Int} {k : Classifier} {calls : List Call}
    (hsize : (Buffer.ofString text).size ≤ maxSize) (hk : k.Total)
    (hcalls : ∀ c ∈ calls, c.command.Textual ∧ c.command.Total) :
    ∃ root, Scanner.ofBuffer (.ofString text) maxSize k = .ok root ∧
      ((Session.ofScanner root).runAll (calls.map Call.step)).1
        = ((ofScanner (.ofText text k)).runAll calls).1.map TextAnswer.encode ∧
      ((Session.ofScanner root).runAll (calls.map Call.step)).2.scanners
        = ((ofScanner (.ofText text k)).runAll calls).2.scanners.map TextScanner.encode ∧
      ∀ r ∈ ((ofScanner (.ofText text k)).runAll calls).2.scanners,
        r.Valid ∧ r.chars = text.toList := by
  have hmirrors : (ofScanner (.ofText text k)).Mirrors
      (Session.ofScanner (TextScanner.ofText text k).encode) :=
    ⟨by simp [ofScanner, Session.ofScanner], rfl⟩
  have hon : (ofScanner (.ofText text k)).On text.toList k := by
    intro r hr
    obtain rfl : r = .ofText text k := by simpa [ofScanner] using hr
    exact ⟨valid_ofText text k, rfl, rfl⟩
  obtain ⟨hanswers, hlast, hon⟩ := calls_encode hmirrors hon hk calls hcalls
  refine ⟨_, ofBuffer_ofString hsize k, hanswers, hlast.scanners, ?_⟩
  intro r hr
  exact ⟨(hon r hr).1, (hon r hr).2.1⟩

/-- Characters of all four widths, read forward and backward and in a part of the text. -/
theorem runAll_encode_widths :
    let text := "aé€𝄞"
    let calls : List Call := [
      ⟨"p", none, .advance 2⟩, ⟨"p", some "q", .subScanner 1 6⟩, ⟨"q", none, .retreat 1⟩,
      ⟨"p", none, .readWhileTest (.const true)⟩, ⟨"p", none, .restore 4⟩]
    (Buffer.ofString text).size ≤ (10 : Int) ∧ Classifier.unicode.Total ∧
      (∀ c ∈ calls, c.command.Textual ∧ c.command.Total) ∧
      ∃ root, Scanner.ofBuffer (.ofString text) 10 .unicode = .ok root ∧
        ((Session.ofScanner root).runAll (calls.map Call.step)).1
          = ((ofScanner (.ofText text .unicode)).runAll calls).1.map TextAnswer.encode := by
  intro text calls
  have hsize : (Buffer.ofString text).size ≤ (10 : Int) := by decide
  have hcalls : ∀ c ∈ calls, c.command.Textual ∧ c.command.Total := by
    intro c hc
    simp only [calls, List.mem_cons, List.not_mem_nil, or_false] at hc
    rcases hc with rfl | rfl | rfl | rfl | rfl
    · exact ⟨trivial, Command.total_of_none rfl rfl⟩
    · exact ⟨trivial, Command.total_of_none rfl rfl⟩
    · exact ⟨trivial, Command.total_of_none rfl rfl⟩
    · refine ⟨trivial, ?_, nofun⟩
      intro test htest
      obtain rfl : CharTest.const true = test := Option.some.inj htest
      exact CharTest.const_total true
    · exact ⟨trivial, Command.total_of_none rfl rfl⟩
  obtain ⟨root, hroot, hanswers, _⟩ := runAll_encode hsize Classifier.unicode_total hcalls
  exact ⟨hsize, Classifier.unicode_total, hcalls, root, hroot, hanswers⟩

end TextSession

end Utf8Scan
