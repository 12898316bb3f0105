/-
Sessions: programs that work on several scanners by name.

A session starts with one scanner.  Commands make further ones, which can be kept
under a name; a name that is used again means the newer scanner from then on, but a
block that runs on the older one goes on with that.  So scanners are numbered in the
order in which they are kept, and names stand for numbers.

A block of steps runs under backtracking: the first error ends it and leaves it, and
if that is a scanning error, the cursor of the block's own scanner goes back to where
it was.  Other scanners keep what the block did to them.
-/
import Utf8Scan.Diagnostic.Layout
import Utf8Scan.Session.Command

namespace Utf8Scan

/-- An error as it is told to the caller. -/
structure Report where
  error : Error
  /-- The diagnostic of a scanning error, with its place. -/
  diagnostic? : Option Diagnostic
  deriving DecidableEq

def Scanner.report (s : Scanner) (e : Error) : Report where
  error := e
  diagnostic? :=
    match e with
    | .scan error => s.diagnose error
    | _ => none

/-- The window and the cursor of a scanner. -/
structure State where
  start : Nat
  pos : Nat
  stop : Nat
  deriving DecidableEq, Repr

def Scanner.state (s : Scanner) : State := ⟨s.start, s.pos, s.stop⟩

/-- A request to lay out the diagnostic of an error. -/
structure Inquiry where
  /-- The error, or none for the last one that was raised. -/
  error? : Option (Except Error ScanError)
  /-- How to lay it out, or none for the usual layout. -/
  layout? : Option (Except Error Layout)

inductive Step where
  /-- Runs a command, and keeps the scanner that it returns if there is a name for it. -/
  | call (on : String) (keep? : Option String) (command : Command)
  /-- Asks whether two scanners have the same buffer. -/
  | sameBuffer (on other : String)
  | inquire (on : String) (inquiry : Inquiry)
  /-- Runs steps under backtracking. -/
  | block (on : String) (steps : List Step)

/-- What came of a step. -/
inductive Answer where
  | noSuchScanner
  | value (result : Value) (state : State)
  | failed (report : Report) (state : State)
  /-- There has been no error to ask about. -/
  | noErrorYet (state : State)
  | explained (diagnostic? : Option Diagnostic) (text? : Option String) (state : State)
  | block (failure? : Option Report) (answers : List Answer) (state : State)

structure Session where
  /-- All scanners that were ever kept, by number. -/
  scanners : Array Scanner
  /-- The numbers that names stand for, the newest first. -/
  names : List (String × Nat)
  /-- The scanning error that was raised last. -/
  lastError? : Option ScanError

namespace Session

/-- The name of the scanner that a session starts with. -/
def firstName : String := "p"

def ofScanner (s : Scanner) : Session where
  scanners := #[s]
  names := [(firstName, 0)]
  lastError? := none

/-- The number that a name stands for. -/
def number? (session : Session) (name : String) : Option Nat := session.names.lookup name

/-- The scanner that a name stands for, with its number. -/
def find? (session : Session) (name : String) : Option (Nat × Scanner) := do
  let i ← session.number? name
  let s ← session.scanners[i]?
  return (i, s)

/-- Changes the scanner with a number. -/
def put (session : Session) (i : Nat) (s : Scanner) : Session :=
  { session with scanners := session.scanners.setIfInBounds i s }

/-- Adds a scanner under a name. -/
def keep (session : Session) (name : String) (s : Scanner) : Session :=
  { session with
    scanners := session.scanners.push s
    names := (name, session.scanners.size) :: session.names }

/-- Remembers an error if it is one of scanning. -/
def remember (session : Session) (e : Error) : Session :=
  match e with
  | .scan error => { session with lastError? := some error }
  | _ => session

/-- Keeps what a command returned, if it is a scanner and there is a name for it. -/
def keepValue (session : Session) (keep? : Option String) (value : Value) : Session :=
  match keep?, value with
  | some name, .scanner s => session.keep name s
  | _, _ => session

/-! ### Single steps

Each gives the answer, the error if one was raised, and the session afterwards.
-/

/-- An error that a step raises on the scanner `s`. -/
def raise (session : Session) (s : Scanner) (e : Error) : Answer × Option Error × Session :=
  (.failed (s.report e) s.state, some e, session.remember e)

def call (session : Session) (i : Nat) (s : Scanner) (keep? : Option String) (command : Command) :
    Answer × Option Error × Session :=
  match command.run s with
  | .ok value after => (.value value after.state, none, (session.put i after).keepValue keep? value)
  | .error e after => (session.put i after).raise after e

def inquire (session : Session) (s : Scanner) (inquiry : Inquiry) :
    Answer × Option Error × Session :=
  match inquiry.error? <|> session.lastError?.map .ok with
  | none => (.noErrorYet s.state, none, session)
  | some (.error e) => session.raise s e
  | some (.ok error) =>
    match s.diagnose error with
    | none => (.explained none none s.state, none, session)
    | some d =>
      match inquiry.layout?.getD (.ok {}) with
      | .error e => session.raise s e
      | .ok layout =>
        match layout.layOut d with
        | .error e => session.raise s e
        | .ok text => (.explained (some d) (some text) s.state, none, session)

/-- The end of a block that began with the cursor of scanner `i` at `entry`. -/
def leave (session : Session) (i entry : Nat) (answers : List Answer) (error? : Option Error) :
    Answer × Option Error × Session :=
  match session.scanners[i]? with
  | none => (.noSuchScanner, error?, session)
  | some s =>
    let after :=
      match error? with
      | some (.scan _) => { s with pos := entry }
      | _ => s
    (.block (error?.map after.report) answers after.state, error?, session.put i after)

/-! ### Programs -/

mutual

/-- Runs one step. -/
def step (session : Session) : Step → Answer × Option Error × Session
  | .call on keep? command =>
    match session.find? on with
    | none => (.noSuchScanner, none, session)
    | some (i, s) => session.call i s keep? command
  | .sameBuffer on other =>
    match session.find? on with
    | none => (.noSuchScanner, none, session)
    | some (_, s) =>
      let same := (session.find? other).any fun (_, t) => t.buffer = s.buffer
      (.value (.bool same) s.state, none, session)
  | .inquire on inquiry =>
    match session.find? on with
    | none => (.noSuchScanner, none, session)
    | some (_, s) => session.inquire s inquiry
  | .block on steps =>
    match session.find? on with
    | none => (.noSuchScanner, none, session)
    | some (i, s) =>
      let (answers, error?, after) := session.upToError steps
      after.leave i s.pos answers error?

/-- Runs steps until one raises an error. -/
def upToError (session : Session) : List Step → List Answer × Option Error × Session
  | [] => ([], none, session)
  | first :: rest =>
    match session.step first with
    | (answer, some e, after) => ([answer], some e, after)
    | (answer, none, after) =>
      let (answers, error?, last) := after.upToError rest
      (answer :: answers, error?, last)

end

/-- Runs steps one after the other, whether or not they raise errors. -/
def runAll (session : Session) : List Step → List Answer × Session
  | [] => ([], session)
  | first :: rest =>
    let (answer, _, after) := session.step first
    let (answers, last) := after.runAll rest
    (answer :: answers, last)

end Session

end Utf8Scan
