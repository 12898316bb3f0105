/-
Outcomes of programs.

A program that works on a scanner either returns or raises an error.  What an
operation promises is the same in all cases: if it returns, the cursor is the only
thing about the scanner that may have changed, and if it raises an error, nothing
has.  `Outcome` says that much, together with what else is known of the value, the
new cursor or the error, and the rules below take a program apart along its
structure.

A program that moves the cursor before its last step can fail half way.  Such a
program is an operation only under `backtrack`, which is what `Halfway` is for: an
error of scanning may have moved the cursor, any other error must not.
-/
import Mathlib
import Utf8Scan.Scanner.Cursor

namespace Except

variable {ε ε' α β : Type}

theorem map_eq_ok_iff {f : α → β} {x : Except ε α} {b : β} :
    x.map f = .ok b ↔ ∃ a, x = .ok a ∧ f a = b := by
  cases x <;> simp [Except.map]

theorem map_eq_error_iff {f : α → β} {x : Except ε α} {e : ε} :
    x.map f = .error e ↔ x = .error e := by
  cases x <;> simp [Except.map]

theorem mapError_eq_ok_iff {f : ε → ε'} {x : Except ε α} {a : α} :
    x.mapError f = .ok a ↔ x = .ok a := by
  cases x <;> simp [Except.mapError]

theorem mapError_eq_error_iff {f : ε → ε'} {x : Except ε α} {e' : ε'} :
    x.mapError f = .error e' ↔ ∃ e, x = .error e ∧ f e = e' := by
  cases x <;> simp [Except.mapError]

theorem bind_eq_ok_iff {f : α → Except ε β} {x : Except ε α} {b : β} :
    x.bind f = .ok b ↔ ∃ a, x = .ok a ∧ f a = .ok b := by
  cases x <;> simp [Except.bind]

theorem bind_eq_error_iff {f : α → Except ε β} {x : Except ε α} {e : ε} :
    x.bind f = .error e ↔ x = .error e ∨ ∃ a, x = .ok a ∧ f a = .error e := by
  cases x <;> simp [Except.bind]

end Except

namespace Utf8Scan.Scan

variable {α β : Type}

/-! ### Running the parts of a program -/

theorem bind_of_ok {program : Scan α} {next : α → Scan β} {s after : Scanner} {a : α}
    (h : program s = .ok a after) : (program >>= next) s = next a after := by
  simp only [bind, EStateM.bind, h]

theorem bind_of_error {program : Scan α} {next : α → Scan β} {s after : Scanner} {e : Error}
    (h : program s = .error e after) : (program >>= next) s = .error e after := by
  simp only [bind, EStateM.bind, h]

theorem bind_eq_ok_iff {program : Scan α} {next : α → Scan β} {s left : Scanner} {b : β} :
    (program >>= next) s = .ok b left ↔
      ∃ a mid, program s = .ok a mid ∧ next a mid = .ok b left := by
  cases h : program s with
  | error e mid => simp [bind_of_error h]
  | ok a mid => simp [bind_of_ok h]

theorem returning_eq_ok_iff {program : Scan α} {f : α → β} {s left : Scanner} {b : β} :
    (program >>= fun a => pure (f a)) s = .ok b left ↔
      ∃ a, program s = .ok a left ∧ f a = b := by
  rw [bind_eq_ok_iff]
  constructor
  · intro h
    obtain ⟨a, mid, hrun, ⟨⟩⟩ := h
    exact ⟨a, hrun, rfl⟩
  · intro h
    obtain ⟨a, hrun, rfl⟩ := h
    exact ⟨a, left, hrun, rfl⟩

theorem mapM_cons_eq_ok_iff {f : α → Scan β} {a : α} {as : List α} {bs : List β}
    {s left : Scanner} :
    (a :: as).mapM f s = .ok bs left ↔
      ∃ b mid rest, f a s = .ok b mid ∧ as.mapM f mid = .ok rest left ∧ b :: rest = bs := by
  rw [List.mapM_cons, bind_eq_ok_iff]
  simp only [returning_eq_ok_iff, exists_and_left]

theorem bind_congr {program program' : Scan α} {next : α → Scan β} {s s' : Scanner}
    (h : program s = program' s') : (program >>= next) s = (program' >>= next) s' := by
  simp only [bind, EStateM.bind, h]

theorem get_bind (next : Scanner → Scan β) (s : Scanner) :
    ((get : Scan Scanner) >>= next) s = next s s := rfl

theorem step_congr {f g : Scanner → Except Error (α × Nat)} {s : Scanner} (h : f s = g s) :
    step f s = step g s := by
  simp only [step, h]

/-- A step that returns has moved the cursor and changed nothing else. -/
theorem step_eq_ok_iff {f : Scanner → Except Error (α × Nat)} {s left : Scanner} {a : α} :
    step f s = .ok a left ↔ ∃ pos, f s = .ok (a, pos) ∧ left = { s with pos := pos } := by
  unfold step
  cases f s with
  | error e => simp
  | ok result =>
      obtain ⟨b, pos⟩ := result
      constructor
      · intro h
        cases h
        exact ⟨pos, rfl, rfl⟩
      · rintro ⟨pos', h, rfl⟩
        cases h
        rfl

theorem backtrack_of_ok {program : Scan α} {s after : Scanner} {a : α}
    (h : program s = .ok a after) : backtrack program s = .ok a after := by
  simp only [backtrack, h]

/-- Where nothing has moved, there is nothing to put back. -/
theorem backtrack_of_error {program : Scan α} {s : Scanner} {e : Error}
    (h : program s = .error e s) : backtrack program s = .error e s := by
  cases e <;> simp only [backtrack, h]

theorem backtrack_eq_ok_iff {program : Scan α} {s left : Scanner} {a : α} :
    backtrack program s = .ok a left ↔ program s = .ok a left := by
  refine ⟨?_, backtrack_of_ok⟩
  intro h
  cases hrun : program s with
  | ok b after => rwa [backtrack_of_ok hrun] at h
  | error e after => cases e <;> simp [backtrack, hrun] at h

/-! ### Outcomes -/

/-- What a program does to a scanner: it returns and moves the cursor, or it raises an error
and leaves the scanner as it was. -/
inductive Outcome (program : Scan α) (s : Scanner) (onValue : α → Nat → Prop)
    (onError : Error → Prop) : Prop
  | returns {a : α} {pos : Nat} (run : program s = .ok a { s with pos := pos })
      (value : onValue a pos)
  | raises {e : Error} (run : program s = .error e s) (error : onError e)

/-- What a program under backtracking does: an error of scanning may have moved the cursor. -/
inductive Halfway (program : Scan α) (s : Scanner) (onValue : α → Nat → Prop)
    (onError : Error → Prop) : Prop
  | returns {a : α} {pos : Nat} (run : program s = .ok a { s with pos := pos })
      (value : onValue a pos)
  | raises {e : Error} (run : program s = .error e s) (error : onError e)
  | fails {e : ScanError} {pos : Nat} (run : program s = .error (.scan e) { s with pos := pos })
      (error : onError (.scan e))

variable {s : Scanner} {V W : α → Nat → Prop} {E F : Error → Prop}

namespace Outcome

theorem mono {program : Scan α} (h : Outcome program s V E) (hV : ∀ a pos, V a pos → W a pos)
    (hE : ∀ e, E e → F e) : Outcome program s W F := by
  cases h with
  | returns run value => exact .returns run (hV _ _ value)
  | raises run error => exact .raises run (hE _ error)

theorem step {f : Scanner → Except Error (α × Nat)}
    (hV : ∀ a pos, f s = .ok (a, pos) → V a pos) (hE : ∀ e, f s = .error e → E e) :
    Outcome (Scan.step f) s V E := by
  cases h : f s with
  | ok result =>
      obtain ⟨a, pos⟩ := result
      exact .returns (by simp only [Scan.step, h]) (hV a pos h)
  | error e => exact .raises (by simp only [Scan.step, h]) (hE e h)

theorem query {f : Scanner → Except Error α} (hV : ∀ a, f s = .ok a → V a s.pos)
    (hE : ∀ e, f s = .error e → E e) : Outcome (Scan.query f) s V E := by
  cases h : f s with
  | ok a =>
      have hrun : Scan.query f s = .ok a { s with pos := s.pos } := by simp only [Scan.query, h]
      exact .returns hrun (hV a h)
  | error e => exact .raises (by simp only [Scan.query, h]) (hE e h)

theorem map {program : Scan α} {f : α → β} {V : β → Nat → Prop}
    (h : Outcome program s (fun a pos => V (f a) pos) E) :
    Outcome (do return f (← program)) s V E := by
  cases h with
  | returns run value => exact .returns (bind_of_ok run) value
  | raises run error => exact .raises (bind_of_error run) error

/-- A second part that can fail must begin where the first part began. -/
theorem bind {program : Scan α} {next : α → Scan β} {V : α → Nat → Prop} {W : β → Nat → Prop}
    (h : Outcome program s V E)
    (hnext : ∀ a pos, V a pos →
      Outcome (next a) { s with pos := pos } W (fun e => E e ∧ pos = s.pos)) :
    Outcome (program >>= next) s W E := by
  cases h with
  | raises run error => exact .raises (bind_of_error run) error
  | @returns a pos run value =>
      cases hnext a pos value with
      | returns run' value' => exact .returns ((bind_of_ok run).trans run') value'
      | raises run' error =>
          obtain ⟨herror, rfl⟩ := error
          exact .raises ((bind_of_ok run).trans run') herror

end Outcome

/-- Backtracking makes an operation of a program that fails half way. -/
theorem Halfway.backtrack {program : Scan α} (h : Halfway program s V E) :
    Outcome (Scan.backtrack program) s V E := by
  cases h with
  | returns run value => exact .returns (backtrack_of_ok run) value
  | raises run error => exact .raises (backtrack_of_error run) error
  | fails run error => exact .raises (by simp only [Scan.backtrack, run]) error

end Utf8Scan.Scan
