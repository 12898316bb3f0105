/-
Plain values, as a caller may hand them over where a text was expected.

Some places refuse such a value, with a message that shows it or names its type.  Others
take it as it is: the parts of a diagnostic are texts where scanning makes it, but can be
any values where a caller does.
-/
import Utf8Scan.Decimal.Layout
import Utf8Scan.Text.Quoted

namespace Utf8Scan

inductive Datum where
  | null
  | bool (value : Bool)
  | int (value : Int)
  | float (value : Float)
  | text (value : String)
  | list (items : List Datum)
  /-- Named values, in the order in which they were given. -/
  | fields (entries : List (String × Datum))
  deriving Repr, Inhabited

namespace Datum

/-- How a message names the type of a value. -/
def typeName : Datum → String
  | null => "NoneType"
  | bool _ => "bool"
  | int _ => "int"
  | float _ => "float"
  | text _ => "str"
  | list _ => "list"
  | fields _ => "dict"

instance : Coe String Datum := ⟨text⟩

/-- Whether a value counts as something: nothing, false, zero and what is empty do not. -/
def isSomething : Datum → Bool
  | null => false
  | bool value => value
  | int value => value != 0
  | float value => value != 0
  | text value => value != ""
  | list items => !items.isEmpty
  | fields entries => !entries.isEmpty

/-- How long a value is, if it has a length. -/
def length? : Datum → Option Nat
  | text value => some value.length
  | list items => some items.length
  | fields entries => some entries.length
  | _ => none

/-! ### Values in messages -/

mutual

/-- How a message shows a value, texts in quotes. -/
def written : Datum → String
  | null => "None"
  | bool value => if value then "True" else "False"
  | int value => toString value
  | float value => Decimal.ofFloat value
  | text value => Text.quoted value
  | list items => "[" ++ ", ".intercalate (writtenItems items) ++ "]"
  | fields entries => "\x7b" ++ ", ".intercalate (writtenEntries entries) ++ "\x7d"

def writtenItems : List Datum → List String
  | [] => []
  | first :: rest => first.written :: writtenItems rest

def writtenEntries : List (String × Datum) → List String
  | [] => []
  | (name, value) :: rest => (Text.quoted name ++ ": " ++ value.written) :: writtenEntries rest

end

/-- How a value is shown inside a sentence: a text stands for itself. -/
def shown : Datum → String
  | text value => value
  | other => other.written

instance : ToString Datum := ⟨shown⟩

/-! ### Equality -/

mutual

def decEq (a b : Datum) : Decidable (a = b) :=
  match a with
  | null => match b with
    | null => isTrue rfl
    | bool _ | int _ | float _ | text _ | list _ | fields _ => isFalse nofun
  | bool x => match b with
    | bool y => decidable_of_iff (x = y) (bool.injEq x y ▸ Iff.rfl)
    | null | int _ | float _ | text _ | list _ | fields _ => isFalse nofun
  | int x => match b with
    | int y => decidable_of_iff (x = y) (int.injEq x y ▸ Iff.rfl)
    | null | bool _ | float _ | text _ | list _ | fields _ => isFalse nofun
  | float x => match b with
    | float y => decidable_of_iff (x = y) (float.injEq x y ▸ Iff.rfl)
    | null | bool _ | int _ | text _ | list _ | fields _ => isFalse nofun
  | text x => match b with
    | text y => decidable_of_iff (x = y) (text.injEq x y ▸ Iff.rfl)
    | null | bool _ | int _ | float _ | list _ | fields _ => isFalse nofun
  | list xs => match b with
    | list ys => match decEqItems xs ys with
      | isTrue h => isTrue (congrArg list h)
      | isFalse h => isFalse fun heq => h (list.inj heq)
    | null | bool _ | int _ | float _ | text _ | fields _ => isFalse nofun
  | fields xs => match b with
    | fields ys => match decEqEntries xs ys with
      | isTrue h => isTrue (congrArg fields h)
      | isFalse h => isFalse fun heq => h (fields.inj heq)
    | null | bool _ | int _ | float _ | text _ | list _ => isFalse nofun

def decEqItems (xs ys : List Datum) : Decidable (xs = ys) :=
  match xs with
  | [] => match ys with
    | [] => isTrue rfl
    | _ :: _ => isFalse nofun
  | x :: xs => match ys with
    | [] => isFalse nofun
    | y :: ys => match decEq x y, decEqItems xs ys with
      | isTrue h, isTrue hs => isTrue (h ▸ hs ▸ rfl)
      | isFalse h, _ => isFalse fun heq => h (List.cons.inj heq).1
      | _, isFalse hs => isFalse fun heq => hs (List.cons.inj heq).2

def decEqEntries (xs ys : List (String × Datum)) : Decidable (xs = ys) :=
  match xs with
  | [] => match ys with
    | [] => isTrue rfl
    | _ :: _ => isFalse nofun
  | (name, x) :: xs => match ys with
    | [] => isFalse nofun
    | (name', y) :: ys => match decEq x y, decEqEntries xs ys with
      | isTrue h, isTrue hs =>
        decidable_of_iff (name = name') ⟨fun hname => hname ▸ h ▸ hs ▸ rfl,
          fun heq => (Prod.mk.inj (List.cons.inj heq).1).1⟩
      | isFalse h, _ => isFalse fun heq => h (Prod.mk.inj (List.cons.inj heq).1).2
      | _, isFalse hs => isFalse fun heq => hs (List.cons.inj heq).2

end

instance : DecidableEq Datum := decEq

end Datum

end Utf8Scan
