/-
Texts that can be printed.

A character is printable unless the character database lists it with the controls, the
separators and whatever has no shape of its own.  The visible characters of ASCII are
printable, so the words of messages, numbers in any base and the escapes between quotes
are; a character that stands for itself between quotes was looked up.  Hence a quoted
text is printable, whatever text it quotes.

No line break is printable.
-/
import Utf8Scan.Proofs.RangeTable
import Utf8Scan.Reason
import Utf8Scan.Text.Quoted

namespace Utf8Scan

open Unicode

/-! ### Characters -/

/-- A character that the database does not list as unprintable. -/
def PrintableChar (c : Char) : Prop := ¬ unprintable.Holds c.toNat

theorem unprintable_ascending : unprintable.Ascending :=
  RangeTable.Consecutive.ascending (by decide +kernel)

/-- Looking a character up tells whether it is printable. -/
theorem printableChar_iff {c : Char} : PrintableChar c ↔ unprintable.contains c.toNat = false := by
  rw [PrintableChar, ← unprintable_ascending.contains_iff_holds, Bool.not_eq_true]

/-- A visible character of ASCII, or the space. -/
def isVisible (c : Char) : Bool := 0x20 ≤ c.toNat && c.toNat ≤ 0x7E

theorem printableChar_of_isVisible {c : Char} (h : isVisible c = true) : PrintableChar c := by
  have hmiss : ∀ r ∈ unprintable.ranges.toList, r.2 < 0x20 ∨ 0x7E < r.1 := by decide +kernel
  rw [isVisible, Bool.and_eq_true, decide_eq_true_eq, decide_eq_true_eq] at h
  rintro ⟨r, hr, hfirst, hlast⟩
  rcases hmiss r hr with hbelow | habove
  · omega
  · omega

/-- The characters at which some program may start a new line. -/
def lineBreaks : List Char :=
  ['\n', '\x0B', '\x0C', '\r', '\x1C', '\x1D', '\x1E', '\u0085', '\u2028', '\u2029']

theorem not_printableChar_of_lineBreak {c : Char} (h : c ∈ lineBreaks) : ¬ PrintableChar c := by
  have hbreaks : (lineBreaks.all fun c => unprintable.ranges.toList.any fun r =>
      r.1 ≤ c.toNat && c.toNat ≤ r.2) = true := by decide +kernel
  obtain ⟨r, hr, hc⟩ := List.any_eq_true.mp (List.all_eq_true.mp hbreaks c h)
  rw [Bool.and_eq_true, decide_eq_true_eq, decide_eq_true_eq] at hc
  exact not_not_intro ⟨r, hr, hc⟩

/-! ### Texts -/

/-- All characters of a text are printable. -/
def Printable (text : String) : Prop := ∀ c ∈ text.toList, PrintableChar c

theorem Printable.append {text text' : String} (h : Printable text) (h' : Printable text') :
    Printable (text ++ text') := by
  intro c hc
  rw [String.toList_append, List.mem_append] at hc
  rcases hc with hc | hc
  · exact h c hc
  · exact h' c hc

theorem printable_of_isVisible (text : String) (h : text.toList.all isVisible = true) :
    Printable text := by
  intro c hc
  exact printableChar_of_isVisible (List.all_eq_true.mp h c hc)

theorem Printable.not_mem_lineBreaks {text : String} (h : Printable text) {c : Char}
    (hc : c ∈ lineBreaks) : c ∉ text.toList :=
  fun hmem => not_printableChar_of_lineBreak hc (h c hmem)

/-! ### Numbers -/

/-- The digits of numbers in bases up to sixteen. -/
def digits : List Char :=
  ['0', '1', '2', '3', '4', '5', '6', '7', '8', '9', 'a', 'b', 'c', 'd', 'e', 'f']

theorem digitChar_mem_digits {d : Nat} (hd : d < 16) : d.digitChar ∈ digits := by
  have hall : ∀ d < 16, Nat.digitChar d ∈ digits := by decide
  exact hall d hd

theorem mem_digits_of_mem_toDigits {b n : Nat} {c : Char} (hb : 1 < b) (hbase : b ≤ 16)
    (hc : c ∈ Nat.toDigits b n) : c ∈ digits := by
  induction n using Nat.strong_induction_on with
  | _ n ih =>
      rw [Nat.toDigits_eq_if hb] at hc
      by_cases hlt : n < b
      · rw [if_pos hlt, List.mem_singleton] at hc
        rw [hc]
        exact digitChar_mem_digits (by omega)
      · rw [if_neg hlt, List.mem_append, List.mem_singleton] at hc
        rcases hc with hc | hc
        · exact ih (n / b) (Nat.div_lt_self (by omega) hb) hc
        · rw [hc]
          exact digitChar_mem_digits (Nat.lt_of_lt_of_le (Nat.mod_lt n (by omega)) hbase)

theorem isVisible_of_mem_digits {c : Char} (h : c ∈ digits) :
    isVisible c = true ∧ isVisible c.toUpper = true := by
  have hall : digits.all (fun c => isVisible c && isVisible c.toUpper) = true := by decide
  rw [← Bool.and_eq_true]
  exact List.all_eq_true.mp hall c h

theorem mem_digits_of_mem_hexDigits {width n : Nat} {c : Char}
    (h : c ∈ Text.hexDigits width n) : c ∈ digits := by
  rw [Text.hexDigits, List.leftpad, List.mem_append] at h
  rcases h with h | h
  · rw [List.eq_of_mem_replicate h]
    decide
  · exact mem_digits_of_mem_toDigits (by omega) (by omega) h

theorem printable_upperHex (width n : Nat) : Printable (Text.upperHex width n) := by
  intro c hc
  rw [Text.upperHex, String.toList_ofList] at hc
  obtain ⟨d, hd, rfl⟩ := List.mem_map.mp hc
  exact printableChar_of_isVisible (isVisible_of_mem_digits (mem_digits_of_mem_hexDigits hd)).2

theorem printable_nat (n : Nat) : Printable (toString n) := by
  intro c hc
  have hc : c ∈ Nat.toDigits 10 n := by simpa [toString, Nat.repr] using hc
  have hmem := mem_digits_of_mem_toDigits (by omega) (by omega) hc
  exact printableChar_of_isVisible (isVisible_of_mem_digits hmem).1

theorem printable_int (n : Int) : Printable (toString n) := by
  rw [Int.toString_eq_repr, Int.repr_eq_if]
  split
  · exact printable_nat _
  · exact (printable_of_isVisible "-" (by decide)).append (printable_nat _)

/-! ### Texts in quotes -/

namespace Text

/-- A character by its number is a backslash, a letter and digits. -/
theorem isVisible_of_mem_numbered {c d : Char} (h : d ∈ numbered c) : isVisible d = true := by
  have hescape {width : Nat} {mark : Char} (hmark : isVisible mark = true)
      (h : d ∈ '\\' :: mark :: hexDigits width c.toNat) : isVisible d = true := by
    rw [List.mem_cons, List.mem_cons] at h
    rcases h with rfl | rfl | h
    · decide
    · exact hmark
    · exact (isVisible_of_mem_digits (mem_digits_of_mem_hexDigits h)).1
  unfold numbered at h
  split at h
  · exact hescape (by decide) h
  · split at h
    · exact hescape (by decide) h
    · exact hescape (by decide) h

/-- Only a character that was looked up stands for itself. -/
theorem printableChar_of_mem_quotedChar {quote c d : Char} (hquote : isVisible quote = true)
    (h : d ∈ quotedChar quote c) : PrintableChar d := by
  have hpair {escaped : Char} (hescaped : isVisible escaped = true)
      (h : d ∈ ['\\', escaped]) : PrintableChar d := by
    rw [List.mem_cons, List.mem_singleton] at h
    rcases h with rfl | rfl
    · exact printableChar_of_isVisible (by decide)
    · exact printableChar_of_isVisible hescaped
  unfold quotedChar at h
  split at h
  · rename_i hself
    rcases hself with rfl | rfl
    · exact hpair hquote h
    · exact hpair (by decide) h
  split at h
  · exact hpair (by decide) h
  split at h
  · exact hpair (by decide) h
  split at h
  · exact hpair (by decide) h
  split at h
  · exact printableChar_of_isVisible (isVisible_of_mem_numbered h)
  · rename_i hlooked
    rw [List.mem_singleton.mp h, printableChar_iff]
    exact Bool.not_eq_true _ ▸ hlooked

theorem isVisible_quoteFor (text : List Char) : isVisible (quoteFor text) = true := by
  unfold quoteFor
  split
  · decide
  · decide

/-- **A quoted text is printable, whatever text is quoted.** -/
theorem printable_quoted (text : String) : Printable (quoted text) := by
  intro c hc
  have hquote := isVisible_quoteFor text.toList
  rw [quoted, String.toList_ofList, quotedChars, List.mem_cons, List.mem_append,
    List.mem_singleton] at hc
  rcases hc with rfl | hc | rfl
  · exact printableChar_of_isVisible hquote
  · obtain ⟨d, _, hd⟩ := List.mem_flatMap.mp hc
    exact printableChar_of_mem_quotedChar hquote hd
  · exact printableChar_of_isVisible hquote

end Text

/-! ### Words of messages -/

theorem Reason.printable_text (reason : Reason) : Printable reason.text := by
  cases reason with
  | impossibleLead byte =>
      exact ((printable_of_isVisible "byte 0x" (by decide)).append (printable_upperHex _ _)).append
        (printable_of_isVisible " cannot start a sequence" (by decide))
  | overlong value =>
      exact (printable_of_isVisible "overlong encoding of U+" (by decide)).append
        (printable_upperHex _ _)
  | surrogate value =>
      exact (printable_of_isVisible "surrogate U+" (by decide)).append (printable_upperHex _ _)
  | aboveLimit value =>
      exact ((printable_of_isVisible "value 0x" (by decide)).append (printable_upperHex _ _)).append
        (printable_of_isVisible " above U+10FFFF" (by decide))
  | _ => exact printable_of_isVisible _ (by decide)

end Utf8Scan
