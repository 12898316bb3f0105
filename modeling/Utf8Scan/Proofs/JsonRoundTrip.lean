/-
What is written as JSON reads back as it was.

A value ends where the reader of values stops, whatever the value is, as long as nothing
follows but a comma or a closing bracket; that only matters behind a number.  So what is
read of a list is read item by item, and a value is read by induction on how it is
built.  An escape stands for one character and a character that is written as it is
needs none, so a text is read character by character.

Floats are left out: writing one keeps its value and not its spelling.
-/
import Utf8Scan.Datum.Json
import Utf8Scan.Proofs.JsonReader
import Utf8Scan.Proofs.Printable

namespace Utf8Scan

/-- A value with no float in it. -/
inductive Datum.Exact : Datum → Prop
  | null : Exact .null
  | bool (value : Bool) : Exact (.bool value)
  | int (value : Int) : Exact (.int value)
  | text (value : String) : Exact (.text value)
  | list {items : List Datum} (h : ∀ item ∈ items, Exact item) : Exact (.list items)
  | fields {entries : List (String × Datum)} (h : ∀ entry ∈ entries, Exact entry.2) :
      Exact (.fields entries)

namespace Json

open Datum

variable {n steps : Nat} {c : Char} {chars rest : List Char}

/-! ### Texts -/

theorem unit?_append (h : unit? chars = some (n, [])) (rest : List Char) :
    unit? (chars ++ rest) = some (n, rest) := by
  unfold unit? at h
  split at h
  · simp only [Option.bind_eq_bind, Option.bind_eq_some_iff, Option.pure_def, Option.some.injEq,
      Prod.mk.injEq] at h
    obtain ⟨a, ha, b, hb, c, hc, d, hd, hn, rfl⟩ := h
    simp [unit?, ha, hb, hc, hd, hn]
  · cases h

theorem unit?_hexDigits (hn : n < 0x20) (rest : List Char) :
    unit? (Text.hexDigits 4 n ++ rest) = some (n, rest) := by
  have hall : ∀ n < 0x20, unit? (Text.hexDigits 4 n) = some (n, []) := by decide
  exact unit?_append (hall n hn) rest

/-- However a character is written, it is read back. -/
theorem character?_jsonChar (c : Char) (rest : List Char) :
    character? (jsonChar c ++ rest) = some (c, rest) := by
  unfold jsonChar
  split_ifs with hquote hslash hn hr ht hb hf hcontrol
  · subst hquote; rfl
  · subst hslash; rfl
  · subst hn; rfl
  · subst hr; rfl
  · subst ht; rfl
  · subst hb; rfl
  · subst hf; rfl
  · have hsmall : c.toNat < 0xD800 ∨ 0xDFFF < c.toNat := by omega
    simp only [List.cons_append, character?, numbered?, unit?_hexDigits hcontrol]
    simp [hsmall, Char.ofNat_toNat]
  · simp [character?, hcontrol, hslash]

/-- No character is written as a quote alone, which would close the text. -/
theorem head_jsonChar (c : Char) : ∃ d tail, jsonChar c = d :: tail ∧ d ≠ '\x22' := by
  unfold jsonChar
  split_ifs with hquote
  iterate 8 exact ⟨_, _, rfl, by decide⟩
  exact ⟨_, _, rfl, hquote⟩

theorem characters?_flatMap (text rest : List Char) (hsteps : text.length < steps) :
    characters? steps (text.flatMap jsonChar ++ '\x22' :: rest) = some (text, rest) := by
  induction text generalizing steps with
  | nil =>
      obtain ⟨n, rfl⟩ := Nat.exists_eq_add_one_of_ne_zero (Nat.ne_of_gt hsteps)
      rfl
  | cons c text ih =>
      obtain ⟨n, rfl⟩ := Nat.exists_eq_add_one_of_ne_zero (Nat.ne_of_gt (Nat.zero_lt_of_lt hsteps))
      obtain ⟨d, tail, hd, hquote⟩ := head_jsonChar c
      have hcharacter := character?_jsonChar c (text.flatMap jsonChar ++ '\x22' :: rest)
      rw [List.flatMap_cons, List.append_assoc]
      rw [hd, List.cons_append] at hcharacter ⊢
      rw [characters?, hcharacter]
      · simp [ih (Nat.lt_of_succ_lt_succ hsteps)]
      · simpa using hquote

theorem length_le_length_flatMap (text : List Char) :
    text.length ≤ (text.flatMap jsonChar).length := by
  induction text with
  | nil => exact Nat.le_refl 0
  | cons c text ih =>
      obtain ⟨d, tail, hd, _⟩ := head_jsonChar c
      rw [List.flatMap_cons, List.length_append, hd, List.length_cons, List.length_cons]
      omega

theorem text?_jsonText {text : String} (hchars : jsonText text = '\x22' :: chars)
    (hsteps : chars.length ≤ steps) (rest : List Char) :
    text? steps (chars ++ rest) = some (text, rest) := by
  cases hchars
  have hlength : text.toList.length < steps := by
    have hle := length_le_length_flatMap text.toList
    rw [List.length_append, List.length_singleton] at hsteps
    omega
  rw [text?, List.append_assoc, List.singleton_append, characters?_flatMap text.toList rest hlength,
    Option.map_some]
  simp

/-! ### Numbers -/

/-- What may stand behind a value: nothing, or a sign that is part of no value. -/
def Ends (rest : List Char) : Prop := ∀ c ∈ rest.head?, c = ',' ∨ c = ']' ∨ c = '\x7d'

theorem Ends.cons (h : c = ',' ∨ c = ']' ∨ c = '\x7d') : Ends (c :: rest) := by
  intro d hd
  cases hd
  exact h

theorem Ends.not_isDigit (h : Ends rest) : ∀ c ∈ rest.head?, c.isDigit = false := by
  intro c hc
  rcases h c hc with rfl | rfl | rfl <;> rfl

theorem digits?_append {digits : List Char} (hdigits : ∀ c ∈ digits, c.isDigit = true)
    (hne : digits ≠ []) (hrest : ∀ c ∈ rest.head?, c.isDigit = false) :
    digits? (digits ++ rest) = some (digits, rest) := by
  obtain ⟨htake, hdrop⟩ :
      rest.takeWhile Char.isDigit = [] ∧ rest.dropWhile Char.isDigit = rest := by
    cases rest with
    | nil => exact ⟨rfl, rfl⟩
    | cons c rest => simp [hrest c rfl]
  rw [digits?, List.takeWhile_append_of_pos hdigits, List.dropWhile_append_of_pos hdigits, htake,
    hdrop, List.append_nil]
  cases digits with
  | nil => exact absurd rfl hne
  | cons c digits => rfl

theorem head_toDigits (n : Nat) : ∃ c tail, Nat.toDigits 10 n = c :: tail ∧ c.isDigit = true := by
  obtain ⟨c, tail, h⟩ := List.exists_cons_of_ne_nil (@Nat.toDigits_ne_nil n 10)
  refine ⟨c, tail, h, ?_⟩
  exact Nat.isDigit_of_mem_toDigits (by omega) (Nat.le_refl 10) (h ▸ List.mem_cons_self)

/-- Only zero is written with a zero in front. -/
theorem toDigits_of_head?_zero (h : (Nat.toDigits 10 n).head? = some '0') :
    Nat.toDigits 10 n = ['0'] := by
  induction n using Nat.strong_induction_on with
  | _ n ih =>
      by_cases hlt : n < 10
      · rw [Nat.toDigits_of_lt_base hlt] at h ⊢
        rw [List.head?_cons, Option.some.injEq] at h
        rw [h]
      · have hsplit := @Nat.toDigits_eq_if 10 n (by omega)
        rw [if_neg hlt] at hsplit
        obtain ⟨c, tail, hc, _⟩ := head_toDigits (n / 10)
        have hhead : (Nat.toDigits 10 (n / 10)).head? = some '0' := by
          rw [hsplit, hc] at h
          rw [hc]
          exact h
        -- the digits in front would be a zero, but what they write is not zero
        have hzero := ih (n / 10) (by omega) hhead
        have hvalue := @Nat.ofDigitChars_ten_toDigits (n / 10)
        rw [hzero] at hvalue
        have : Nat.ofDigitChars 10 ['0'] 0 = 0 := rfl
        omega

theorem whole?_toDigits (h : Ends rest) : whole? (Nat.toDigits 10 n ++ rest) = some (n, rest) := by
  have hdigits := digits?_append (fun c hc => Nat.isDigit_of_mem_toDigits (by omega) (by omega) hc)
    (@Nat.toDigits_ne_nil n 10) h.not_isDigit
  have hzero : ¬ ((Nat.toDigits 10 n).head? = some '0' ∧ Nat.toDigits 10 n ≠ ['0']) :=
    fun h => h.2 (toDigits_of_head?_zero h.1)
  rw [whole?, hdigits]
  simp only [Option.bind_eq_bind, Option.bind_some, if_neg hzero, Nat.ofDigitChars_ten_toDigits]
  rfl

theorem fraction?_of_ends (h : Ends rest) : fraction? rest = some (none, rest) := by
  unfold fraction?
  split
  · rcases h '.' rfl with hc | hc | hc <;> cases hc
  · rfl

theorem exponent?_of_ends (h : Ends rest) : exponent? rest = some (none, rest) := by
  cases rest with
  | nil => rfl
  | cons c rest =>
      have hc : ¬ (c = 'e' ∨ c = 'E') := by
        rcases h c rfl with rfl | rfl | rfl <;> decide
      rw [exponent?, if_neg hc]

theorem unsigned?_toDigits (negative : Bool) (h : Ends rest) :
    unsigned? negative (Nat.toDigits 10 n ++ rest) =
      some (.int (if negative then -n else n), rest) := by
  rw [unsigned?, whole?_toDigits h]
  simp [fraction?_of_ends h, exponent?_of_ends h]

theorem number?_jsonInt (value : Int) (h : Ends rest) :
    number? (jsonInt value ++ rest) = some (.int value, rest) := by
  cases value with
  | ofNat n =>
      have hread := unsigned?_toDigits (n := n) false h
      obtain ⟨c, tail, hc, hdigit⟩ := head_toDigits n
      rw [jsonInt]
      rw [hc, List.cons_append] at hread ⊢
      rw [number?, hread]
      · rfl
      · intro tail heq
        cases heq
        cases hdigit
  | negSucc n => exact unsigned?_toDigits (n := n + 1) true h

/-- What an integer starts with starts nothing else. -/
theorem head_jsonInt (value : Int) : ∃ c tail, jsonInt value = c :: tail ∧
    ∀ d : Char, d ≠ '-' ∧ d.isDigit = false → c ≠ d := by
  cases value with
  | ofNat n =>
      obtain ⟨c, tail, h, hc⟩ := head_toDigits n
      refine ⟨c, tail, h, ?_⟩
      intro d hd heq
      rw [heq, hd.2] at hc
      cases hc
  | negSucc n => exact ⟨_, _, rfl, fun d hd heq => hd.1 heq.symm⟩

/-! ### Lists -/

/-- An item is read where it is written as `chars` and may end there. -/
structure Reads {α : Type} (item : List Char → Option (α × List Char)) (chars : List Char)
    (a : α) : Prop where
  head : ∃ c tail, chars = c :: tail ∧ isBlank c = false ∧ c ≠ ']' ∧ c ≠ '\x7d'
  read : ∀ rest, Ends rest → item (chars ++ rest) = some (a, rest)

theorem skipBlanks_cons (h : isBlank c = false) : skipBlanks (c :: rest) = c :: rest := by
  rw [skipBlanks, List.dropWhile_cons_of_neg (by simp [h])]

/-- A list whose items are not empty starts as its first item does. -/
theorem intercalate_eq_cons (sep : List Char) {first : List Char} (parts : List (List Char))
    (h : first = c :: chars) : ∃ tail, sep.intercalate (first :: parts) = c :: tail := by
  cases parts with
  | nil => exact ⟨chars, by rw [List.intercalate_singleton, h]⟩
  | cons second parts =>
      rw [List.intercalate_cons_cons, h]
      exact ⟨_, rfl⟩

theorem length_le_length_intercalate (sep : List Char) {part : List Char} {parts : List (List Char)}
    (h : part ∈ parts) : part.length ≤ (sep.intercalate parts).length := by
  induction parts with
  | nil => cases h
  | cons first parts ih =>
      cases parts with
      | nil => rw [List.intercalate_singleton, List.mem_singleton.mp h]
      | cons second parts =>
          rw [List.intercalate_cons_cons, List.length_append, List.length_append]
          rcases List.mem_cons.mp h with rfl | h
          · omega
          · have hle := ih h
            omega

section Lists

variable {α : Type} {item : List Char → Option (α × List Char)} {write : α → List Char}
  {close : Char} {a : α} {items : List α}

theorem Reads.skipBlanks (h : Reads item chars a) (rest : List Char) :
    Json.skipBlanks (chars ++ rest) = chars ++ rest := by
  obtain ⟨c, tail, rfl, hblank, _⟩ := h.head
  exact skipBlanks_cons hblank

theorem isBlank_close (hclose : close = ']' ∨ close = '\x7d') : isBlank close = false := by
  rcases hclose with rfl | rfl
  · rfl
  · rfl

theorem separated?_blank (h : isBlank c = true) :
    separated? item close steps (c :: rest) = separated? item close steps rest := by
  have hskip : Json.skipBlanks (c :: rest) = Json.skipBlanks rest := List.dropWhile_cons_of_pos h
  cases steps with
  | zero => rfl
  | succ n => rw [separated?, separated?, hskip]

/-- The last item of a list. -/
theorem separated?_close (hclose : close = ']' ∨ close = '\x7d') (h : Reads item chars a)
    (rest : List Char) :
    separated? item close (n + 1) (chars ++ close :: rest) = some ([a], rest) := by
  rw [separated?, h.skipBlanks, h.read _ (.cons (.inr hclose))]
  simp [skipBlanks_cons (isBlank_close hclose)]

/-- An item of a list that goes on. -/
theorem separated?_comma (hclose : close = ']' ∨ close = '\x7d') (h : Reads item chars a)
    (rest : List Char) :
    separated? item close (n + 1) (chars ++ ([',', ' '] ++ rest)) =
      (separated? item close n rest).map fun (more, rest) => (a :: more, rest) := by
  have hcomma : ',' ≠ close := by
    rcases hclose with rfl | rfl
    · decide
    · decide
  have hskip : Json.skipBlanks ([',', ' '] ++ rest) = ',' :: ' ' :: rest := skipBlanks_cons rfl
  have hends : Ends ([',', ' '] ++ rest) := .cons (.inl rfl)
  rw [separated?, h.skipBlanks, h.read _ hends]
  simp only [Option.bind_eq_bind, Option.bind_some, hskip, if_neg hcomma, if_true,
    separated?_blank (show isBlank ' ' = true from rfl)]
  cases separated? item close n rest with
  | none => rfl
  | some found => rfl

theorem separated?_intercalate (hclose : close = ']' ∨ close = '\x7d') (hne : items ≠ [])
    (hsteps : ([',', ' '].intercalate (items.map write)).length ≤ steps)
    (h : ∀ a ∈ items, Reads item (write a) a) (rest : List Char) :
    separated? item close steps
      ([',', ' '].intercalate (items.map write) ++ close :: rest) = some (items, rest) := by
  induction items generalizing steps with
  | nil => contradiction
  | cons a items ih =>
      have ha := h a List.mem_cons_self
      obtain ⟨c, tail, hc, _⟩ := ha.head
      have hpos : 0 < ([',', ' '].intercalate ((a :: items).map write)).length := by
        obtain ⟨more, hmore⟩ := intercalate_eq_cons [',', ' '] (items.map write) hc
        rw [List.map_cons, hmore]
        exact Nat.succ_pos _
      obtain ⟨n, rfl⟩ := Nat.exists_eq_add_one_of_ne_zero (show steps ≠ 0 by omega)
      cases items with
      | nil =>
          rw [List.map_singleton, List.intercalate_singleton]
          exact separated?_close hclose ha rest
      | cons b items =>
          have hsplit : [',', ' '].intercalate ((a :: b :: items).map write) =
              write a ++ ([',', ' '] ++ [',', ' '].intercalate ((b :: items).map write)) := by
            rw [List.map_cons, List.map_cons, List.intercalate_cons_cons, List.append_assoc]
          rw [hsplit, List.length_append, List.length_append, List.length_cons] at hsteps
          have hmore := ih nofun (show _ ≤ n by omega)
            fun a' ha' => h a' (List.mem_cons_of_mem a ha')
          rw [hsplit, List.append_assoc, List.append_assoc, separated?_comma hclose ha, hmore]
          rfl

theorem items?_intercalate (hclose : close = ']' ∨ close = '\x7d')
    (hsteps : ([',', ' '].intercalate (items.map write)).length ≤ steps)
    (h : ∀ a ∈ items, Reads item (write a) a) (rest : List Char) :
    items? item close steps
      ([',', ' '].intercalate (items.map write) ++ close :: rest) = some (items, rest) := by
  cases items with
  | nil =>
      have hskip : Json.skipBlanks ([',', ' '].intercalate [] ++ close :: rest) = close :: rest :=
        skipBlanks_cons (isBlank_close hclose)
      rw [List.map_nil, items?, hskip]
      simp
  | cons a items =>
      have hread := separated?_intercalate hclose (List.cons_ne_nil a items) hsteps h rest
      obtain ⟨c, tail, hc, hblank, hbracket, hbrace⟩ := (h a List.mem_cons_self).head
      have hne : c ≠ close := by
        rcases hclose with rfl | rfl
        · exact hbracket
        · exact hbrace
      obtain ⟨more, hmore⟩ := intercalate_eq_cons [',', ' '] (items.map write) hc
      rw [List.map_cons, hmore, List.cons_append] at hread ⊢
      rw [items?, skipBlanks_cons hblank]
      simp only [if_neg hne]
      exact hread

/-- A list is read if its items are, and none of them is longer than the list. -/
theorem items?_of_length (hclose : close = ']' ∨ close = '\x7d') {opening : Char}
    (hsteps : (opening :: ([',', ' '].intercalate (items.map write) ++ [close])).length ≤ steps + 1)
    (h : ∀ a ∈ items, (write a).length ≤ steps → Reads item (write a) a) (rest : List Char) :
    items? item close steps
      ([',', ' '].intercalate (items.map write) ++ [close] ++ rest) = some (items, rest) := by
  rw [List.length_cons, List.length_append] at hsteps
  have hreads : ∀ a ∈ items, Reads item (write a) a := by
    intro a ha
    have hle := length_le_length_intercalate [',', ' '] (List.mem_map_of_mem (f := write) ha)
    exact h a ha (by omega)
  rw [List.append_assoc, List.singleton_append]
  exact items?_intercalate hclose (by omega) hreads rest

end Lists

/-! ### Values -/

theorem jsonItems_eq_map (items : List Datum) : jsonItems items = items.map jsonChars := by
  induction items with
  | nil => rfl
  | cons item rest ih => rw [jsonItems, ih, List.map_cons]

theorem word?_of_ne {word : String} {value : Datum} {d : Char} {tail : List Char}
    (hword : word.toList = d :: tail) (h : c ≠ d) : word? word value (c :: rest) = none := by
  rw [word?, hword, List.isPrefixOf?, if_neg (by simpa using h.symm), Option.map_none]

theorem reads_word {value : Datum}
    (h : value = .null ∨ value = .bool true ∨ value = .bool false)
    (hsteps : value.jsonChars.length ≤ steps) : Reads (value? steps) value.jsonChars value := by
  cases steps with
  | zero => rcases h with rfl | rfl | rfl <;> cases hsteps
  | succ n =>
      rcases h with rfl | rfl | rfl
      · exact ⟨⟨_, _, rfl, rfl, by decide, by decide⟩, fun _ _ => rfl⟩
      · exact ⟨⟨_, _, rfl, rfl, by decide, by decide⟩, fun _ _ => rfl⟩
      · exact ⟨⟨_, _, rfl, rfl, by decide, by decide⟩, fun _ _ => rfl⟩

theorem reads_int (value : Int) (hsteps : (jsonInt value).length ≤ steps) :
    Reads (value? steps) (jsonInt value) (.int value) := by
  obtain ⟨c, tail, hc, hother⟩ := head_jsonInt value
  rw [hc, List.length_cons] at hsteps
  obtain ⟨n, rfl⟩ := Nat.exists_eq_add_one_of_ne_zero (show steps ≠ 0 by omega)
  constructor
  · refine ⟨c, tail, hc, ?_, hother _ (by decide), hother _ (by decide)⟩
    simp [isBlank, hother ' ' (by decide), hother '\t' (by decide), hother '\n' (by decide),
      hother '\r' (by decide)]
  · intro rest hrest
    have hread := number?_jsonInt value hrest
    rw [hc, List.cons_append] at hread ⊢
    rw [value?, word?_of_ne rfl (hother 'n' (by decide)), word?_of_ne rfl (hother 't' (by decide)),
      word?_of_ne rfl (hother 'f' (by decide)), hread]
    · rfl
    all_goals
      intro tail heq
      cases heq
      exact hother _ (by decide) rfl

theorem reads_text (text : String) (hsteps : (jsonText text).length ≤ steps) :
    Reads (value? steps) (jsonText text) (.text text) := by
  refine ⟨⟨_, _, rfl, rfl, by decide, by decide⟩, ?_⟩
  intro rest _
  cases steps with
  | zero => cases hsteps
  | succ n =>
      rw [jsonText, List.cons_append, value?, text?_jsonText rfl (Nat.le_of_succ_le_succ hsteps)]
      rfl

theorem reads_list {items : List Datum} (hsteps : (list items).jsonChars.length ≤ steps)
    (h : ∀ item ∈ items, ∀ {steps}, item.jsonChars.length ≤ steps →
      Reads (value? steps) item.jsonChars item) :
    Reads (value? steps) (list items).jsonChars (.list items) := by
  refine ⟨⟨_, _, rfl, rfl, by decide, by decide⟩, ?_⟩
  intro rest _
  cases steps with
  | zero => cases hsteps
  | succ n =>
      rw [jsonChars, jsonItems_eq_map] at hsteps ⊢
      rw [List.cons_append, value?,
        items?_of_length (.inl rfl) hsteps fun item hitem hle => h item hitem hle]
      rfl

/-- How an entry is written. -/
def entryChars (entry : String × Datum) : List Char :=
  jsonText entry.1 ++ [':', ' '] ++ entry.2.jsonChars

theorem reads_entry {name : String} {d : Datum} (hname : (jsonText name).length ≤ steps)
    (hd : Reads (value? n) d.jsonChars d) :
    Reads (pair? (value? n) steps) (entryChars (name, d)) (name, d) := by
  refine ⟨⟨_, _, rfl, rfl, by decide, by decide⟩, ?_⟩
  intro rest hrest
  have hcolon : ∀ chars, skipBlanks ([':', ' '] ++ chars) = ':' :: ' ' :: chars :=
    fun chars => skipBlanks_cons rfl
  have hblank : skipBlanks (' ' :: (d.jsonChars ++ rest)) = d.jsonChars ++ rest :=
    (List.dropWhile_cons_of_pos rfl).trans (hd.skipBlanks rest)
  rw [entryChars, List.append_assoc, List.append_assoc, jsonText, List.cons_append, pair?,
    text?_jsonText rfl (Nat.le_of_succ_le hname)]
  simp only [Option.bind_eq_bind, Option.bind_some, hcolon, hblank, hd.read rest hrest]
  rfl

theorem reads_fields {entries : List (String × Datum)}
    (hsteps : (Datum.fields entries).jsonChars.length ≤ steps)
    (h : ∀ entry ∈ entries, ∀ {steps}, entry.2.jsonChars.length ≤ steps →
      Reads (value? steps) entry.2.jsonChars entry.2) :
    Reads (value? steps) (Datum.fields entries).jsonChars (.fields entries) := by
  refine ⟨⟨_, _, rfl, rfl, by decide, by decide⟩, ?_⟩
  intro rest _
  cases steps with
  | zero => cases hsteps
  | succ n =>
      have hentries : jsonEntries entries = entries.map entryChars := jsonEntries_eq_map entries
      rw [jsonChars, hentries] at hsteps ⊢
      have hreads : ∀ entry ∈ entries, (entryChars entry).length ≤ n →
          Reads (pair? (value? n) n) (entryChars entry) entry := by
        intro entry hentry hle
        rw [entryChars, List.length_append, List.length_append] at hle
        exact reads_entry (by omega) (h entry hentry (by omega))
      rw [List.cons_append, value?, items?_of_length (.inr rfl) hsteps hreads]
      rfl

/-- A value is read where it is written. -/
theorem reads_of_exact {d : Datum} (h : d.Exact) (hsteps : d.jsonChars.length ≤ steps) :
    Reads (value? steps) d.jsonChars d := by
  induction h generalizing steps with
  | null => exact reads_word (.inl rfl) hsteps
  | bool value =>
      cases value with
      | false => exact reads_word (.inr (.inr rfl)) hsteps
      | true => exact reads_word (.inr (.inl rfl)) hsteps
  | int value => exact reads_int value hsteps
  | text value => exact reads_text value hsteps
  | list _ ih => exact reads_list hsteps ih
  | fields _ ih => exact reads_fields hsteps ih

/-- **What is written as JSON reads back as it was.** -/
theorem read?_json {d : Datum} (h : d.Exact) : read? d.json = some d := by
  have hlength : d.jsonChars.length ≤ d.json.length := by rw [json, String.length_ofList]
  have hreads := reads_of_exact h hlength
  have hends : Ends [] := nofun
  have hskip := hreads.skipBlanks []
  have hread := hreads.read [] hends
  rw [List.append_nil] at hskip hread
  rw [read?, json, String.toList_ofList, hskip]
  rw [json] at hread
  rw [hread]
  rfl

/-! ### No controls -/

theorem mem_intercalate {sep : List Char} {parts : List (List Char)}
    (h : c ∈ sep.intercalate parts) : c ∈ sep ∨ ∃ part ∈ parts, c ∈ part := by
  induction parts with
  | nil => cases h
  | cons first parts ih =>
      cases parts with
      | nil =>
          rw [List.intercalate_singleton] at h
          exact .inr ⟨first, List.mem_cons_self, h⟩
      | cons second parts =>
          rw [List.intercalate_cons_cons, List.mem_append, List.mem_append] at h
          rcases h with (h | h) | h
          · exact .inr ⟨first, List.mem_cons_self, h⟩
          · exact .inl h
          · rcases ih h with h | ⟨part, hpart, h⟩
            · exact .inl h
            · exact .inr ⟨part, List.mem_cons_of_mem first hpart, h⟩

/-- No character of `chars` is a control of ASCII below the space. -/
def FreeOfControls (chars : List Char) : Prop := ∀ c ∈ chars, 0x20 ≤ c.toNat

theorem freeOfControls_of_isVisible (chars : List Char) (h : chars.all isVisible = true) :
    FreeOfControls chars := by
  intro c hc
  have hvisible := List.all_eq_true.mp h c hc
  rw [isVisible, Bool.and_eq_true, decide_eq_true_eq] at hvisible
  exact hvisible.1

theorem FreeOfControls.append {chars' : List Char} (h : FreeOfControls chars)
    (h' : FreeOfControls chars') : FreeOfControls (chars ++ chars') := by
  intro c hc
  rcases List.mem_append.mp hc with hc | hc
  · exact h c hc
  · exact h' c hc

theorem FreeOfControls.intercalate {parts : List (List Char)}
    (h : ∀ part ∈ parts, FreeOfControls part) :
    FreeOfControls ([',', ' '].intercalate parts) := by
  intro c hc
  rcases mem_intercalate hc with hc | ⟨part, hpart, hc⟩
  · exact freeOfControls_of_isVisible _ (by decide) c hc
  · exact h part hpart c hc

theorem freeOfControls_hexDigits (width n : Nat) : FreeOfControls (Text.hexDigits width n) := by
  refine freeOfControls_of_isVisible _ (List.all_eq_true.mpr ?_)
  intro c hc
  exact (isVisible_of_mem_digits (mem_digits_of_mem_hexDigits hc)).1

theorem freeOfControls_jsonChar (c : Char) : FreeOfControls (jsonChar c) := by
  unfold jsonChar
  split_ifs with hquote hslash hn hr ht hb hf hcontrol
  iterate 7 exact freeOfControls_of_isVisible _ (by decide)
  · have hmark := freeOfControls_of_isVisible ['\\', 'u'] (by decide)
    exact hmark.append (freeOfControls_hexDigits 4 c.toNat)
  · intro d hd
    rw [List.mem_singleton.mp hd]
    exact Nat.le_of_not_lt hcontrol

theorem freeOfControls_jsonText (text : String) : FreeOfControls (jsonText text) := by
  have hquote := freeOfControls_of_isVisible ['\x22'] (by decide)
  have hchars : FreeOfControls (text.toList.flatMap jsonChar) := by
    intro c hc
    obtain ⟨d, _, hd⟩ := List.mem_flatMap.mp hc
    exact freeOfControls_jsonChar d c hd
  exact hquote.append (hchars.append hquote)

theorem freeOfControls_jsonInt (value : Int) : FreeOfControls (jsonInt value) := by
  have hdigits : ∀ n, FreeOfControls (Nat.toDigits 10 n) := by
    intro n
    refine freeOfControls_of_isVisible _ (List.all_eq_true.mpr ?_)
    intro c hc
    exact (isVisible_of_mem_digits (mem_digits_of_mem_toDigits (by omega) (by omega) hc)).1
  cases value with
  | ofNat n => exact hdigits n
  | negSucc n =>
      have hminus := freeOfControls_of_isVisible ['-'] (by decide)
      exact hminus.append (hdigits (n + 1))

/-- A written value stays on its line, and no control of the terminal is in it. -/
theorem freeOfControls_jsonChars {d : Datum} (h : d.Exact) : FreeOfControls d.jsonChars := by
  induction h with
  | null => exact freeOfControls_of_isVisible _ (by decide)
  | bool value =>
      cases value with
      | false => exact freeOfControls_of_isVisible _ (by decide)
      | true => exact freeOfControls_of_isVisible _ (by decide)
  | int value => exact freeOfControls_jsonInt value
  | text value => exact freeOfControls_jsonText value
  | @list items _ ih =>
      have hopen := freeOfControls_of_isVisible ['['] (by decide)
      have hclose := freeOfControls_of_isVisible [']'] (by decide)
      rw [jsonChars, jsonItems_eq_map]
      refine hopen.append (FreeOfControls.append (.intercalate ?_) hclose)
      intro part hpart
      obtain ⟨item, hitem, rfl⟩ := List.mem_map.mp hpart
      exact ih item hitem
  | @fields entries _ ih =>
      have hopen := freeOfControls_of_isVisible ['\x7b'] (by decide)
      have hclose := freeOfControls_of_isVisible ['\x7d'] (by decide)
      have hcolon := freeOfControls_of_isVisible [':', ' '] (by decide)
      rw [jsonChars, jsonEntries_eq_map]
      refine hopen.append (FreeOfControls.append (.intercalate ?_) hclose)
      intro part hpart
      obtain ⟨entry, hentry, rfl⟩ := List.mem_map.mp hpart
      exact ((freeOfControls_jsonText entry.1).append hcolon).append (ih entry hentry)

end Json

end Utf8Scan
