/-
The two readers agree.

A window can be read character by character, or as a whole.  The two ways share no code
and find different faults, but both go by whole encodings: any bytes start with a
longest text, `exists_spell_append`, and behind it there are none, or some that no
character starts with.  Both readers come to the end of that text.  If nothing is left
there, the text is the result; otherwise both fail, at that place and nowhere else,
because both read a character exactly where its encoding lies.
-/
import Utf8Scan.Proofs.Decoding
import Utf8Scan.Scanner

namespace Utf8Scan

/-- No character starts here. -/
def Stuck (bytes : List UInt8) : Prop := ∀ c, ¬ String.utf8EncodeChar c <+: bytes

theorem stuck_nil : Stuck [] := by
  intro c h
  obtain ⟨lead, trail, hbytes, _⟩ := encode_eq_cons c
  rw [hbytes] at h
  exact List.cons_ne_nil _ _ (List.prefix_nil.mp h)

/-- Any bytes start with a longest text. -/
theorem exists_spell_append (bytes : List UInt8) :
    ∃ chars rest, bytes = spell chars ++ rest ∧ Stuck rest := by
  induction hn : bytes.length using Nat.strong_induction_on generalizing bytes with
  | _ n ih =>
      by_cases hchar : ∃ c, String.utf8EncodeChar c <+: bytes
      · obtain ⟨c, tail, rfl⟩ := hchar
        rw [List.length_append, String.length_utf8EncodeChar] at hn
        have hpos := c.utf8Size_pos
        obtain ⟨chars, rest, rfl, hrest⟩ := ih tail.length (by omega) tail rfl
        exact ⟨c :: chars, rest, by rw [spell_cons, List.append_assoc], hrest⟩
      · exact ⟨[], bytes, rfl, fun c hc => hchar ⟨c, hc⟩⟩

namespace Buffer

variable {b : Buffer} {first last : Nat} {c : Char} {chars : List Char} {rest : List UInt8}

/-! ### Going on by one character -/

theorem between_add (b : Buffer) (first last n : Nat) :
    b.between (first + n) last = (b.between first last).drop n := by
  rw [between, between, List.drop_drop]

theorem between_append {mid : Nat} (hfirst : first ≤ mid) (hlast : mid ≤ last) :
    b.between first mid ++ b.between mid last = b.between first last := by
  obtain ⟨n, rfl⟩ := Nat.exists_eq_add_of_le hfirst
  have hlength : n + (last - (first + n)) = last - first := by omega
  rw [between_add, between_eq, between_eq, Nat.add_sub_cancel_left, List.drop_take, ← List.take_add,
    ← hlength, Nat.add_sub_cancel_left]

theorem length_between (hlast : last ≤ b.size) : (b.between first last).length = last - first := by
  rw [between, List.length_drop, List.length_take, length_toList, Nat.min_eq_left hlast]

/-- What a window starts with is what lies in its first bytes. -/
theorem between_of_prefix {bytes : List UInt8} (h : bytes <+: b.between first last) :
    b.between first (first + bytes.length) = bytes := by
  rw [between_eq] at h
  have hbytes : bytes <+: b.toList.drop first := h.trans (List.take_prefix _ _)
  rw [between_eq, Nat.add_sub_cancel_left, ← List.prefix_iff_eq_take.mp hbytes]

theorem lt_of_between_ne_nil (h : b.between first last ≠ []) : first < last := by
  by_contra hle
  rw [between_eq, Nat.sub_eq_zero_of_le (Nat.not_lt.mp hle)] at h
  exact h rfl

theorem le_of_between_eq_nil (hlast : last ≤ b.size) (h : b.between first last = []) :
    last ≤ first := by
  have hlength := congrArg List.length h
  rw [length_between hlast, List.length_nil] at hlength
  omega

/-- The window starts with a character, and goes on behind it. -/
theorem between_step (h : b.between first last = spell (c :: chars) ++ rest) :
    first < last ∧ String.utf8EncodeChar c <+: b.between first last ∧
      b.between (first + (Width.ofChar c).bytes) last = spell chars ++ rest := by
  rw [spell_cons, List.append_assoc] at h
  have hne : b.between first last ≠ [] := by
    obtain ⟨lead, trail, hbytes, _⟩ := encode_eq_cons c
    rw [h, hbytes]
    exact List.cons_ne_nil _ _
  refine ⟨lt_of_between_ne_nil hne, ⟨_, h.symm⟩, ?_⟩
  rw [between_add, h, Width.bytes_ofChar, ← String.length_utf8EncodeChar, List.drop_left]

theorem between_behind (h : b.between first last = spell chars ++ rest) :
    b.between (first + (spell chars).length) last = rest := by
  rw [between_add, h, List.drop_left]

/-! ### Reading as a whole -/

theorem window_eq_take (b : Buffer) (first last : Nat) :
    b.window first last = (b.between first last).take 4 := ahead_eq_take b first last

/-- The reader of whole texts reads a character where its encoding lies. -/
theorem window_of_prefix (h : String.utf8EncodeChar c <+: b.between first last) :
    ∃ lead tail, b.window first last = lead :: tail ∧
      Strict.decode lead tail = .ok (c, .ofChar c) := by
  have hencode : String.utf8EncodeChar c <+: b.window first last := encode_prefix_ahead_iff.mpr h
  obtain ⟨lead, trail, hbytes, _⟩ := encode_eq_cons c
  cases hwindow : b.window first last with
  | nil =>
      rw [hwindow, hbytes] at hencode
      simp at hencode
  | cons lead tail =>
      rw [hwindow] at hencode
      exact ⟨lead, tail, rfl, Strict.decode_eq_ok_iff_encode.mpr ⟨rfl, hencode⟩⟩

/-- It finds fault where there are bytes and no character starts. -/
theorem window_of_stuck (hstuck : Stuck (b.between first last)) (hne : b.between first last ≠ []) :
    ∃ lead tail broken, b.window first last = lead :: tail ∧
      Strict.decode lead tail = .error broken := by
  cases hwindow : b.window first last with
  | nil =>
      rw [window_eq_take, List.take_eq_nil_iff] at hwindow
      exact absurd hwindow (by simp [hne])
  | cons lead tail =>
      cases hdecode : Strict.decode lead tail with
      | error broken => exact ⟨lead, tail, broken, rfl, hdecode⟩
      | ok found =>
          obtain ⟨c, width⟩ := found
          obtain ⟨_, hencode⟩ := Strict.decode_eq_ok_iff_encode.mp hdecode
          rw [← hwindow] at hencode
          exact absurd (encode_prefix_ahead_iff.mp hencode) (hstuck c)

theorem text_go_step (h : String.utf8EncodeChar c <+: b.between first last) (acc : String) :
    text.go b last first acc = text.go b last (first + (Width.ofChar c).bytes) (acc.push c) := by
  obtain ⟨lead, tail, hwindow, hdecode⟩ := window_of_prefix h
  rw [text_go_eq, hwindow]
  simp only [hdecode]

/-- The reader goes over a text and keeps it. -/
theorem text_go_spell (h : b.between first last = spell chars ++ rest) (acc : String) :
    text.go b last first acc =
      text.go b last (first + (spell chars).length) (acc ++ String.ofList chars) := by
  induction chars generalizing first acc with
  | nil => rw [spell_nil, List.length_nil, Nat.add_zero, String.ofList_nil, String.append_empty]
  | cons c chars ih =>
      obtain ⟨_, hencode, hnext⟩ := between_step h
      rw [text_go_step hencode, ih hnext, spell_cons, List.length_append,
        String.length_utf8EncodeChar, Width.bytes_ofChar, Nat.add_assoc, String.ofList_cons,
        ← String.append_assoc, String.append_singleton]

theorem text_go_stuck (hstuck : Stuck (b.between first last)) (hne : b.between first last ≠ [])
    (acc : String) : ∃ reason, text.go b last first acc = .error (first, reason) := by
  obtain ⟨lead, tail, broken, hwindow, hdecode⟩ := window_of_stuck hstuck hne
  refine ⟨broken.reason, ?_⟩
  rw [text_go_eq, hwindow]
  simp only [hdecode]

theorem text_go_nil (h : b.between first last = []) (acc : String) :
    text.go b last first acc = .ok acc := by
  rw [text_go_eq, window_eq_take, h]
  rfl

/-- The whole window is read if it is a text, and otherwise the error is behind its longest one. -/
theorem text_cases (h : b.between first last = spell chars ++ rest) (hrest : Stuck rest) :
    rest = [] ∧ b.text first last = .ok (String.ofList chars) ∨
      rest ≠ [] ∧ ∃ reason, b.text first last = .error (first + (spell chars).length, reason) := by
  have hbehind := between_behind h
  rw [text, text_go_spell h, String.empty_append]
  by_cases hnil : rest = []
  · rw [hnil] at hbehind
    exact Or.inl ⟨hnil, text_go_nil hbehind _⟩
  · rw [← hbehind] at hrest hnil
    exact Or.inr ⟨by rwa [hbehind] at hnil, text_go_stuck hrest hnil _⟩

/-- A text is read exactly where the window is its encoding. -/
theorem text_eq_ok_iff {text : String} :
    b.text first last = .ok text ↔ b.between first last = spell text.toList := by
  constructor
  · intro h
    obtain ⟨chars, rest, hwindow, hrest⟩ := exists_spell_append (b.between first last)
    rcases text_cases hwindow hrest with ⟨hnil, htext⟩ | ⟨_, reason, htext⟩
    · obtain rfl := Except.ok.inj (htext.symm.trans h)
      rw [hwindow, hnil, List.append_nil, String.toList_ofList]
    · cases htext.symm.trans h
  · intro h
    rw [← List.append_nil (spell text.toList)] at h
    rcases text_cases h stuck_nil with ⟨_, htext⟩ | ⟨hne, _⟩
    · rw [htext, String.ofList_toList]
    · exact absurd rfl hne

/-! ### Reading character by character -/

theorem walkDecode_of_le (h : last ≤ first) : b.walkDecode first last = ⟨[], none⟩ := by
  unfold walkDecode
  rw [walk, if_neg (by omega)]

theorem walkDecode_of_error {e : Error} (h : first < last)
    (hdecode : b.decode first last = .error e) : b.walkDecode first last = ⟨[], some e⟩ := by
  unfold walkDecode
  rw [walk, if_pos (by omega), hdecode]

theorem walkDecode_of_ok {width : Width} (h : first < last)
    (hdecode : b.decode first last = .ok (c, width)) :
    b.walkDecode first last =
      (b.walkDecode (first + width.bytes : Nat) last).push
        (c, ((first + width.bytes : Nat) : Int)) := by
  unfold walkDecode
  rw [walk, if_pos (by omega), hdecode]
  rfl

/-- The walk goes over a text and keeps it, and then it ends with the window or with an error. -/
theorem walkDecode_spell (hlast : last ≤ b.size) (h : b.between first last = spell chars ++ rest)
    (hrest : Stuck rest) :
    (b.walkDecode first last).visited.map Prod.fst = chars ∧
      (rest = [] ∧ (b.walkDecode first last).failure = none ∨
        rest ≠ [] ∧ ∃ o e, b.decode (o : Nat) last = .error e ∧
          (b.walkDecode first last).failure = some e) := by
  induction chars generalizing first with
  | nil =>
      rw [spell_nil, List.nil_append] at h
      by_cases hnil : rest = []
      · rw [hnil] at h
        rw [walkDecode_of_le (le_of_between_eq_nil hlast h)]
        exact ⟨rfl, Or.inl ⟨hnil, rfl⟩⟩
      · have hlt : first < last := lt_of_between_ne_nil (by rwa [h])
        cases hdecode : b.decode first last with
        | error e =>
            rw [walkDecode_of_error hlt hdecode]
            exact ⟨rfl, Or.inr ⟨hnil, first, e, hdecode, rfl⟩⟩
        | ok found =>
            obtain ⟨c, width⟩ := found
            have hencode := (decode_natCast_eq_ok_iff.mp hdecode).2
            rw [h] at hencode
            exact absurd hencode (hrest c)
  | cons c chars ih =>
      obtain ⟨hlt, hencode, hnext⟩ := between_step h
      obtain ⟨hvisited, hfailure⟩ := ih hnext
      rw [walkDecode_of_ok hlt (decode_natCast_eq_ok_iff.mpr ⟨rfl, hencode⟩)]
      exact ⟨congrArg (c :: ·) hvisited, hfailure⟩

end Buffer

namespace Scanner

variable {s : Scanner}

/-- The characters that are read from the start of the window, up to its end or the first fault. -/
def readable (s : Scanner) : List Char :=
  (s.buffer.walkDecode s.start s.stop).visited.map Prod.fst

/-- Iterating is walking, and a walk that fails has no result. -/
theorem charactersFrom_eq_walk (s : Scanner) (o : Nat) : s.charactersFrom o =
    match (s.buffer.walkDecode o s.stop).failure with
    | none => .ok ((s.buffer.walkDecode o s.stop).visited.map Prod.fst)
    | some e => .error e := by
  fun_induction charactersFrom s o with
  | case1 o hlt e he => rw [Buffer.walkDecode_of_error hlt he]
  | case2 o hlt c width hdecode ih =>
      rw [Buffer.walkDecode_of_ok hlt hdecode, ih]
      unfold Buffer.Walk.push
      simp only [List.map_cons]
      split <;> rfl
  | case3 o hge => rw [Buffer.walkDecode_of_le (Nat.not_lt.mp hge)]; rfl

theorem charactersFrom_of_between {o : Nat} {chars : List Char} (hs : s.stop ≤ s.buffer.size)
    (h : s.buffer.between o s.stop = spell chars) : s.charactersFrom o = .ok chars := by
  rw [← List.append_nil (spell chars)] at h
  obtain ⟨hvisited, ⟨_, hfailure⟩ | ⟨hne, _⟩⟩ := Buffer.walkDecode_spell hs h stuck_nil
  · rw [charactersFrom_eq_walk, hfailure, hvisited]
  · exact absurd rfl hne

/-- **A window can be iterated exactly if it can be read as a whole, and with the same result.**
The text is then the concatenation of the characters, and its encoding is the window.  Otherwise the
text is refused with an error at the place that the characters before the fault lead to. -/
theorem charactersFrom_iff_text (hs : s.stop ≤ s.buffer.size) :
    ((∃ chars, s.charactersFrom s.start = .ok chars) ↔ ∃ string, s.text = .ok string) ∧
      (∀ chars, s.charactersFrom s.start = .ok chars → chars = s.readable ∧
        s.text = .ok (String.ofList chars) ∧ spell chars = s.buffer.between s.start s.stop) ∧
      ∀ e, s.charactersFrom s.start = .error e →
        (∃ x, e = .scan x ∧ (x.kind = .overflow ∨ x.kind = .invalidCharacter)) ∧
          ∃ reason, s.text
            = .error (.scan (.malformed (s.start + (spell s.readable).length) reason)) := by
  obtain ⟨chars, rest, hwindow, hrest⟩ := exists_spell_append (s.buffer.between s.start s.stop)
  obtain ⟨hvisited, hwalk⟩ := Buffer.walkDecode_spell hs hwindow hrest
  have hreadable : s.readable = chars := hvisited
  have htext := Buffer.text_cases hwindow hrest
  rw [charactersFrom_eq_walk, hvisited, hreadable]
  unfold text textBetween
  rcases hwalk with ⟨hnil, hfailure⟩ | ⟨hne, o, e, hdecode, hfailure⟩
  · obtain ⟨_, htext⟩ | ⟨hne, _⟩ := htext
    · rw [hfailure, htext, hwindow, hnil, List.append_nil]
      refine ⟨⟨fun _ => ⟨_, rfl⟩, fun _ => ⟨_, rfl⟩⟩, ?_, nofun⟩
      rintro _ ⟨⟩
      exact ⟨rfl, rfl, rfl⟩
    · exact absurd hnil hne
  · obtain ⟨hnil, _⟩ | ⟨_, reason, htext⟩ := htext
    · exact absurd hnil hne
    · rw [hfailure, htext]
      refine ⟨⟨nofun, nofun⟩, nofun, ?_⟩
      rintro _ ⟨⟩
      exact ⟨Buffer.decode_error_kind hs hdecode, reason, rfl⟩

/-- A surrogate behind two characters: the one reader refuses its value, the other its second
byte. -/
theorem charactersFrom_iff_text_surrogate :
    let s : Scanner := ⟨.ofList [0x61, 0xC3, 0xA9, 0xED, 0xA0, 0x80], 0, 6, 0, .unicode⟩
    s.stop ≤ s.buffer.size ∧
      s.charactersFrom s.start = .error (.scan (.malformed 3 (.surrogate 0xD800))) ∧
      ∃ reason, s.text = .error (.scan (.malformed 3 reason)) := by
  intro s
  have hs : s.stop ≤ s.buffer.size := by decide
  have hwalk : s.charactersFrom s.start
      = .error (.scan (.malformed 3 (.surrogate 0xD800))) := by cbv
  have hreadable : s.readable = ['a', 'é'] := by cbv
  obtain ⟨_, reason, htext⟩ := (charactersFrom_iff_text hs).2.2 _ hwalk
  rw [hreadable] at htext
  exact ⟨hs, hwalk, reason, htext⟩

end Scanner

end Utf8Scan
