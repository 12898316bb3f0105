/-
What the searches find.

The three loops over characters walk by whole sequences, so the offset that they end
at is reached from where they began.  A loop fails where the reading breaks off before
the window ends, with the error of the step there, or with an error that the test
raised.  The loop that counts ends where the one that only reads on does, which is
proved once; what is known of the one is then known of the other.

The search for a text compares bytes, but what it finds is a boundary all the same,
because an encoding starts with a byte that no character continues with.

A set of characters is made of what the caller handed over before a loop asks it;
`CharSource.Has` says what the caller meant, and the set answers by that.
-/
import Utf8Scan.Proofs.Encoding
import Utf8Scan.Session.Command

namespace Utf8Scan

/-! ### Sets of characters -/

theorem CharSet.single?_eq_some_iff {text : String} {c : Char} :
    single? text = some c ↔ text = String.singleton c := by
  unfold single?
  rw [← String.toList_inj, String.toList_singleton]
  split
  · rename_i d hlist
    rw [hlist, Option.some.injEq, List.cons.injEq, and_iff_left rfl]
  · rename_i hlist
    exact iff_of_false nofun fun htext => hlist c htext

/-- The caller gave this character. -/
def CharSource.Has : CharSource → Char → Prop
  | characters text, c => c ∈ text.toList
  | items list, c | singles list, c => String.singleton c ∈ list

instance (source : CharSource) (c : Char) : Decidable (source.Has c) :=
  match source with
  | .characters text => inferInstanceAs (Decidable (c ∈ text.toList))
  | .items list | .singles list => inferInstanceAs (Decidable (String.singleton c ∈ list))

variable {list : List String} {set : CharSet} {c : Char}

theorem CharSet.mem_ofItems : c ∈ (ofItems list).members ↔ String.singleton c ∈ list := by
  simp only [ofItems, List.mem_filterMap, single?_eq_some_iff, exists_eq_right]

/-- If every text is a single character, none is lost. -/
theorem CharSet.mem_of_ofSingles (h : ofSingles list = .ok set) :
    c ∈ set.members ↔ String.singleton c ∈ list := by
  induction list generalizing set with
  | nil =>
      cases h
      simp
  | cons item rest ih =>
      rw [ofSingles] at h
      split at h
      · cases h
      · rename_i d hitem
        obtain ⟨others, hrest, rfl⟩ := Except.map_eq_ok_iff.mp h
        obtain rfl := single?_eq_some_iff.mp hitem
        simp only [List.mem_cons, ih hrest, String.singleton_inj]

/-- What a source stands for has the characters that the caller gave. -/
theorem CharSource.contains_of_resolve {source : CharSource} (h : source.resolve = .ok set) :
    set.contains c = true ↔ source.Has c := by
  rw [CharSet.contains, List.contains_iff_mem]
  cases source with
  | characters text =>
      cases h
      exact Iff.rfl
  | items list =>
      cases h
      exact CharSet.mem_ofItems
  | singles list => exact CharSet.mem_of_ofSingles (Except.mapError_eq_ok_iff.mp h)

/-! ### Tests -/

namespace CharTest

/-- A test that answers for every character. -/
def Total (test : CharTest) : Prop := ∀ c e, test c ≠ .error e

theorem const_total (answer : Bool) : (const answer).Total := by
  intro c e
  simp [const]

/-- No character equals a text of another length than one. -/
theorem equals_eq (text : String) (c : Char) : equals text c = .ok (text = String.singleton c) := by
  unfold equals
  rw [Except.ok.injEq, Bool.eq_iff_iff, beq_iff_eq, decide_eq_true_iff]
  exact CharSet.single?_eq_some_iff

/-- To be in the set that a source stands for is to be one of the characters given. -/
theorem inSet_eq {source : CharSource} (h : source.resolve = .ok set) (c : Char) :
    inSet set c = .ok (source.Has c) := by
  unfold inSet
  rw [Except.ok.injEq, Bool.eq_iff_iff, decide_eq_true_iff]
  exact CharSource.contains_of_resolve h

theorem equals_total (text : String) : (equals text).Total := by
  intro c e
  simp [equals]

theorem inSet_total (chars : CharSet) : (inSet chars).Total := by
  intro c e
  simp [inSet]

end CharTest

namespace Scanner

variable {s : Scanner} {test : CharTest} {o o' : Nat} {e : Error}

/-! ### Searches by test -/

/-- A find is a character that passes the test. -/
theorem seek_decodes (h : s.seek test o = .ok (some o')) :
    ∃ c width, s.decodeAt o' = .ok (c, width) ∧ test c = .ok true := by
  fun_induction seek s test o with
  | case1 o hlt e he => cases h
  | case2 o hlt c width hdecode e he => cases h
  | case3 o hlt c width hdecode hpass =>
      cases h
      exact ⟨c, width, hdecode, hpass⟩
  | case4 o hlt c width hdecode hpass ih => exact ih h
  | case5 o hge => cases h

theorem seek_walksTo (h : s.seek test o = .ok (some o')) : s.WalksTo o o' := by
  fun_induction seek s test o with
  | case1 o hlt e he => cases h
  | case2 o hlt c width hdecode e he => cases h
  | case3 o hlt c width hdecode hpass => cases h; exact .refl
  | case4 o hlt c width hdecode hpass ih =>
      exact .head (stepsTo_of_decodeAt hdecode) (ih h)
  | case5 o hge => cases h

/-- A search that finds nothing has gone through the window. -/
theorem seek_none_walksTo (ho : o ≤ s.stop) (h : s.seek test o = .ok none) :
    s.WalksTo o s.stop := by
  fun_induction seek s test o with
  | case1 o hlt e he => cases h
  | case2 o hlt c width hdecode e he => cases h
  | case3 o hlt c width hdecode hpass => cases h
  | case4 o hlt c width hdecode hpass ih =>
      exact .head (stepsTo_of_decodeAt hdecode) (ih (decodeAt_le hdecode) h)
  | case5 o hge =>
      obtain rfl : o = s.stop := by omega
      exact .refl

/-- Going on from an offset by whole sequences, some character of the window cannot be read. -/
def BreaksFrom (s : Scanner) (o : Nat) (e : Error) : Prop :=
  ∃ o', s.WalksTo o o' ∧ o' < s.stop ∧ s.decodeAt o' = .error e

theorem BreaksFrom.head (hwalk : s.WalksTo o o') (h : s.BreaksFrom o' e) : s.BreaksFrom o e := by
  obtain ⟨last, hwalk', hlast⟩ := h
  exact ⟨last, hwalk.trans hwalk', hlast⟩

theorem BreaksFrom.fails (hs : s.Inside) (hstart : s.start ≤ o) (h : s.BreaksFrom o e) :
    s.Fails e := by
  obtain ⟨o', hwalk, hlt, he⟩ := h
  exact decodeAt_fails hs (Nat.le_trans hstart (WalksTo.le hwalk)) (Nat.le_of_lt hlt) he

/-- What a search that goes on from an offset fails with, if not for want of a find. -/
def Misreads (s : Scanner) (test : CharTest) (o : Nat) (e : Error) : Prop :=
  s.BreaksFrom o e ∨ ∃ c, test c = .error e

theorem misreads_of_step {c : Char} {width : Width} (hdecode : s.decodeAt o = .ok (c, width))
    (h : s.Misreads test (o + width.bytes) e) : s.Misreads test o e := by
  rcases h with h | h
  · exact Or.inl (h.head (.single (stepsTo_of_decodeAt hdecode)))
  · exact Or.inr h

theorem seek_error (h : s.seek test o = .error e) : s.Misreads test o e := by
  fun_induction seek s test o with
  | case1 o hlt e' he =>
      cases h
      exact Or.inl ⟨o, .refl, hlt, he⟩
  | case2 o hlt c width hdecode e' he =>
      cases h
      exact Or.inr ⟨c, he⟩
  | case3 o hlt c width hdecode hpass => cases h
  | case4 o hlt c width hdecode hpass ih => exact misreads_of_step hdecode (ih h)
  | case5 o hge => cases h

theorem pass_walksTo (h : s.pass test o = .ok o') : s.WalksTo o o' := by
  fun_induction pass s test o with
  | case1 o hlt e he => cases h
  | case2 o hlt c width hdecode e he => cases h
  | case3 o hlt c width hdecode hpass ih =>
      exact .head (stepsTo_of_decodeAt hdecode) (ih h)
  | case4 o hlt c width hdecode hpass => cases h; exact .refl
  | case5 o hge => cases h; exact .refl

theorem pass_error (h : s.pass test o = .error e) : s.Misreads test o e := by
  fun_induction pass s test o with
  | case1 o hlt e' he =>
      cases h
      exact Or.inl ⟨o, .refl, hlt, he⟩
  | case2 o hlt c width hdecode e' he =>
      cases h
      exact Or.inr ⟨c, he⟩
  | case3 o hlt c width hdecode hpass ih => exact misreads_of_step hdecode (ih h)
  | case4 o hlt c width hdecode hpass => cases h
  | case5 o hge => cases h

/-- The loop that counts ends, or fails, as the one that only reads on. -/
theorem tally_map_snd (s : Scanner) (test : CharTest) (o n : Nat) :
    (s.tally test o n).map Prod.snd = s.pass test o := by
  fun_induction tally s test o n with
  | case1 o n hlt e he =>
      rw [pass, if_pos hlt, he]
      rfl
  | case2 o n hlt c width hdecode e he =>
      rw [pass, if_pos hlt, hdecode]
      simp only [he]
      rfl
  | case3 o n hlt c width hdecode hpass ih =>
      rw [pass, if_pos hlt, hdecode]
      simp only [hpass]
      exact ih
  | case4 o n hlt c width hdecode hpass =>
      rw [pass, if_pos hlt, hdecode]
      simp only [hpass]
      rfl
  | case5 o n hge =>
      rw [pass, if_neg hge]
      rfl

theorem pass_eq_ok_iff (n : Nat) :
    s.pass test o = .ok o' ↔ ∃ count, s.tally test o n = .ok (count, o') := by
  rw [← tally_map_snd s test o n, Except.map_eq_ok_iff]
  constructor
  · rintro ⟨⟨count, _⟩, htally, rfl⟩
    exact ⟨count, htally⟩
  · rintro ⟨count, htally⟩
    exact ⟨(count, o'), htally, rfl⟩

theorem tally_eq_error_iff {n : Nat} : s.tally test o n = .error e ↔ s.pass test o = .error e := by
  rw [← tally_map_snd s test o n, Except.map_eq_error_iff]

end Scanner

/-! ### Searches for a text -/

/-- The bytes that a search finds lie between its bounds. -/
theorem Buffer.find?_spec {b : Buffer} {bytes : List UInt8} {start stop found : Nat}
    (h : b.find? bytes start stop = some found) :
    start ≤ found ∧ found + bytes.length ≤ stop ∧ b.holdsAt found bytes = true := by
  rw [find?, findAmong_eq_some_iff] at h
  obtain ⟨⟨hstart, hstop, hholds⟩, _⟩ := h
  exact ⟨hstart, by omega, hholds⟩

theorem Scan.encoded_eq (text : String) :
    Scan.encoded text = text.toList.flatMap String.utf8EncodeChar := Buffer.toList_ofString text

/-- A text that is not empty lies at a boundary, wherever its bytes lie. -/
theorem Buffer.isBoundary_of_holdsAt {b : Buffer} {text : String} {o : Nat} (htext : text ≠ "")
    (h : b.holdsAt o (Scan.encoded text) = true) : b.isBoundary o = true := by
  rw [holdsAt_iff, Scan.encoded_eq] at h
  obtain ⟨c, chars, hchars⟩ : ∃ c chars, text.toList = c :: chars := by
    cases hlist : text.toList with
    | nil => exact absurd (String.toList_eq_nil_iff.mp hlist) htext
    | cons c chars => exact ⟨c, chars, rfl⟩
  obtain ⟨lead, trail, hlead, hstarts, _⟩ := encode_eq_cons c
  rw [hchars, List.flatMap_cons, hlead, List.cons_append] at h
  obtain ⟨rest, hrest⟩ := h
  refine isBoundary_of_byte ?_ hstarts
  have hget : (b.toList.drop o)[0]? = some lead := by rw [← hrest]; rfl
  rwa [List.getElem?_drop, Nat.add_zero] at hget

end Utf8Scan
