import Mathlib.Data.List.Sort
import PhpHandbook.Source.LineIndex

/-!
# Line numbers count newlines

The table of an index holds the offset behind every newline, in ascending order, and the lookup
halves a range of it.  In an ascending table the entries below an offset are the first ones, so
halving finds their number, and whether the offset itself comes next; and an entry is at most an
offset exactly where the byte in front of it lies below the offset and is a newline.

Line numbers have 32 bits.  A text with fewer than `2 ^ 32` bytes has at most `2 ^ 32` lines, and it
has that many only if it consists of newlines: then the last line has no number.

## Main definitions

* `bytes`: the bytes of a text in UTF-8.
* `newlinesBefore`: the newlines among the bytes in front of an offset.
* `Exhausts`: the text and the offset whose line has no number.

## Main statements

* `getElem_iff_lt_countP`: where the entries below an offset stand in an ascending table.
* `search_eq`: halving finds their number and tells whether the offset comes next.
* `countP_lineStartsFrom`: the entries up to an offset are the newlines in front of it.
* `line_counts_newlines_iff`: a line number is one more than the number of newlines in front, unless
  it has no 32 bits.
-/

namespace PhpHandbook.Source

/-! ### Newlines among the bytes of a text -/

/-- **The bytes of a text** in UTF-8. -/
def bytes (cs : List Char) : List UInt8 :=
  cs.flatMap String.utf8EncodeChar

/-- The byte of a newline. -/
def newline : UInt8 :=
  10

theorem utf8EncodeChar_newline : String.utf8EncodeChar '\n' = [newline] :=
  rfl

/-- The bytes of other characters are no newlines: they are ASCII characters themselves, or lie
beyond ASCII. -/
theorem newline_notMem_utf8EncodeChar {c : Char} (h : c ≠ '\n') :
    newline ∉ String.utf8EncodeChar c := by
  have hval : c.val.toNat ≠ 10 := fun hten => h (Char.ext (UInt32.toNat_inj.1 hten))
  have hbyte (n : Nat) : newline = UInt8.ofNat n ↔ n % 256 = 10 := by
    rw [← UInt8.toNat_inj, UInt8.toNat_ofNat', eq_comm]
    rfl
  unfold String.utf8EncodeChar
  dsimp only
  split_ifs <;> simp only [List.mem_cons, List.not_mem_nil, or_false, hbyte] <;> omega

theorem count_take_utf8EncodeChar {c : Char} (h : c ≠ '\n') (n : Nat) :
    ((String.utf8EncodeChar c).take n).count newline = 0 :=
  List.count_eq_zero.2 fun hmem => newline_notMem_utf8EncodeChar h (List.mem_of_mem_take hmem)

/-- The newlines among the first bytes of a text, from its first character on. -/
theorem count_take_bytes_cons (c : Char) (cs : List Char) (n : Nat) :
    ((bytes (c :: cs)).take n).count newline
      = (if c = '\n' ∧ 0 < n then 1 else 0)
        + ((bytes cs).take (n - c.utf8Size)).count newline := by
  rw [bytes, List.flatMap_cons, List.take_append, List.count_append, String.length_utf8EncodeChar]
  congr 1
  by_cases hc : c = '\n'
  · subst hc
    rw [utf8EncodeChar_newline]
    cases n <;> simp
  · rw [count_take_utf8EncodeChar hc, if_neg fun h => hc h.1]

/-! ### The table -/

/-- The lines behind an offset start beyond it. -/
theorem lt_of_mem_lineStartsFrom {offset start : Nat} {cs : List Char}
    (h : start ∈ lineStartsFrom offset cs) : offset < start := by
  induction cs generalizing offset with
  | nil => cases h
  | cons c cs ih =>
    have hsize := c.utf8Size_pos
    rw [lineStartsFrom] at h
    split_ifs at h
    · rcases List.mem_cons.1 h with rfl | h
      · omega
      · have := ih h
        omega
    · have := ih h
      omega

/-- The lines of a text start within it. -/
theorem le_of_mem_lineStartsFrom {offset start : Nat} {cs : List Char}
    (h : start ∈ lineStartsFrom offset cs) : start ≤ offset + (bytes cs).length := by
  induction cs generalizing offset with
  | nil => cases h
  | cons c cs ih =>
    have hlength : (bytes (c :: cs)).length = c.utf8Size + (bytes cs).length := by
      rw [bytes, List.flatMap_cons, List.length_append, String.length_utf8EncodeChar]
      rfl
    have hbehind : start ∈ lineStartsFrom (offset + c.utf8Size) cs →
        start ≤ offset + (bytes (c :: cs)).length := fun hmem => by
      have := ih hmem
      omega
    rw [lineStartsFrom] at h
    split_ifs at h
    · rcases List.mem_cons.1 h with rfl | h
      · omega
      · exact hbehind h
    · exact hbehind h

/-- **The table ascends.** -/
theorem pairwise_lineStartsFrom (offset : Nat) (cs : List Char) :
    (offset :: lineStartsFrom offset cs).Pairwise (· < ·) := by
  refine List.pairwise_cons.2 ⟨fun _ h => lt_of_mem_lineStartsFrom h, ?_⟩
  induction cs generalizing offset with
  | nil => exact List.Pairwise.nil
  | cons c cs ih =>
    rw [lineStartsFrom]
    split_ifs
    · exact List.pairwise_cons.2 ⟨fun _ h => lt_of_mem_lineStartsFrom h, ih _⟩
    · exact ih _

/-- **The entries up to an offset** are the newlines in front of it. -/
theorem countP_lineStartsFrom (start offset : Nat) (cs : List Char) :
    (lineStartsFrom start cs).countP (· ≤ offset)
      = ((bytes cs).take (offset - start)).count newline := by
  induction cs generalizing start with
  | nil => simp [lineStartsFrom, bytes]
  | cons c cs ih =>
    rw [lineStartsFrom, count_take_bytes_cons, Nat.sub_sub, ← ih]
    by_cases hc : c = '\n'
    · subst hc
      have hsize : ('\n' : Char).utf8Size = 1 := rfl
      have hbelow : start + 1 ≤ offset ↔ 0 < offset - start := by omega
      simp only [if_true, List.countP_cons, decide_eq_true_eq, true_and, hsize, hbelow,
        Nat.add_comm]
    · simp only [hc, if_false, false_and, Nat.zero_add]

/-- There is an entry for every newline. -/
theorem length_lineStartsFrom (start : Nat) (cs : List Char) :
    (lineStartsFrom start cs).length = (bytes cs).count newline := by
  induction cs generalizing start with
  | nil => rfl
  | cons c cs ih =>
    rw [lineStartsFrom, bytes, List.flatMap_cons, List.count_append]
    by_cases hc : c = '\n'
    · subst hc
      rw [if_pos rfl, List.length_cons, ih, utf8EncodeChar_newline, Nat.add_comm]
      rfl
    · rw [if_neg hc, ih, List.count_eq_zero.2 (newline_notMem_utf8EncodeChar hc), Nat.zero_add]
      rfl

/-! ### The lookup -/

/-- **In an ascending table the entries below a bound come first.** -/
theorem getElem_iff_lt_countP {α : Type} {p : α → Bool} {starts : List α}
    (h : starts.Pairwise fun a b => p b = true → p a = true) {i : Nat} (hi : i < starts.length) :
    p starts[i] = true ↔ i < starts.countP p := by
  induction starts generalizing i with
  | nil => cases hi
  | cons start starts ih =>
    obtain ⟨hfirst, hrest⟩ := List.pairwise_cons.1 h
    by_cases hstart : p start = true
    · rw [List.countP_cons_of_pos hstart]
      cases i with
      | zero => simpa using hstart
      | succ i => simpa using ih hrest (by simpa using hi)
    · -- nothing behind the first entry is below the bound
      have hnone : starts.countP p = 0 :=
        List.countP_eq_zero.2 fun s hs hbelow => hstart (hfirst s hs hbelow)
      rw [List.countP_cons_of_neg hstart, hnone]
      cases i with
      | zero => simpa using hstart
      | succ i =>
        have hbehind := mt (hfirst _ (List.getElem_mem (Nat.lt_of_succ_lt_succ hi))) hstart
        simpa using hbehind

namespace LineIndex

section Search

variable {starts : Array UInt32} (h : starts.toList.Pairwise (· < ·)) (offset : UInt32)

include h

/-- The entries of an ascending table that are smaller than an offset. -/
theorem getElem_lt_iff {i : Nat} (hi : i < starts.size) :
    starts[i] < offset ↔ i < starts.toList.countP (· < offset) := by
  have hdown : starts.toList.Pairwise fun a b =>
      decide (b < offset) = true → decide (a < offset) = true :=
    h.imp fun {a b} hab hb => decide_eq_true (UInt32.lt_trans hab (of_decide_eq_true hb))
  rw [← getElem_iff_lt_countP hdown (by simpa using hi), decide_eq_true_eq, Array.getElem_toList]

/-- The entries of an ascending table that are no greater than an offset. -/
theorem getElem_le_iff {i : Nat} (hi : i < starts.size) :
    starts[i] ≤ offset ↔ i < starts.toList.countP (· ≤ offset) := by
  have hdown : starts.toList.Pairwise fun a b =>
      decide (b ≤ offset) = true → decide (a ≤ offset) = true :=
    h.imp fun {a b} hab hb =>
      decide_eq_true (UInt32.le_trans (UInt32.le_of_lt hab) (of_decide_eq_true hb))
  rw [← getElem_iff_lt_countP hdown (by simpa using hi), decide_eq_true_eq, Array.getElem_toList]

/-- An entry of an ascending table is smaller than the next one. -/
theorem getElem_lt_next {i : Nat} (hi : i + 1 < starts.size) : starts[i] < starts[i + 1] := by
  have := List.pairwise_iff_getElem.1 h i (i + 1) (by simp; omega) (by simpa using hi)
    (Nat.lt_succ_self i)
  simpa using this

/-- An entry of an ascending table is no smaller than its place. -/
theorem le_getElem {i : Nat} (hi : i < starts.size) : i ≤ starts[i].toNat := by
  induction i with
  | zero => exact Nat.zero_le _
  | succ i ih =>
    have hbefore := ih (Nat.lt_of_succ_lt hi)
    have := UInt32.lt_iff_toNat_lt.1 (getElem_lt_next h hi)
    omega

/-- **An offset stands at most once** in an ascending table. -/
theorem countP_le_succ :
    starts.toList.countP (· < offset) ≤ starts.toList.countP (· ≤ offset) ∧
    starts.toList.countP (· ≤ offset) ≤ starts.toList.countP (· < offset) + 1 := by
  have hsize : starts.toList.countP (· ≤ offset) ≤ starts.size := List.countP_le_length
  refine ⟨List.countP_mono_left fun s _ hs => ?_, ?_⟩
  · exact decide_eq_true (UInt32.le_of_lt (of_decide_eq_true hs))
  · -- two entries between the two numbers would both be the offset
    by_contra hgap
    generalize hbelow : starts.toList.countP (· < offset) = below at hgap
    have hfirst : below < starts.size := by omega
    have hnext : below + 1 < starts.size := by omega
    have hge := mt (getElem_lt_iff h offset hfirst).1 (by omega)
    have hle := (getElem_le_iff h offset hnext).2 (by omega)
    exact hge (UInt32.lt_of_lt_of_le (getElem_lt_next h hnext) hle)

/-- **Halving finds the number of entries below an offset**, as long as it lies in the range, and
tells whether the offset comes next. -/
theorem search_eq {lo hi : Nat} (hsize : hi ≤ starts.size)
    (hlo : lo ≤ starts.toList.countP (· < offset))
    (hhi : starts.toList.countP (· ≤ offset) ≤ hi) :
    search starts offset lo hi =
      if starts.toList.countP (· < offset) < starts.toList.countP (· ≤ offset) then
        .ok (starts.toList.countP (· < offset))
      else .error (starts.toList.countP (· < offset)) := by
  obtain ⟨hle, honce⟩ := countP_le_succ h offset
  -- the entry in the middle tells on which side of it the two numbers lie
  have hbelow (mid : Nat) (hmid : mid < starts.size) :
      starts.getD mid 0 < offset ↔ mid < starts.toList.countP (· < offset) := by
    rw [Array.getD, dif_pos hmid]
    exact getElem_lt_iff h offset hmid
  have hupTo (mid : Nat) (hmid : mid < starts.size) :
      starts.getD mid 0 ≤ offset ↔ mid < starts.toList.countP (· ≤ offset) := by
    rw [Array.getD, dif_pos hmid]
    exact getElem_le_iff h offset hmid
  generalize starts.toList.countP (· < offset) = below at *
  generalize starts.toList.countP (· ≤ offset) = upTo at *
  fun_induction search starts offset lo hi with
  | case1 lo hi hlt mid start hfound =>
    have hat := (hupTo mid (by omega)).1 (UInt32.le_of_eq hfound)
    have hnot := mt (hbelow mid (by omega)).2 (hfound ▸ UInt32.lt_irrefl _)
    obtain rfl : mid = below := by omega
    rw [if_pos hat]
  | case2 lo hi hlt mid start hne hless ih =>
    exact ih hsize ((hbelow mid (by omega)).1 hless) hhi
  | case3 lo hi hlt mid start hne hless ih =>
    have hgreater : ¬ start ≤ offset := fun hat => by
      rcases UInt32.lt_or_eq_of_le hat with hlt | heq
      · exact hless hlt
      · exact hne heq
    have hnot := mt (hupTo mid (by omega)).2 hgreater
    exact ih (by omega) hlo (by omega)
  | case4 lo hi hlt =>
    obtain rfl : lo = below := by omega
    rw [if_neg (by omega)]

/-- An entry below an offset leaves room for its place in 32 bits. -/
theorem countP_lt_le : starts.toList.countP (· < offset) ≤ offset.toNat := by
  generalize hbelow : starts.toList.countP (· < offset) = below
  cases below with
  | zero => exact Nat.zero_le _
  | succ below =>
    have hsize : starts.toList.countP (· < offset) ≤ starts.size := List.countP_le_length
    have hlast := (getElem_lt_iff h offset (i := below) (by omega)).2 (by omega)
    have hplace := le_getElem h (i := below) (by omega)
    have := UInt32.lt_iff_toNat_lt.1 hlast
    omega

/-- **The line of an offset** is the number of lines that start up to it, if that has 32 bits. -/
theorem line?_eq : line? ⟨starts⟩ offset =
    if starts.toList.countP (· ≤ offset) < UInt32.size then
      some (UInt32.ofNat (starts.toList.countP (· ≤ offset)))
    else none := by
  obtain ⟨hle, honce⟩ := countP_le_succ h offset
  have hbound := countP_lt_le h offset
  have hoffset := offset.toNat_lt_size
  have hsize : starts.toList.countP (· ≤ offset) ≤ starts.size := List.countP_le_length
  rw [line?, search_eq h offset (Nat.le_refl _) (Nat.zero_le _) hsize]
  generalize starts.toList.countP (· < offset) = below at *
  generalize starts.toList.countP (· ≤ offset) = upTo at *
  have htoNat : (UInt32.ofNat below).toNat = below :=
    UInt32.toNat_ofNat_of_lt' (show below < UInt32.size by omega)
  by_cases hfound : below < upTo
  · obtain rfl : upTo = below + 1 := by omega
    rw [if_pos hfound]
    simp only [succ?, htoNat]
    refine if_congr Iff.rfl (congrArg some ?_) rfl
    rw [UInt32.ofNat_add]
    rfl
  · obtain rfl : upTo = below := by omega
    rw [if_neg hfound, if_pos (by omega)]

end Search

/-! ### Tables of texts -/

/-- The newlines among the bytes of a text **in front of an offset**. -/
def newlinesBefore (text : List Char) (offset : Nat) : Nat :=
  ((bytes text).take offset).count newline

theorem newlinesBefore_mono (text : List Char) : Monotone (newlinesBefore text) :=
  fun _ _ hle => (List.take_sublist_take_left hle).count_le newline

section Texts

variable {text : List Char} (hsize : (bytes text).length < UInt32.size)

include hsize

/-- In a text of that size no line starts where 32 bits do not reach. -/
theorem start_lt {start : Nat} (h : start ∈ 0 :: lineStartsFrom 0 text) :
    start < UInt32.size := by
  rcases List.mem_cons.1 h with rfl | h
  · decide
  · have := le_of_mem_lineStartsFrom h
    omega

theorem starts_ofText :
    (ofText text).starts.toList.map UInt32.toNat = 0 :: lineStartsFrom 0 text := by
  have hkept : ∀ start ∈ 0 :: lineStartsFrom 0 text, (UInt32.ofNat start).toNat = start :=
    fun start h => UInt32.toNat_ofNat_of_lt' (start_lt hsize h)
  calc (ofText text).starts.toList.map UInt32.toNat
      = ((0 :: lineStartsFrom 0 text).map UInt32.ofNat).map UInt32.toNat := rfl
    _ = 0 :: lineStartsFrom 0 text := by
      rw [List.map_map]
      exact (List.map_congr_left hkept).trans (List.map_id _)

theorem pairwise_starts : (ofText text).starts.toList.Pairwise (· < ·) := by
  have hnumbers := pairwise_lineStartsFrom 0 text
  rw [← starts_ofText hsize, List.pairwise_map] at hnumbers
  exact hnumbers.imp UInt32.lt_iff_toNat_lt.2

theorem countP_starts (offset : UInt32) :
    (ofText text).starts.toList.countP (· ≤ offset) = 1 + newlinesBefore text offset.toNat := by
  have hnumbers : (ofText text).starts.toList.countP (· ≤ offset)
      = ((ofText text).starts.toList.map UInt32.toNat).countP (· ≤ offset.toNat) := by
    rw [List.countP_map]
    exact List.countP_congr fun start _ => by simp [UInt32.le_iff_toNat_le]
  rw [hnumbers, starts_ofText hsize, List.countP_cons_of_pos (by simp), countP_lineStartsFrom,
    Nat.sub_zero, Nat.add_comm, newlinesBefore]

/-- **The line of an offset** is one more than the number of newlines in front, if that has 32
bits. -/
theorem line?_ofText (offset : UInt32) : (ofText text).line? offset =
    if 1 + newlinesBefore text offset.toNat < UInt32.size then
      some (UInt32.ofNat (1 + newlinesBefore text offset.toNat))
    else none := by
  rw [← countP_starts hsize]
  exact line?_eq (pairwise_starts hsize) offset

end Texts

/-! ### Texts with too many lines -/

/-- A text of newlines alone, with an offset at its end, **uses up the line numbers**: the line
there comes behind the greatest number. -/
def Exhausts (text : List Char) (offset : UInt32) : Prop :=
  text = List.replicate (UInt32.size - 1) '\n' ∧ offset.toNat = UInt32.size - 1

theorem bytes_replicate (n : Nat) : bytes (List.replicate n '\n') = List.replicate n newline := by
  rw [bytes, List.flatMap_replicate, utf8EncodeChar_newline, List.flatten_replicate_singleton]

theorem newlinesBefore_replicate (n offset : Nat) :
    newlinesBefore (List.replicate n '\n') offset = min offset n := by
  rw [newlinesBefore, bytes_replicate, List.take_replicate, List.count_replicate_self]

/-- A text with as many newlines as bytes consists of newlines. -/
theorem eq_replicate_of_count {text : List Char}
    (h : (bytes text).count newline = (bytes text).length) :
    text = List.replicate (bytes text).length '\n' := by
  have hall : ∀ c ∈ text, c = '\n' := by
    intro c hc
    by_contra hne
    obtain ⟨b, hb⟩ := List.exists_mem_of_ne_nil _ (String.utf8EncodeChar_ne_nil (c := c))
    have hnewline := List.count_eq_length.1 h b (List.mem_flatMap.2 ⟨c, hc, hb⟩)
    exact newline_notMem_utf8EncodeChar hne (hnewline ▸ hb)
  have htext : text = List.replicate text.length '\n' := List.eq_replicate_iff.2 ⟨rfl, hall⟩
  have hlength : (bytes text).length = text.length := by
    rw [htext, bytes_replicate, List.length_replicate, List.length_replicate]
  rw [hlength]
  exact htext

/-- **A line has no number** exactly where the numbers are used up. -/
theorem le_iff_exhausts {text : List Char} (hsize : (bytes text).length < UInt32.size)
    (offset : UInt32) : UInt32.size ≤ 1 + newlinesBefore text offset.toNat ↔
      Exhausts text offset := by
  constructor
  · intro hmany
    have hbytes : newlinesBefore text offset.toNat ≤ (bytes text).count newline :=
      (List.take_sublist _ _).count_le newline
    have htaken : newlinesBefore text offset.toNat ≤ ((bytes text).take offset.toNat).length :=
      List.count_le_length
    have hall : (bytes text).count newline ≤ (bytes text).length := List.count_le_length
    have hoffset := offset.toNat_lt_size
    rw [List.length_take] at htaken
    have hlength : (bytes text).length = UInt32.size - 1 := by omega
    exact ⟨hlength ▸ eq_replicate_of_count (by omega), by omega⟩
  · rintro ⟨rfl, hoffset⟩
    rw [newlinesBefore_replicate, hoffset]
    decide

/-- **Line numbers count newlines, as far as they reach.**  A text with fewer than `2 ^ 32` bytes
has one line more than it has newlines.  The line that holds an offset, also one beyond the end of
the text, is one more than the number of newlines among the bytes in front of it, and a greater
offset is never on an earlier line.  The one exception is the end of the text of `2 ^ 32 - 1`
newlines: the number of its line has more than 32 bits. -/
theorem line_counts_newlines_iff (text : List Char) (hsize : (bytes text).length < UInt32.size) :
    (ofText text).lineCount = 1 + (bytes text).count newline ∧
      (∀ offset, (∃ line, (ofText text).line? offset = some line ∧
        line.toNat = 1 + newlinesBefore text offset.toNat) ↔ ¬ Exhausts text offset) ∧
      (∀ offset, (ofText text).line? offset = none ↔ Exhausts text offset) ∧
      (∀ offset offset' line line', offset ≤ offset' →
        (ofText text).line? offset = some line →
        (ofText text).line? offset' = some line' → line ≤ line') ∧
      ∀ offset : UInt32,
        (ofText text).line offset.toNat = (1 + newlinesBefore text offset.toNat) % UInt32.size := by
  have hnone (offset : UInt32) : (ofText text).line? offset = none ↔ Exhausts text offset := by
    rw [line?_ofText hsize, ← le_iff_exhausts hsize, ← Nat.not_lt]
    simp
  have hsome {offset line : UInt32} (h : (ofText text).line? offset = some line) :
      line.toNat = 1 + newlinesBefore text offset.toNat := by
    rw [line?_ofText hsize, Option.ite_none_right_eq_some] at h
    rw [← Option.some.inj h.2]
    exact UInt32.toNat_ofNat_of_lt' h.1
  refine ⟨?_, fun offset => ?_, hnone, fun offset offset' line line' hle h h' => ?_,
    fun offset => ?_⟩
  · rw [← length_lineStartsFrom 0, Nat.add_comm]
    simp [lineCount, ofText]
  · rw [← hnone, ← ne_eq, Option.ne_none_iff_exists']
    exact exists_congr fun line => and_iff_left_of_imp hsome
  · rw [UInt32.le_iff_toNat_le, hsome h, hsome h']
    exact Nat.add_le_add_left (newlinesBefore_mono text (UInt32.le_iff_toNat_le.1 hle)) 1
  · rw [line, UInt32.ofNat_toNat, line?_ofText hsize]
    split
    · next hfits => exact (UInt32.toNat_ofNat_of_lt' hfits).trans (Nat.mod_eq_of_lt hfits).symm
    · next hmany =>
      obtain ⟨rfl, hoffset⟩ := (le_iff_exhausts hsize offset).1 (Nat.not_lt.1 hmany)
      rw [newlinesBefore_replicate, hoffset]
      rfl

/-- Three lines and an offset behind the end. -/
theorem line_behind_declaration :
    let text := "<?php\nclass A {}\n".toList
    (bytes text).length < UInt32.size ∧ ¬ Exhausts text 100 ∧
      ∃ line, (ofText text).line? 100 = some line ∧ line.toNat = 3 := by
  intro text
  have hsize : (bytes text).length < UInt32.size := by decide
  have hkept : ¬ Exhausts text 100 := fun h => absurd h.2 (by decide)
  obtain ⟨line, hline, hcount⟩ := ((line_counts_newlines_iff text hsize).2.1 100).2 hkept
  exact ⟨hsize, hkept, line, hline, hcount⟩

/-- **The line behind `2 ^ 32 - 1` newlines has no number**, though the text has fewer than `2 ^ 32`
bytes and the offset has 32 bits. -/
theorem no_line_behind_newlines :
    let text := List.replicate (UInt32.size - 1) '\n'
    let offset := UInt32.ofNat (UInt32.size - 1)
    (bytes text).length < UInt32.size ∧ newlinesBefore text offset.toNat = UInt32.size - 1 ∧
      (ofText text).line? offset = none ∧ (ofText text).line offset.toNat = 0 := by
  intro text offset
  have hoffset : offset.toNat = UInt32.size - 1 := UInt32.toNat_ofNat_of_lt' (by decide)
  have hsize : (bytes text).length < UInt32.size := by
    rw [bytes_replicate, List.length_replicate]
    decide
  have hline : (ofText text).line? offset = none := by
    rw [line?_ofText hsize, if_neg]
    exact Nat.not_lt.2 ((le_iff_exhausts hsize offset).2 ⟨rfl, hoffset⟩)
  refine ⟨hsize, ?_, hline, ?_⟩
  · rw [newlinesBefore_replicate, hoffset, Nat.min_self]
  · rw [line, UInt32.ofNat_toNat, hline]
    rfl

end LineIndex

end PhpHandbook.Source
