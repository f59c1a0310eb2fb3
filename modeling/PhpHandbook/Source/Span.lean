/-!
# Positions in a source text

Positions are byte offsets into the UTF-8 form of a text.  A text itself is a list of
characters; `byteLength` is the bridge between the two, and a span that does not begin and end
between characters cuts out nothing.

These are the spans of tokens, nodes and errors: `Span.slice` is the text of a span, `Span.merge`
the smallest span that covers two.
-/

namespace PhpHandbook.Source

/-- The number of bytes a text takes in UTF-8. -/
def byteLength : List Char → Nat
  | [] => 0
  | c :: cs => c.utf8Size + byteLength cs

@[simp]
theorem byteLength_nil : byteLength [] = 0 :=
  rfl

theorem byteLength_append (cs ds : List Char) :
    byteLength (cs ++ ds) = byteLength cs + byteLength ds := by
  induction cs with
  | nil => rw [List.nil_append, byteLength_nil, Nat.zero_add]
  | cons c cs ih => rw [List.cons_append, byteLength, byteLength, ih, Nat.add_assoc]

/-- A text that is not empty takes at least one byte. -/
theorem byteLength_pos {cs : List Char} (h : cs ≠ []) : 0 < byteLength cs := by
  cases cs with
  | nil => exact absurd rfl h
  | cons c cs => exact Nat.add_pos_left c.utf8Size_pos _

/-- Of two texts with the same rest, the one that takes fewer bytes comes first. -/
theorem exists_append_of_byteLength_le {cs ds cs' ds' : List Char} (h : cs ++ ds = cs' ++ ds')
    (hle : byteLength cs ≤ byteLength cs') : ∃ es, cs' = cs ++ es ∧ ds = es ++ ds' := by
  rcases List.append_eq_append_iff.1 h with ⟨es, rfl, rfl⟩ | ⟨es, rfl, rfl⟩
  · exact ⟨es, rfl, rfl⟩
  · cases es with
    | nil => exact ⟨[], by simp, by simp⟩
    | cons e es =>
      have hpos := byteLength_pos (List.cons_ne_nil e es)
      rw [byteLength_append] at hle
      omega

/-- Drops exactly `n` bytes; `none` when `n` falls inside a character or beyond the end. -/
def dropBytes? : Nat → List Char → Option (List Char)
  | 0, cs => some cs
  | _ + 1, [] => none
  | n + 1, c :: cs => if c.utf8Size ≤ n + 1 then dropBytes? (n + 1 - c.utf8Size) cs else none

/-- Takes exactly `n` bytes; `none` when `n` falls inside a character or beyond the end. -/
def takeBytes? : Nat → List Char → Option (List Char)
  | 0, _ => some []
  | _ + 1, [] => none
  | n + 1, c :: cs =>
    if c.utf8Size ≤ n + 1 then (takeBytes? (n + 1 - c.utf8Size) cs).map (c :: ·) else none

theorem dropBytes?_cons (n : Nat) (c : Char) (cs : List Char) :
    dropBytes? (c.utf8Size + n) (c :: cs) = dropBytes? n cs := by
  have hpos := c.utf8Size_pos
  cases h : c.utf8Size + n with
  | zero => omega
  | succ k => rw [dropBytes?, if_pos (by omega), ← h, Nat.add_sub_cancel_left]

theorem takeBytes?_cons (n : Nat) (c : Char) (cs : List Char) :
    takeBytes? (c.utf8Size + n) (c :: cs) = (takeBytes? n cs).map (c :: ·) := by
  have hpos := c.utf8Size_pos
  cases h : c.utf8Size + n with
  | zero => omega
  | succ k => rw [takeBytes?, if_pos (by omega), ← h, Nat.add_sub_cancel_left]

theorem dropBytes?_append (cs ds : List Char) :
    dropBytes? (byteLength cs) (cs ++ ds) = some ds := by
  induction cs with
  | nil => cases ds <;> rfl
  | cons c cs ih => rw [byteLength, List.cons_append, dropBytes?_cons, ih]

theorem takeBytes?_append (cs ds : List Char) :
    takeBytes? (byteLength cs) (cs ++ ds) = some cs := by
  induction cs with
  | nil => cases ds <;> rfl
  | cons c cs ih => rw [byteLength, List.cons_append, takeBytes?_cons, ih, Option.map_some]

/-- A half-open range of byte offsets. -/
structure Span where
  /-- The offset of the first byte. -/
  start : Nat
  /-- The offset just past the last byte. -/
  stop : Nat
deriving DecidableEq, Repr, Inhabited

namespace Span

/-- The number of bytes covered. -/
def length (s : Span) : Nat :=
  s.stop - s.start

/-- Whether nothing is covered. -/
def isEmpty (s : Span) : Bool :=
  s.start == s.stop

/-- The smallest span that covers both. -/
def merge (s t : Span) : Span :=
  ⟨min s.start t.start, max s.stop t.stop⟩

/-- The characters in the span, or none at all when the span does not fit the text. -/
def chars (s : Span) (text : List Char) : List Char :=
  if s.start ≤ s.stop then
    (do takeBytes? (s.stop - s.start) (← dropBytes? s.start text)).getD []
  else []

/-- **A span that fits a text** cuts out what lies between its ends. -/
theorem chars_append (before cut after : List Char) :
    chars ⟨byteLength before, byteLength before + byteLength cut⟩
      (before ++ cut ++ after) = cut := by
  have hdrop := dropBytes?_append before (cut ++ after)
  have htake := takeBytes?_append cut after
  rw [← List.append_assoc] at hdrop
  rw [chars, if_pos (Nat.le_add_right _ _), hdrop]
  simp only [Option.bind_eq_bind, Option.bind_some, Nat.add_sub_cancel_left, htake,
    Option.getD_some]

/-- The text in the span, or the empty text when the span does not fit. -/
def slice (s : Span) (text : List Char) : String :=
  String.ofList (s.chars text)

/-- The span as it is shown to people: `3..8`. -/
def describe (s : Span) : String :=
  toString s.start ++ ".." ++ toString s.stop

end Span

end PhpHandbook.Source
