import Mathlib.Data.List.TakeWhile
import PhpHandbook.Declaration.Cursor

/-!
# Positions in a stream of tokens

The readers work on lists of items and leave suffixes of them.  Here such a list is a view of a
stream that never changes: a cursor has a position in the stream and the comments that it collected
on the way, and faces the items from there on up to the end of the file, which is the last token.

The cursor moves in one way only, from a token that is no comment to the next such token.  In front
of the end of the file it stays where it is.  So a reader that leaves a shorter list has moved the
position forward, and none can move it past the end of the file.

## Main definitions

* `Cursor`, `Cursor.advance`: a position, and its step to the next token that is no comment.
* `Cursor.Faces`: the items from the cursor on.

## Main statements

* `Cursor.Faces.current`: the cursor stands at the token that the readers take for the next one.
* `Cursor.Faces.forward`: what is left behind `n` items is what the cursor faces after `n` steps.
* `Cursor.Faces.position_lt`: a step away from an item moves the position forward.
-/

namespace PhpHandbook.Declaration

open Source (Token)

/-- The comment that a token is. -/
def Comment.ofToken (t : Token) : Comment :=
  ⟨t.lexeme, t.span⟩

theorem attachComments_comment (pending : List Comment) {t : Token} (h : t.kind.isTrivia)
    (ts : List Token) :
    attachComments pending (t :: ts) = attachComments (pending ++ [Comment.ofToken t]) ts := by
  rw [attachComments, if_pos h]
  rfl

/-- Comments in front of a token go to it. -/
theorem attachComments_append (pending : List Comment) {trivia : List Token}
    (h : ∀ t ∈ trivia, t.kind.isTrivia) (ts : List Token) :
    attachComments pending (trivia ++ ts)
      = attachComments (pending ++ trivia.map Comment.ofToken) ts := by
  induction trivia generalizing pending with
  | nil => rw [List.nil_append, List.map_nil, List.append_nil]
  | cons t trivia ih =>
    have ht : t.kind.isTrivia = true := h t List.mem_cons_self
    rw [List.cons_append, attachComments_comment pending ht,
      ih _ fun u hu => h u (List.mem_cons_of_mem t hu), List.append_assoc]
    rfl

theorem attachComments_cons (pending : List Comment) {t : Token} (h : ¬t.kind.isTrivia = true)
    (ts : List Token) :
    attachComments pending (t :: ts) = ⟨pending, t⟩ :: attachComments [] ts := by
  rw [attachComments, if_neg h]

/-- The last token stands in the last item. -/
theorem exists_attachComments_concat (pending : List Comment) (ts : List Token) {eof : Token}
    (h : ¬eof.kind.isTrivia = true) :
    ∃ us comments, attachComments pending (ts ++ [eof]) = us ++ [⟨comments, eof⟩] := by
  induction ts generalizing pending with
  | nil => exact ⟨[], pending, attachComments_cons pending h []⟩
  | cons t ts ih =>
    rw [List.cons_append, attachComments]
    split
    · exact ih _
    · obtain ⟨us, comments, hus⟩ := ih []
      exact ⟨_ :: us, comments, by rw [hus, List.cons_append]⟩

/-- A place in a stream of tokens, with the comments collected on the way there. -/
structure Cursor where
  position : Nat
  pending : List Comment

namespace Cursor

/-- Passes over comments and collects them. -/
def skipTrivia (tokens : List Token) (c : Cursor) : Cursor :=
  let trivia := (tokens.drop c.position).takeWhile (·.kind.isTrivia)
  ⟨c.position + trivia.length, c.pending ++ trivia.map Comment.ofToken⟩

/-- Goes to the next token that is no comment; the last token is never left. -/
def advance (tokens : List Token) (c : Cursor) : Cursor :=
  skipTrivia tokens ⟨if c.position < tokens.length - 1 then c.position + 1 else c.position, []⟩

/-- The first token that is no comment. -/
def start (tokens : List Token) : Cursor :=
  skipTrivia tokens ⟨0, []⟩

/-- A number of steps. -/
def forward (tokens : List Token) : Nat → Cursor → Cursor
  | 0, c => c
  | n + 1, c => forward tokens n (c.advance tokens)

/-- **The cursor faces `ts`**: it stands at a token that is no comment, and the items from there on
are `ts` and the end of the file. -/
structure Faces (tokens : List Token) (c : Cursor) (ts : List Item) : Prop where
  items : ∃ last, attachComments c.pending (tokens.drop c.position) = ts ++ [last]
  significant : ∀ t ∈ (tokens.drop c.position).head?, ¬t.kind.isTrivia = true

variable {init : List Token} {eof : Token}

theorem drop_skipTrivia (tokens : List Token) (c : Cursor) :
    tokens.drop (c.skipTrivia tokens).position
      = (tokens.drop c.position).dropWhile (·.kind.isTrivia) := by
  rw [skipTrivia, ← List.drop_drop]
  generalize tokens.drop c.position = rest
  have hsplit := congrArg (List.drop (rest.takeWhile (·.kind.isTrivia)).length)
    (@List.takeWhile_append_dropWhile _ (·.kind.isTrivia) rest)
  rw [List.drop_left] at hsplit
  exact hsplit.symm

/-- Collecting comments does not change the items. -/
theorem attachComments_skipTrivia (tokens : List Token) (c : Cursor) :
    attachComments (c.skipTrivia tokens).pending (tokens.drop (c.skipTrivia tokens).position)
      = attachComments c.pending (tokens.drop c.position) := by
  rw [drop_skipTrivia, skipTrivia]
  generalize tokens.drop c.position = rest
  have htrivia : ∀ t ∈ rest.takeWhile (·.kind.isTrivia), t.kind.isTrivia :=
    fun t ht => List.mem_takeWhile_imp (p := fun t : Token => t.kind.isTrivia) ht
  rw [← attachComments_append c.pending htrivia, List.takeWhile_append_dropWhile]

/-- Behind comments the cursor faces what it faced in front of them. -/
theorem faces_skipTrivia {tokens : List Token} {c : Cursor} {ts : List Item}
    (h : ∃ last, attachComments c.pending (tokens.drop c.position) = ts ++ [last]) :
    (c.skipTrivia tokens).Faces tokens ts := by
  refine ⟨?_, fun t ht => ?_⟩
  · rwa [attachComments_skipTrivia]
  · have hhead := List.head?_dropWhile_not (·.kind.isTrivia) (tokens.drop c.position)
    rw [drop_skipTrivia] at ht
    rw [Option.mem_def.1 ht] at hhead
    simpa using hhead

/-- A stream that ends with the end of the file is faced from its start on. -/
theorem faces_start (init : List Token) (heof : ¬eof.kind.isTrivia = true) :
    (start (init ++ [eof])).Faces (init ++ [eof]) (attachComments [] (init ++ [eof])).dropLast := by
  obtain ⟨us, comments, hus⟩ := exists_attachComments_concat [] init heof
  refine faces_skipTrivia ⟨⟨comments, eof⟩, ?_⟩
  rw [List.drop_zero, hus, List.dropLast_concat]

/-- A cursor that faces something stands at a token. -/
theorem Faces.exists_cons {tokens : List Token} {c : Cursor} {ts : List Item}
    (h : c.Faces tokens ts) : ∃ t rest last, tokens.drop c.position = t :: rest ∧
      ¬t.kind.isTrivia = true ∧ ⟨c.pending, t⟩ :: attachComments [] rest = ts ++ [last] := by
  obtain ⟨last, hlast⟩ := h.items
  have hsig := h.significant
  cases hdrop : tokens.drop c.position with
  | nil =>
    rw [hdrop] at hlast
    exact absurd hlast (by simp [attachComments])
  | cons t rest =>
    rw [hdrop] at hlast hsig
    have ht := hsig t rfl
    rw [attachComments_cons _ ht] at hlast
    exact ⟨t, rest, last, rfl, ht, hlast⟩

theorem Faces.position_lt_length {tokens : List Token} {c : Cursor} {ts : List Item}
    (h : c.Faces tokens ts) : c.position < tokens.length := by
  obtain ⟨t, rest, last, hdrop, -, -⟩ := h.exists_cons
  have hlength := congrArg List.length hdrop
  rw [List.length_drop, List.length_cons] at hlength
  omega

/-- **No step leaves the stream**: the position is at most that of the end of the file. -/
theorem Faces.position_le {c : Cursor} {ts : List Item} (h : c.Faces (init ++ [eof]) ts) :
    c.position ≤ init.length := by
  have hlt := h.position_lt_length
  rw [List.length_append, List.length_singleton] at hlt
  exact Nat.lt_succ_iff.1 hlt

/-- In front of an item there is more than the last token. -/
theorem Faces.exists_cons_cons {tokens : List Token} {c : Cursor} {t : Item} {us : List Item}
    (h : c.Faces tokens (t :: us)) : ∃ rest last, tokens.drop c.position = t.token :: rest ∧
      t.comments = c.pending ∧ rest ≠ [] ∧ attachComments [] rest = us ++ [last] := by
  obtain ⟨x, rest, last, hdrop, -, hitems⟩ := h.exists_cons
  obtain ⟨rfl, hrest⟩ := List.cons.inj hitems
  refine ⟨rest, last, hdrop, rfl, ?_, hrest⟩
  rintro rfl
  exact absurd hrest (by simp [attachComments])

/-- **A step** takes the cursor from an item to what is behind it, and its position forward. -/
theorem Faces.advance {tokens : List Token} {c : Cursor} {t : Item} {us : List Item}
    (h : c.Faces tokens (t :: us)) :
    (c.advance tokens).Faces tokens us ∧ c.position < (c.advance tokens).position := by
  obtain ⟨rest, last, hdrop, -, hne, hrest⟩ := h.exists_cons_cons
  have hlt : c.position < tokens.length - 1 := by
    have hlength := congrArg List.length hdrop
    have hpos := List.length_pos_iff.2 hne
    rw [List.length_drop, List.length_cons] at hlength
    omega
  have hnext : tokens.drop (c.position + 1) = rest := by
    rw [← List.drop_drop, hdrop, List.drop_one, List.tail_cons]
  rw [Cursor.advance, if_pos hlt]
  refine ⟨faces_skipTrivia ⟨last, ?_⟩, ?_⟩
  · rw [hnext, hrest]
  · exact Nat.lt_of_lt_of_le (Nat.lt_succ_self _) (Nat.le_add_right _ _)

/-- In front of the end of the file a step goes nowhere. -/
theorem Faces.advance_nil {c : Cursor} (heof : ¬eof.kind.isTrivia = true)
    (h : c.Faces (init ++ [eof]) []) :
    c.position = init.length ∧ (c.advance (init ++ [eof])).position = c.position := by
  have hle := h.position_le
  have hposition : c.position = init.length := by
    obtain ⟨t, rest, last, hdrop, -, hitems⟩ := h.exists_cons
    rcases Nat.lt_or_eq_of_le hle with hlt | heq
    · -- a token in front of the last one has an item of its own behind it
      have hrest : rest = init.drop (c.position + 1) ++ [eof] := by
        have htail := congrArg List.tail hdrop
        rwa [List.tail_drop, List.drop_append_of_le_length hlt, List.tail_cons, eq_comm] at htail
      obtain ⟨us, comments, hus⟩ :=
        exists_attachComments_concat [] (init.drop (c.position + 1)) heof
      rw [hrest, hus] at hitems
      exact absurd (congrArg List.length hitems) (by simp)
    · exact heq
  refine ⟨hposition, ?_⟩
  have hnone : ¬c.position < (init ++ [eof]).length - 1 := by
    rw [List.length_append, List.length_singleton]
    omega
  rw [Cursor.advance, if_neg hnone, skipTrivia]
  have hdrop : (init ++ [eof]).drop c.position = [eof] := by
    rw [hposition, List.drop_left]
  simp [hdrop, heof]

/-- A step takes the cursor to what is behind the next item, if there is one. -/
theorem Faces.advance_tail {c : Cursor} {ts : List Item} (heof : ¬eof.kind.isTrivia = true)
    (h : c.Faces (init ++ [eof]) ts) :
    (c.advance (init ++ [eof])).Faces (init ++ [eof]) ts.tail := by
  cases ts with
  | nil =>
    obtain ⟨hposition, -⟩ := h.advance_nil heof
    have hnone : ¬c.position < (init ++ [eof]).length - 1 := by
      rw [List.length_append, List.length_singleton]
      omega
    rw [Cursor.advance, if_neg hnone]
    refine faces_skipTrivia ⟨⟨[], eof⟩, ?_⟩
    rw [hposition, List.drop_left, attachComments_cons _ heof]
    rfl
  | cons t us => exact h.advance.1

/-- **The token at the cursor** is the one that the readers take for the next. -/
theorem Faces.current {c : Cursor} {ts : List Item} (source : List Char)
    (heof : ¬eof.kind.isTrivia = true) (h : c.Faces (init ++ [eof]) ts) :
    (init ++ [eof])[c.position]? = some (Env.current ⟨source, eof⟩ ts) := by
  cases ts with
  | nil =>
    rw [(h.advance_nil heof).1, List.getElem?_append_right (Nat.le_refl _), Nat.sub_self]
    rfl
  | cons t us =>
    obtain ⟨rest, last, hdrop, -, -, -⟩ := h.exists_cons_cons
    rw [← List.head?_drop, hdrop]
    rfl

/-- **Behind `n` items** the cursor faces what is left of them, further on in the stream. -/
theorem Faces.forward {tokens : List Token} {c : Cursor} {ts : List Item}
    (h : c.Faces tokens ts) {n : Nat} (hn : n ≤ ts.length) :
    (c.forward tokens n).Faces tokens (ts.drop n) ∧
      c.position + n ≤ (c.forward tokens n).position := by
  induction n generalizing c ts with
  | zero => exact ⟨h, Nat.le_refl _⟩
  | succ n ih =>
    cases ts with
    | nil => exact absurd hn (by simp)
    | cons t us =>
      obtain ⟨hus, hlt⟩ := h.advance
      obtain ⟨hdrop, hle⟩ := ih hus (Nat.le_of_succ_le_succ hn)
      refine ⟨hdrop, ?_⟩
      rw [Cursor.forward]
      omega

/-- A suffix of what the cursor faces is faced further on. -/
theorem Faces.suffix {tokens : List Token} {c : Cursor} {ts us : List Item} (h : c.Faces tokens ts)
    (hus : us <:+ ts) : ∃ n, (c.forward tokens n).Faces tokens us ∧
      c.position + (ts.length - us.length) ≤ (c.forward tokens n).position := by
  have hforward := h.forward (Nat.sub_le ts.length us.length)
  rw [← List.suffix_iff_eq_drop.1 hus] at hforward
  exact ⟨_, hforward⟩

end Cursor

end PhpHandbook.Declaration
