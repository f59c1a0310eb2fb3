import Mathlib.Data.Finset.Card
import PhpHandbook.Proofs.Accord
import PhpHandbook.Proofs.CommentBlocks

/-!
# Comments that share a document

A shelf hands out the document of a comment: nobody who reads through it can tell whether a comment
was read before.  Comments are kept under their texts without the blanks around them, so this rests
on two facts about reading.  Blanks around a comment never change its blocks: a line end in front or
behind makes a further empty line, and any other blank is dropped when its line is cleaned.  And the
three texts that are never kept have no blocks at all.

What the shelf remembers is visible in places only.  A place is the position of a text among the
texts kept so far, and positions in a list that only grows at its end do not move.

## Main definitions

* `Shelf.readAll`: a history of comments that are read one after another.
* `Shelf.texts`: the texts on a shelf.
* `placeAmong`: the place of a text among others.

## Main statements

* `blocks_trim`: blanks around a comment do not change its blocks.
* `Shelf.read_texts`, `Shelf.read_place`: what one reading does to the texts, and which place it
  gives.
* `Shelf.readAll_answers`: the places of a whole history are those on the shelf at its end.
* `shelf_transparent`: documents, sharing and size, for every history.
-/

namespace PhpHandbook

namespace Text

/-! ### Blanks at the ends of a text -/

variable {b : Char} (hb : isBlank b = true)

include hb

theorem stripBlank_cons (cs : List Char) : stripBlank (b :: cs) = stripBlank cs := by
  rw [stripBlank, dropBlank, List.dropWhile_cons_of_pos hb]
  rfl

theorem dropBlankEnd_concat (cs : List Char) : dropBlankEnd (cs ++ [b]) = dropBlankEnd cs := by
  rw [dropBlankEnd, List.reverse_concat, List.dropWhile_cons_of_pos hb]
  rfl

theorem stripBlank_concat (cs : List Char) : stripBlank (cs ++ [b]) = stripBlank cs := by
  rw [stripBlank, stripBlank, dropBlank, List.dropWhile_append]
  split_ifs with hempty
  · rw [List.isEmpty_iff] at hempty
    rw [dropBlank, hempty, List.dropWhile_cons_of_pos hb]
    rfl
  · exact dropBlankEnd_concat hb _

omit hb

/-- A text is what is left of it between blanks. -/
theorem exists_blanks_around (cs : List Char) :
    ∃ front back, cs = front ++ stripBlank cs ++ back ∧
      (∀ c ∈ front, isBlank c = true) ∧ ∀ c ∈ back, isBlank c = true := by
  refine ⟨cs.takeWhile isBlank, ((dropBlank cs).reverse.takeWhile isBlank).reverse, ?_,
    fun c => List.mem_takeWhile_imp, fun c hc => List.mem_takeWhile_imp (List.mem_reverse.1 hc)⟩
  have hback :
      stripBlank cs ++ ((dropBlank cs).reverse.takeWhile isBlank).reverse = dropBlank cs := by
    rw [stripBlank, dropBlankEnd, ← List.reverse_append, List.takeWhile_append_dropWhile,
      List.reverse_reverse]
  rw [List.append_assoc, hback, dropBlank, List.takeWhile_append_dropWhile]

/-- One more character at the end of a text starts a further part or goes on with the last one. -/
theorem splitChars_concat (separator c : Char) (cs : List Char) :
    ∃ parts last, splitChars separator cs = parts ++ [last] ∧
      splitChars separator (cs ++ [c])
        = parts ++ if c = separator then [last, []] else [last ++ [c]] := by
  induction cs with
  | nil =>
    refine ⟨[], [], rfl, ?_⟩
    split_ifs with hc <;> simp [splitChars, hc]
  | cons d cs ih =>
    obtain ⟨parts, last, hparts, hmore⟩ := ih
    rw [List.cons_append, splitChars, splitChars, hparts, hmore]
    by_cases hd : d = separator
    · exact ⟨[] :: parts, last, by simp [hd], by simp [hd]⟩
    · cases parts with
      | nil =>
        refine ⟨[], d :: last, by simp [hd], ?_⟩
        split_ifs <;> rfl
      | cons first parts => exact ⟨(d :: first) :: parts, last, by simp [hd], by simp [hd]⟩

end Text

namespace DocBlock

/-! ### Blanks around a comment -/

/-- The blocks of a comment given by its characters. -/
def blocksOfChars (cs : List Char) : List Block :=
  blocksOf ((Text.splitChars '\n' cs).map cleanLine)

section Blanks

variable {b : Char} (hb : Text.isBlank b = true)

include hb

theorem cleanLine_cons (line : List Char) : cleanLine (b :: line) = cleanLine line := by
  rw [cleanLine, Text.stripBlank_cons hb]
  rfl

theorem cleanLine_concat (line : List Char) : cleanLine (line ++ [b]) = cleanLine line := by
  rw [cleanLine, Text.stripBlank_concat hb]
  rfl

theorem blocksOfChars_cons (cs : List Char) : blocksOfChars (b :: cs) = blocksOfChars cs := by
  rw [blocksOfChars, blocksOfChars, Text.splitChars]
  split_ifs with hend
  · -- an empty line in front of the comment ends nothing
    rw [List.map_cons, show cleanLine [] = [] from rfl, blocksOf, blocksFrom_blank]
    rfl
  · split
    · next part parts hparts => rw [hparts, List.map_cons, List.map_cons, cleanLine_cons hb]
    · next hparts => rw [hparts, List.map_singleton, cleanLine_cons hb]; rfl

theorem blocksOfChars_concat (cs : List Char) : blocksOfChars (cs ++ [b]) = blocksOfChars cs := by
  obtain ⟨parts, last, hparts, hmore⟩ := Text.splitChars_concat '\n' b cs
  rw [blocksOfChars, blocksOfChars, hparts, hmore]
  split_ifs with hend
  · -- an empty line behind the comment ends the block that the end would have ended
    have hcut : blocksFrom .nothing ((parts ++ [last]).map cleanLine ++ [[]])
        = blocksFrom .nothing ((parts ++ [last]).map cleanLine) ++ blocksOf [[]] :=
      blocksFrom_cut rfl _ []
    rw [show [last, []] = [last] ++ [([] : List Char)] from rfl, ← List.append_assoc,
      List.map_append, List.map_singleton, show cleanLine [] = [] from rfl, blocksOf, hcut]
    exact List.append_nil _
  · rw [List.map_append, List.map_append, List.map_singleton, List.map_singleton,
      cleanLine_concat hb]

end Blanks

theorem blocksOfChars_front {front : List Char} (hfront : ∀ c ∈ front, Text.isBlank c = true)
    (cs : List Char) : blocksOfChars (front ++ cs) = blocksOfChars cs := by
  induction front with
  | nil => rfl
  | cons b front ih =>
    rw [List.forall_mem_cons] at hfront
    rw [List.cons_append, blocksOfChars_cons hfront.1, ih hfront.2]

theorem blocksOfChars_back {back : List Char} (hback : ∀ c ∈ back, Text.isBlank c = true)
    (cs : List Char) : blocksOfChars (cs ++ back) = blocksOfChars cs := by
  induction back generalizing cs with
  | nil => rw [List.append_nil]
  | cons b back ih =>
    rw [List.forall_mem_cons] at hback
    rw [List.append_cons, ih hback.2, blocksOfChars_concat hback.1]

/-- **Blanks around a comment do not change its blocks.** -/
theorem blocks_trim (comment : String) : blocks (Text.trim comment) = blocks comment := by
  obtain ⟨front, back, hcomment, hfront, hback⟩ := Text.exists_blanks_around comment.toList
  calc
    blocks (Text.trim comment) = blocksOfChars (Text.stripBlank comment.toList) := by
      rw [blocks_eq, cleanedLines, Text.trim, String.toList_ofList]
      rfl
    _ = blocksOfChars (front ++ Text.stripBlank comment.toList ++ back) := by
      rw [List.append_assoc, blocksOfChars_front hfront, blocksOfChars_back hback]
    _ = blocks comment := by
      rw [← hcomment]
      rfl

/-- **The document of a comment** is that of the comment without the blanks around it. -/
theorem Document.ofComment_trim (comment : String) :
    Document.ofComment (Text.trim comment) = Document.ofComment comment := by
  rw [Document.ofComment, blocks_trim]
  rfl

theorem Shelf.isBare_iff (text : String) :
    Shelf.isBare text = true ↔ text = "" ∨ text = "/** */" ∨ text = "/***/" := by
  simp [Shelf.isBare, or_assoc]

/-- The texts that are never kept have nothing in them. -/
theorem Document.ofComment_of_isBare {text : String} (h : Shelf.isBare text = true) :
    Document.ofComment text = {} := by
  have hblocks : blocks text = [] := by
    obtain rfl | rfl | rfl := (Shelf.isBare_iff text).1 h
    all_goals decide +kernel
  rw [Document.ofComment, hblocks]
  rfl

/-- **What a shelf hands out for a comment is the document of the comment**; a missing comment says
nothing. -/
theorem documentOf_eq (comment : Option String) :
    Handbook.documentOf comment = (comment.map Document.ofComment).getD {} := by
  have htext : Handbook.documentOf comment = Document.ofComment (comment.getD "") := by
    unfold Handbook.documentOf
    split_ifs with hbare
    · rw [← Document.ofComment_trim, Document.ofComment_of_isBare hbare]
    · exact Document.ofComment_trim _
  rw [htext]
  cases comment with
  | some text => rfl
  | none => exact Document.ofComment_of_isBare ((Shelf.isBare_iff _).2 (.inl rfl))

/-! ### Places -/

/-- The text that a comment is kept under. -/
def keptText (comment : Option String) : String :=
  Text.trim (comment.getD "")

theorem documentOf_congr {comment other : Option String} (h : keptText comment = keptText other) :
    Handbook.documentOf comment = Handbook.documentOf other := by
  unfold Handbook.documentOf
  rw [← keptText, h]
  rfl

/-- **The place of a text** among others: the first position it stands at. -/
def placeAmong (texts : List String) (text : String) : Option Nat :=
  if Shelf.isBare text then none else some (texts.idxOf text)

/-- The texts that are kept after one more. -/
def keepText (texts : List String) (text : String) : List String :=
  if Shelf.isBare text ∨ text ∈ texts then texts else texts ++ [text]

namespace Shelf

/-- The texts on a shelf, in order. -/
def texts (shelf : Shelf) : List String :=
  shelf.entries.toList.map (·.1)

theorem size_eq (shelf : Shelf) : shelf.size = shelf.texts.length := by
  simp [size, texts]

theorem findIdx?_entries (shelf : Shelf) (text : String) :
    shelf.entries.findIdx? (·.1 == text)
      = if text ∈ shelf.texts then some (shelf.texts.idxOf text) else none := by
  have hmap : shelf.entries.findIdx? (·.1 == text) = shelf.texts.findIdx? (· == text) := by
    rw [texts, List.findIdx?_map, ← List.findIdx?_toArray]
    rfl
  rw [hmap, List.findIdx?_eq_guard_findIdx_lt]
  simp only [Option.guard, decide_eq_true_eq]
  exact if_congr List.idxOf_lt_length_iff rfl rfl

/-- **What one reading does to the texts**: a text that says something is added, if it is new. -/
theorem read_texts (shelf : Shelf) (comment : Option String) :
    (shelf.read comment).2.texts = keepText shelf.texts (keptText comment) := by
  rw [read, ← keptText, findIdx?_entries, keepText]
  by_cases hbare : isBare (keptText comment) = true
  · simp [hbare]
  · by_cases hmem : keptText comment ∈ shelf.texts
    · simp [hbare, hmem]
    · simp only [hbare, hmem, Bool.false_eq_true, if_false, or_self]
      simp [texts]

/-- **The place that a reading gives** is that of the text among the texts that are kept then. -/
theorem read_place (shelf : Shelf) (comment : Option String) :
    (shelf.read comment).1.place = placeAmong (shelf.read comment).2.texts (keptText comment) := by
  rw [read_texts, read, ← keptText, findIdx?_entries, keepText, placeAmong]
  by_cases hbare : isBare (keptText comment) = true
  · simp [hbare]
  · by_cases hmem : keptText comment ∈ shelf.texts
    · simp [hbare, hmem]
    · simp [hbare, hmem, size_eq, List.idxOf_append_of_notMem hmem]

/-! ### Histories -/

/-- **Reads comments** one after another. -/
def readAll (shelf : Shelf) : List (Option String) → List Shelved × Shelf
  | [] => ([], shelf)
  | comment :: comments =>
    let first := shelf.read comment
    let more := first.2.readAll comments
    (first.1 :: more.1, more.2)

end Shelf

/-- Texts are added at the end. -/
theorem isPrefix_keepText (texts : List String) (text : String) :
    texts <+: keepText texts text := by
  unfold keepText
  split_ifs
  · exact List.prefix_rfl
  · exact List.prefix_append _ _

theorem nodup_keepText {texts : List String} (h : texts.Nodup) (text : String) :
    (keepText texts text).Nodup := by
  unfold keepText
  split_ifs with hkept
  · exact h
  · exact List.nodup_append.2 ⟨h, List.nodup_singleton _, fun a ha b hb =>
      fun hab => hkept (.inr (List.mem_singleton.1 hb ▸ hab ▸ ha))⟩

theorem mem_keepText {texts : List String} {text other : String} :
    other ∈ keepText texts text ↔ other ∈ texts ∨ other = text ∧
      Shelf.isBare text = false := by
  unfold keepText
  split_ifs with hkept
  · refine ⟨.inl, ?_⟩
    rintro (hmem | ⟨rfl, hbare⟩)
    · exact hmem
    · exact hkept.resolve_left (by simp [hbare])
  · rw [not_or, Bool.not_eq_true] at hkept
    simp [hkept.1]

/-- The place of a text that is kept does not move. -/
theorem placeAmong_of_isPrefix {texts more : List String} (h : texts <+: more) {text : String}
    (htext : Shelf.isBare text = false → text ∈ texts) :
    placeAmong more text = placeAmong texts text := by
  unfold placeAmong
  split_ifs with hbare
  · rfl
  · obtain ⟨added, rfl⟩ := h
    rw [List.idxOf_append_of_mem (htext (Bool.eq_false_iff.2 hbare))]

/-- **Places tell texts apart**; only the texts that are never kept have no place. -/
theorem placeAmong_eq_iff {texts : List String} {text other : String}
    (htext : Shelf.isBare text = false → text ∈ texts) :
    placeAmong texts text = placeAmong texts other ↔
      text = other ∨ Shelf.isBare text = true ∧ Shelf.isBare other = true := by
  unfold placeAmong
  by_cases hbare : Shelf.isBare text = true <;> by_cases hother : Shelf.isBare other = true
  · simp [hbare, hother]
  · simpa [hbare, hother] using fun h : text = other => hother (h ▸ hbare)
  · simpa [hbare, hother] using fun h : text = other => hbare (h ▸ hother)
  · simp [hbare, hother, List.idxOf_inj (htext (Bool.eq_false_iff.2 hbare))]

/-- The texts that a history keeps. -/
def keepTexts (texts : List String) : List (Option String) → List String
  | [] => texts
  | comment :: comments => keepTexts (keepText texts (keptText comment)) comments

theorem isPrefix_keepTexts (texts : List String) (comments : List (Option String)) :
    texts <+: keepTexts texts comments := by
  induction comments generalizing texts with
  | nil => exact List.prefix_rfl
  | cons comment comments ih =>
    rw [keepTexts]
    exact (isPrefix_keepText _ _).trans (ih _)

theorem nodup_keepTexts {texts : List String} (h : texts.Nodup) (comments : List (Option String)) :
    (keepTexts texts comments).Nodup := by
  induction comments generalizing texts with
  | nil => exact h
  | cons comment comments ih =>
    rw [keepTexts]
    exact ih (nodup_keepText h _)

theorem mem_keepTexts {texts : List String} {comments : List (Option String)} {text : String} :
    text ∈ keepTexts texts comments ↔
      text ∈ texts ∨ text ∈ comments.map keptText ∧ Shelf.isBare text = false := by
  induction comments generalizing texts with
  | nil => simp [keepTexts]
  | cons comment comments ih =>
    rw [keepTexts, ih, mem_keepText, List.map_cons, List.mem_cons, or_assoc]
    refine or_congr_right ⟨?_, ?_⟩
    · rintro (⟨rfl, hbare⟩ | ⟨hmem, hbare⟩)
      · exact ⟨.inl rfl, hbare⟩
      · exact ⟨.inr hmem, hbare⟩
    · rintro ⟨rfl | hmem, hbare⟩
      · exact .inl ⟨rfl, hbare⟩
      · exact .inr ⟨hmem, hbare⟩

namespace Shelf

/-- The texts after a history are those that the history keeps. -/
theorem readAll_texts (shelf : Shelf) (comments : List (Option String)) :
    (shelf.readAll comments).2.texts = keepTexts shelf.texts comments := by
  induction comments generalizing shelf with
  | nil => rfl
  | cons comment comments ih =>
    rw [readAll, ih, read_texts, keepTexts]

/-- **The answers of a history.**  The places are those of its texts among all texts that it keeps:
what is read later moves none.  The documents are those of its comments: what was read before does
not matter. -/
theorem readAll_answers (shelf : Shelf)
    (h : ∀ p ∈ shelf.entries.toList, p.2 = Document.ofComment p.1)
    (comments : List (Option String)) :
    (shelf.readAll comments).1 = comments.map fun comment =>
      ⟨placeAmong (keepTexts shelf.texts comments) (keptText comment),
        Handbook.documentOf comment⟩ := by
  induction comments generalizing shelf with
  | nil => rfl
  | cons comment comments ih =>
    obtain ⟨hdoc, hsound⟩ := Handbook.read_of_sound h comment
    have hkept : keepTexts (shelf.read comment).2.texts comments
        = keepTexts shelf.texts (comment :: comments) := by
      rw [read_texts, keepTexts]
    have hplace : (shelf.read comment).1.place
        = placeAmong (keepTexts shelf.texts (comment :: comments)) (keptText comment) := by
      rw [read_place, ← hkept, placeAmong_of_isPrefix (isPrefix_keepTexts _ comments)]
      exact fun hbare => read_texts shelf comment ▸ mem_keepText.2 (.inr ⟨rfl, hbare⟩)
    rw [readAll, List.map_cons, ih _ hsound, hkept, ← hdoc, ← hplace]

end Shelf

/-- **A shelf cannot be told from reading every comment anew**, but for what is shared.  For every
history of comments that are read from an empty shelf:

* Each answer holds the document of its comment with all the blanks around it, and the empty
  document for a missing comment.
* Comments that are the same but for the blanks around them are given the same document in the same
  place.  No other comments share a place, but for those that say nothing: they all share the empty
  document.
* There are as many documents on the shelf as there are different texts, blanks around them apart,
  other than the three that say nothing. -/
theorem shelf_transparent (comments : List (Option String)) :
    (Shelf.readAll {} comments).1.map (·.document)
        = comments.map (fun comment => (comment.map Document.ofComment).getD {}) ∧
      (∀ p ∈ comments.zip (Shelf.readAll {} comments).1,
        ∀ q ∈ comments.zip (Shelf.readAll {} comments).1,
        (keptText p.1 = keptText q.1 → p.2 = q.2) ∧
          (p.2.place = q.2.place →
            keptText p.1 = keptText q.1 ∨
              Shelf.isBare (keptText p.1) = true ∧ Shelf.isBare (keptText q.1) = true)) ∧
      (Shelf.readAll {} comments).2.size
        = ((comments.map keptText).toFinset \ {"", "/** */", "/***/"}).card := by
  have hanswers := Shelf.readAll_answers {} (List.forall_mem_nil _) comments
  refine ⟨?_, ?_, ?_⟩
  · simp only [hanswers, List.map_map, Function.comp_def, documentOf_eq]
  · rw [hanswers, ← List.map_prod_left_eq_zip]
    simp only [List.forall_mem_map]
    intro c hc d _
    refine ⟨fun hsame => ?_, (placeAmong_eq_iff fun hbare => ?_).1⟩
    · rw [hsame, documentOf_congr hsame]
    · exact mem_keepTexts.2 (.inr ⟨List.mem_map_of_mem hc, hbare⟩)
  · have hnodup : (keepTexts [] comments).Nodup := nodup_keepTexts List.nodup_nil comments
    have hsize : (Shelf.readAll {} comments).2.size = (keepTexts [] comments).length := by
      rw [Shelf.size_eq, Shelf.readAll_texts]
      rfl
    rw [hsize, ← List.toFinset_card_of_nodup hnodup]
    congr 1
    ext text
    rw [List.mem_toFinset, mem_keepTexts, Bool.eq_false_iff, ne_eq, Shelf.isBare_iff]
    simp

end DocBlock

end PhpHandbook
