import Mathlib.Data.List.TakeWhile
import PhpHandbook.DocBlock.Block
import PhpHandbook.Proofs.PageFiles

/-!
# Lines and blocks of a comment

Cutting a comment into blocks loses no line.  Every line that is not empty stands in one block, in
the order of the comment: as a line of a paragraph, as the first line of a tag, or as a line of the
body of a tag.  The first line of a tag is kept as the name and as what follows it without the
blanks around it.

What is read so far is the finished blocks and the block that is being read, so the invariant is
about both: the lines of the finished blocks, then the lines that the open block holds, are the
lines read.  The other direction, where a block has to end, is a cut: in front of a line that does
not go on with a block, the blocks of the whole are those of the two parts.

## Main definitions

* `cleanedLines`: the lines of a comment without their delimiters.
* `IsTagName`: names of tags.
* `Block.Covers`: the lines that a block was read from.
* `Open.Holds`: the lines that the block that is being read was read from.

## Main statements

* `tagLine?_eq_some_iff`: which lines start a tag.
* `covers_blocksFrom`: the blocks cover the lines that are not empty.
* `blocksFrom_cut`: a line that does not go on with a block cuts the blocks in two.
* `blocks_lossless`: what the blocks of a comment are, line by line.
-/

namespace PhpHandbook

namespace Text

/-- No part of a text has the separator in it. -/
theorem not_mem_of_mem_splitChars {separator : Char} {cs part : List Char}
    (h : part ∈ splitChars separator cs) : separator ∉ part := by
  induction cs generalizing part with
  | nil =>
    obtain rfl := List.mem_singleton.1 h
    exact List.not_mem_nil
  | cons c cs ih =>
    rw [splitChars] at h
    split_ifs at h with hc
    · rcases List.mem_cons.1 h with rfl | h
      · exact List.not_mem_nil
      · exact ih h
    · split at h
      · next first more hparts =>
        have hfirst : separator ∉ first := ih (by rw [hparts]; exact List.mem_cons_self)
        rcases List.mem_cons.1 h with rfl | h
        · simp [hfirst, Ne.symm hc]
        · exact ih (by rw [hparts]; exact List.mem_cons_of_mem _ h)
      · obtain rfl := List.mem_singleton.1 h
        simp [Ne.symm hc]

theorem dropBlank_subset (cs : List Char) : dropBlank cs ⊆ cs :=
  (List.dropWhile_sublist _).subset

theorem stripBlank_subset (cs : List Char) : stripBlank cs ⊆ cs := by
  intro c hc
  rw [stripBlank, dropBlankEnd, List.mem_reverse] at hc
  exact dropBlank_subset cs (List.mem_reverse.1 ((List.dropWhile_sublist _).subset hc))

end Text

namespace DocBlock

/-- What stands in one of two lists that go together has its counterpart in the other. -/
theorem exists_of_mem_forall₂ {α β : Type} {R : α → β → Prop} {as : List α}
    {bs : List β} (h : List.Forall₂ R as bs) {a : α} (ha : a ∈ as) : ∃ b ∈ bs, R a b := by
  induction h with
  | nil => cases ha
  | cons hab _ ih =>
    rcases List.mem_cons.1 ha with rfl | ha
    · exact ⟨_, List.mem_cons_self, hab⟩
    · obtain ⟨b, hb, hrel⟩ := ih ha
      exact ⟨b, List.mem_cons_of_mem _ hb, hrel⟩

/-! ### Lines -/

/-- The lines of a comment without their delimiters, the empty ones among them. -/
def cleanedLines (comment : String) : List (List Char) :=
  (Text.splitChars '\n' comment.toList).map cleanLine

/-- Whether a line is a further line of the block before it: it is not empty and starts no tag. -/
def isFurther (line : List Char) : Bool :=
  !line.isEmpty && (tagLine? line).isNone

/-- **Names of tags**: a letter or an underscore, then letters, digits, and the signs that may stand
in a name. -/
def IsTagName : List Char → Prop
  | [] => False
  | c :: cs => isTagStart c = true ∧ ∀ d ∈ cs, isTagPart d = true

/-- **The first line of a tag** is the sign, a name, and something that does not go on with the
name. -/
theorem tagLine?_eq_some_iff {line name rest : List Char} :
    tagLine? line = some (name, rest) ↔
      line = '@' :: (name ++ rest) ∧ IsTagName name ∧
      ∀ c ∈ rest.head?, isTagPart c = false := by
  constructor
  · intro h
    unfold tagLine? at h
    split at h
    · next c cs =>
      split_ifs at h with hstart
      simp only [Option.some.injEq, Prod.mk.injEq] at h
      obtain ⟨rfl, rfl⟩ := h
      refine ⟨by simp, ⟨hstart, fun d hd => List.mem_takeWhile_imp hd⟩, fun d hd => ?_⟩
      have hstop := List.head?_dropWhile_not isTagPart cs
      rw [Option.mem_def.1 hd] at hstop
      exact hstop
    · cases h
  · rintro ⟨rfl, hname, hrest⟩
    cases name with
    | nil => exact hname.elim
    | cons c cs =>
      have hstop : rest.takeWhile isTagPart = [] ∧ rest.dropWhile isTagPart = rest := by
        cases rest with
        | nil => exact ⟨rfl, rfl⟩
        | cons d ds => simp [hrest d rfl]
      simp [tagLine?, hname.1, List.takeWhile_append_of_pos hname.2,
        List.dropWhile_append_of_pos hname.2, hstop]

theorem eq_of_tagLine? {line name rest : List Char} (h : tagLine? line = some (name, rest)) :
    line = '@' :: (name ++ rest) :=
  (tagLine?_eq_some_iff.1 h).1

/-- **The three kinds of lines.** -/
theorem line_cases (line : List Char) :
    line = [] ∨ (∃ name rest, tagLine? line = some (name, rest)) ∨ isFurther line = true := by
  cases htag : tagLine? line with
  | some found => exact .inr (.inl ⟨found.1, found.2, rfl⟩)
  | none =>
    cases line with
    | nil => exact .inl rfl
    | cons c cs => exact .inr (.inr (by simp [isFurther, htag]))

theorem ne_nil_of_isFurther {line : List Char} (h : isFurther line = true) : line ≠ [] := by
  rintro rfl
  cases h

theorem tagLine?_of_isFurther {line : List Char} (h : isFurther line = true) :
    tagLine? line = none := by
  simp only [isFurther, Bool.and_eq_true, Option.isNone_iff_eq_none] at h
  exact h.2

theorem isFurther_of_tagLine? {line name rest : List Char} (h : tagLine? line = some (name, rest)) :
    isFurther line = false := by
  simp [isFurther, h]

theorem dropFront_subset (front cs : List Char) : dropFront front cs ⊆ cs := by
  unfold dropFront
  split_ifs
  · exact List.drop_subset _ _
  · exact List.Subset.refl _

theorem dropBack_isPrefix (back cs : List Char) : dropBack back cs <+: cs := by
  unfold dropBack
  split_ifs
  · exact List.take_prefix _ _
  · exact List.prefix_rfl

/-- Cleaning a line only leaves characters out. -/
theorem cleanLine_subset (line : List Char) : cleanLine line ⊆ line := by
  unfold cleanLine
  intro c hc
  have hfront := dropFront_subset _ _ (Text.stripBlank_subset _ hc)
  have hback := (dropBack_isPrefix _ _).subset (Text.dropBlank_subset _ hfront)
  exact Text.stripBlank_subset _ (dropFront_subset _ _ hback)

/-! ### One line -/

/-- The blocks of cleaned lines. -/
def blocksOf (lines : List (List Char)) : List Block :=
  blocksFrom .nothing lines

theorem blocks_eq (comment : String) : blocks comment = blocksOf (cleanedLines comment) :=
  rfl

/-- The block that is being read with one more line. -/
def Open.goOn (current : Open) (line : List Char) : Open :=
  match current with
  | .nothing => .text [String.ofList line]
  | .text more => .text (String.ofList line :: more)
  | .tag name more => .tag name (String.ofList line :: more)

/-- The block that is being read behind the first line of a tag. -/
def Open.ofHeader (name rest : List Char) : Open :=
  .tag (String.ofList name) [String.ofList (Text.stripBlank rest)]

variable {current : Open}

theorem blocksFrom_nil : blocksFrom current [] = current.close :=
  rfl

theorem blocksFrom_blank (lines : List (List Char)) :
    blocksFrom current ([] :: lines) = current.close ++ blocksOf lines :=
  rfl

theorem blocksFrom_header {line name rest : List Char} (h : tagLine? line = some (name, rest))
    (lines : List (List Char)) :
    blocksFrom current (line :: lines)
      = current.close ++ blocksFrom (.ofHeader name rest) lines := by
  obtain rfl := eq_of_tagLine? h
  simp [blocksFrom, h, Open.ofHeader]

theorem blocksFrom_further {line : List Char} (h : isFurther line = true)
    (lines : List (List Char)) :
    blocksFrom current (line :: lines) = blocksFrom (current.goOn line) lines := by
  cases current <;> simp [blocksFrom, Open.goOn, ne_nil_of_isFurther h, tagLine?_of_isFurther h]

/-! ### Every line stands in a block -/

/-- **The lines that a block was read from.**  A paragraph was read from its lines.  A tag was read
from a first line, which is the sign, its name and some more, and from the further lines of its
body. -/
inductive Block.Covers : Block → List (List Char) → Prop
  | text {lines : List (List Char)} (hne : lines ≠ [])
    (hlines : ∀ line ∈ lines, isFurther line = true) :
    Covers (.text (lines.map String.ofList)) lines
  | tag {name rest : List Char} {more : List (List Char)}
    (hheader : tagLine? ('@' :: (name ++ rest)) = some (name, rest))
    (hmore : ∀ line ∈ more, isFurther line = true) :
    Covers
      (.tag (String.ofList name) (String.ofList (Text.stripBlank rest) :: more.map String.ofList))
      (('@' :: (name ++ rest)) :: more)

/-- **The lines that the block that is being read was read from.** -/
inductive Open.Holds : Open → List (List Char) → Prop
  | nothing : Holds .nothing []
  | reading {current : Open} {block : Block} {held : List (List Char)}
    (hclose : current.close = [block]) (hcovers : block.Covers held) : Holds current held

theorem Open.Holds.close {held : List (List Char)} (h : current.Holds held) :
    ∃ pieces, List.Forall₂ Block.Covers current.close pieces ∧ pieces.flatten = held := by
  cases h with
  | nothing => exact ⟨[], .nil, rfl⟩
  | reading hclose hcovers => exact ⟨[held], by rw [hclose]; exact .cons hcovers .nil, by simp⟩

theorem Open.holds_ofHeader {line name rest : List Char} (h : tagLine? line = some (name, rest)) :
    (Open.ofHeader name rest).Holds [line] := by
  obtain rfl := eq_of_tagLine? h
  exact .reading rfl (Block.Covers.tag h (List.forall_mem_nil _))

/-- A line that goes on is held behind those before it. -/
theorem Open.Holds.goOn {held : List (List Char)} {line : List Char} (h : current.Holds held)
    (hline : isFurther line = true) : (current.goOn line).Holds (held ++ [line]) := by
  have hsnoc {more : List (List Char)} (hmore : ∀ l ∈ more, isFurther l = true) :
      ∀ l ∈ more ++ [line], isFurther l = true :=
    List.forall_mem_append.2 ⟨hmore, List.forall_mem_singleton.2 hline⟩
  cases h with
  | nothing =>
    exact .reading rfl (Block.Covers.text (List.cons_ne_nil _ _) (hsnoc (List.forall_mem_nil _)))
  | reading hclose hcovers =>
    cases hcovers with
    | text hne hlines =>
      cases current with
      | nothing => cases hclose
      | tag name body => cases hclose
      | text lines =>
        simp only [Open.close, List.cons.injEq, Block.text.injEq, and_true] at hclose
        have hcovers :=
          Block.Covers.text (List.append_ne_nil_of_left_ne_nil hne [line]) (hsnoc hlines)
        refine .reading ?_ hcovers
        simp [Open.goOn, Open.close, hclose]
    | tag hheader hmore =>
      cases current with
      | nothing => cases hclose
      | text lines => cases hclose
      | tag name body =>
        simp only [Open.close, List.cons.injEq, Block.tag.injEq, and_true] at hclose
        refine .reading ?_ (Block.Covers.tag hheader (hsnoc hmore))
        simp [Open.goOn, Open.close, hclose]

/-- **The blocks cover the lines.**  The finished blocks were read from the lines that the open
block holds and from the lines still to be read that are not empty, in this order. -/
theorem covers_blocksFrom {held : List (List Char)} (h : current.Holds held)
    (lines : List (List Char)) :
    ∃ pieces, List.Forall₂ Block.Covers (blocksFrom current lines) pieces ∧
      pieces.flatten = held ++ lines.filter (!·.isEmpty) := by
  -- by induction on the lines; what the open block holds is the invariant
  induction lines generalizing current held with
  | nil => simpa [blocksFrom_nil] using h.close
  | cons line lines ih =>
    obtain ⟨closed, hclosed, hheld⟩ := h.close
    obtain rfl | ⟨name, rest, htag⟩ | hon := line_cases line
    · obtain ⟨pieces, hpieces, hlines⟩ := ih .nothing
      refine ⟨closed ++ pieces, ?_, by simp [hheld, hlines]⟩
      rw [blocksFrom_blank]
      exact List.rel_append hclosed hpieces
    · obtain ⟨pieces, hpieces, hlines⟩ := ih (Open.holds_ofHeader htag)
      refine ⟨closed ++ pieces, ?_, ?_⟩
      · rw [blocksFrom_header htag]
        exact List.rel_append hclosed hpieces
      · have hne : line ≠ [] := by
          rintro rfl
          cases htag
        simp [hheld, hlines, hne]
    · obtain ⟨pieces, hpieces, hlines⟩ := ih (h.goOn hon)
      refine ⟨pieces, ?_, ?_⟩
      · rwa [blocksFrom_further hon]
      · simp [hlines, ne_nil_of_isFurther hon]

/-! ### Where a block ends -/

/-- **A cut.**  In front of a line that does not go on with a block, the block that is being read
ends, and what follows is read as if nothing stood before it. -/
theorem blocksFrom_cut {line : List Char} (hline : isFurther line = false)
    (before after : List (List Char)) :
    blocksFrom current (before ++ line :: after)
      = blocksFrom current before ++ blocksOf (line :: after) := by
  induction before generalizing current with
  | nil =>
    rw [List.nil_append, blocksFrom_nil, blocksOf]
    obtain rfl | ⟨name, rest, htag⟩ | hon := line_cases line
    · rw [blocksFrom_blank, blocksFrom_blank]
      rfl
    · rw [blocksFrom_header htag, blocksFrom_header htag]
      rfl
    · exact absurd hon (by simp [hline])
  | cons first before ih =>
    rw [List.cons_append]
    obtain rfl | ⟨name, rest, htag⟩ | hon := line_cases first
    · rw [blocksFrom_blank, blocksFrom_blank, List.append_assoc, blocksOf, ih]
      rfl
    · rw [blocksFrom_header htag, blocksFrom_header htag, List.append_assoc, ih]
    · rw [blocksFrom_further hon, blocksFrom_further hon, ih]

/-- A tag that is being read is the next block, whatever follows in its body. -/
theorem exists_blocksFrom_tag (name : String) (body : List String) (lines : List (List Char)) :
    ∃ more later, blocksFrom (.tag name body) lines
      = .tag name (body.reverse ++ more) :: later := by
  induction lines generalizing body with
  | nil => exact ⟨[], [], by simp [blocksFrom_nil, Open.close]⟩
  | cons line lines ih =>
    obtain rfl | ⟨name', rest, htag⟩ | hon := line_cases line
    · exact ⟨[], blocksOf lines, by simp [blocksFrom_blank, Open.close]⟩
    · exact ⟨[], _, by rw [blocksFrom_header htag, Open.close, List.append_nil]; rfl⟩
    · obtain ⟨more, later, h⟩ := ih (String.ofList line :: body)
      exact ⟨String.ofList line :: more, later, by simp [blocksFrom_further hon, Open.goOn, h]⟩

/-! ### The lines of a block -/

/-- The lines of a block, those of a tag without its name. -/
def Block.lines : Block → List String
  | .text lines => lines
  | .tag _ body => body

/-- A block has lines, and no further characters than the lines it was read from. -/
theorem Block.Covers.lines {block : Block} {piece : List (List Char)} (h : block.Covers piece) :
    block.lines ≠ [] ∧ ∀ line ∈ block.lines, ∃ written ∈ piece,
      line.toList ⊆ written := by
  cases h with
  | text hne hlines =>
    simpa [Block.lines, hne] using fun line hline => ⟨line, hline, List.Subset.refl _⟩
  | @tag name rest more hheader hmore =>
    have hstrip : Text.stripBlank rest ⊆ '@' :: (name ++ rest) := fun c hc =>
      List.mem_cons_of_mem _ (List.mem_append_right _ (Text.stripBlank_subset rest hc))
    refine ⟨List.cons_ne_nil _ _,
      List.forall_mem_cons.2 ⟨⟨_, List.mem_cons_self, by simpa using hstrip⟩, ?_⟩⟩
    intro line hline
    obtain ⟨written, hwritten, rfl⟩ := List.mem_map.1 hline
    exact ⟨written, List.mem_cons_of_mem _ hwritten, by simp⟩

/-- A block of a comment was read from lines of the comment. -/
theorem exists_covers_of_mem {comment : String} {block : Block} (h : block ∈ blocks comment) :
    ∃ piece, block.Covers piece ∧ piece ⊆ cleanedLines comment := by
  obtain ⟨pieces, hpieces, hlines⟩ := covers_blocksFrom .nothing (cleanedLines comment)
  obtain ⟨piece, hpiece, hcovers⟩ := exists_of_mem_forall₂ hpieces h
  refine ⟨piece, hcovers, fun line hline => ?_⟩
  have hmem : line ∈ pieces.flatten := List.mem_flatten.2 ⟨piece, hpiece, hline⟩
  rw [hlines, List.nil_append] at hmem
  exact List.mem_of_mem_filter hmem

/-- No line of a comment has a line end. -/
theorem not_mem_of_mem_cleanedLines {comment : String} {line : List Char}
    (h : line ∈ cleanedLines comment) : '\n' ∉ line := by
  obtain ⟨written, hwritten, rfl⟩ := List.mem_map.1 h
  exact fun hmem => Text.not_mem_of_mem_splitChars hwritten (cleanLine_subset written hmem)

/-- The lines of a block, put together with line ends, are found again. -/
theorem split_intercalate_lines {comment : String} {block : Block} (h : block ∈ blocks comment) :
    Text.split '\n' ("\n".intercalate block.lines) = block.lines := by
  obtain ⟨piece, hcovers, hpiece⟩ := exists_covers_of_mem h
  obtain ⟨hne, hlines⟩ := hcovers.lines
  have hclean : ∀ line ∈ block.lines.map String.toList, '\n' ∉ line := by
    intro chars hchars hend
    obtain ⟨line, hline, rfl⟩ := List.mem_map.1 hchars
    obtain ⟨written, hwritten, hsub⟩ := hlines line hline
    exact not_mem_of_mem_cleanedLines (hpiece hwritten) (hsub hend)
  rw [Text.split, String.toList_intercalate, Text.splitChars_eq_splitOn]
  have hfound := List.splitOn_intercalate '\n' hclean (by simpa using hne)
  simp [show "\n".toList = ['\n'] from rfl, hfound]

/-! ### The comment as a whole -/

/-- **The blocks of a comment, line by line.**

* Put in place of each block, the lines that it was read from are the lines of the comment that are
  not empty, in their order.
* A line that starts a tag starts a new block, whatever stands before it.
* An empty line ends the block before it, and the next block starts behind it.
* A paragraph has lines, and none of them starts a tag.
* The text that a block is kept as has the lines of the block: they have no line end in them. -/
theorem blocks_lossless (comment : String) :
    (∃ pieces, List.Forall₂ Block.Covers (blocks comment) pieces ∧
      pieces.flatten = (cleanedLines comment).filter (!·.isEmpty)) ∧
    (∀ before line after name rest, cleanedLines comment = before ++ line :: after →
      tagLine? line = some (name, rest) →
      ∃ more later, blocks comment = blocksOf before ++
        .tag (String.ofList name) (String.ofList (Text.stripBlank rest) :: more) :: later) ∧
    (∀ before after, cleanedLines comment = before ++ [] :: after →
      blocks comment = blocksOf before ++ blocksOf after) ∧
    (∀ lines, .text lines ∈ blocks comment →
      lines ≠ [] ∧ ∀ line ∈ lines, line ≠ "" ∧ tagLine? line.toList = none) ∧
    (∀ block ∈ blocks comment, Text.split '\n' ("\n".intercalate block.lines)
      = block.lines) := by
  refine ⟨covers_blocksFrom .nothing _, ?_, ?_, ?_, fun block => split_intercalate_lines⟩
  · intro before line after name rest hlines htag
    obtain ⟨more, later, htagged⟩ := exists_blocksFrom_tag (String.ofList name)
      [String.ofList (Text.stripBlank rest)] after
    refine ⟨more, later, ?_⟩
    rw [blocks_eq, hlines, blocksOf, blocksFrom_cut (isFurther_of_tagLine? htag), blocksOf,
      blocksFrom_header htag, ← blocksOf]
    exact congrArg (blocksOf before ++ ·) htagged
  · intro before after hlines
    rw [blocks_eq, hlines, blocksOf, blocksFrom_cut rfl, blocksOf, blocksFrom_blank]
    rfl
  · intro lines hmem
    obtain ⟨piece, hcovers, -⟩ := exists_covers_of_mem hmem
    cases hcovers with
    | text hne hlines =>
      refine ⟨by simpa using hne, fun line hline => ?_⟩
      obtain ⟨written, hwritten, rfl⟩ := List.mem_map.1 hline
      have hon := hlines written hwritten
      exact ⟨by simpa using ne_nil_of_isFurther hon, by simpa using tagLine?_of_isFurther hon⟩

/-- The last line holds the delimiter as well. -/
example : blocks "/**\n * Sums up.\n *\n * @return int the sum,\n *   never below zero */"
    = [.text ["Sums up."], .tag "return" ["int the sum,", "never below zero"]] := by
  decide +kernel

end DocBlock

end PhpHandbook
