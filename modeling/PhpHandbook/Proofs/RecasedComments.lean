import Mathlib
import PhpHandbook.Proofs.CommentBlocks

/-!
# Comments with tag names in other letters

A comment in other letters is one where capital and small letters are changed in the names of its
tags and nowhere else.  Which characters that are is a matter of the lines as they are written: the
name stands behind the first at sign of a line, in front of it are delimiters and blanks alone, and
the end of the line may hold a delimiter again.

Cleaning a line is cleaning what stands in front of a character and what stands behind it, for every
character that no step of the cleaning drops.  The sign of a tag and the characters of its name are
of this kind, so a name in other letters stays in its place, and the blocks of the comment are the
same but for the letters.  It goes the other way as well: in whatever letters the names of the
blocks are wanted, a comment has them.

## Main definitions

* `SameLetters`: names that differ in capital and small letters at most.
* `Recased`: a comment with the names of its tags in other letters.
* `Block.Recased`: a block with its name in other letters.

## Main statements

* `cleanLine_append_cons`: cleaning a line around a character that stays.
* `Recased.blocks`: a comment in other letters has the blocks in other letters.
* `exists_recased_comment`: blocks in other letters are those of a comment in other letters.
-/

namespace PhpHandbook

namespace DocBlock

/-! ### Names in other letters -/

/-- Two names that differ in capital and small letters at most. -/
def SameLetters (name name' : List Char) : Prop :=
  name'.map Char.toLower = name.map Char.toLower

theorem isTagStart_toLower (c : Char) : isTagStart c.toLower = isTagStart c := by
  rw [isTagStart, isTagStart, Char.isAlpha_toLower_eq_isAlpha]
  by_cases hupper : c.isUpper = true
  · simp [Char.isAlpha, hupper]
  · rw [Char.toLower_eq_of_not_isUpper hupper]

theorem isTagPart_toLower (c : Char) : isTagPart c.toLower = isTagPart c := by
  by_cases hupper : c.isUpper = true
  · rw [isTagPart, isTagPart, isTagStart_toLower]
    simp [isTagStart, Char.isAlpha, hupper]
  · rw [Char.toLower_eq_of_not_isUpper hupper]

theorem isTagName_map_toLower {name : List Char} : IsTagName (name.map Char.toLower) ↔
    IsTagName name := by
  cases name with
  | nil => rfl
  | cons c cs =>
    rw [List.map_cons, IsTagName, IsTagName, isTagStart_toLower, List.forall_mem_map]
    simp only [isTagPart_toLower]

theorem SameLetters.isTagName {name name' : List Char} (h : SameLetters name name')
    (hname : IsTagName name) :
    IsTagName name' := by
  rwa [← isTagName_map_toLower, h, isTagName_map_toLower]

theorem IsTagName.forall_isTagPart {name : List Char} (h : IsTagName name) :
    ∀ c ∈ name, isTagPart c = true := by
  cases name with
  | nil => exact List.forall_mem_nil _
  | cons c cs => exact List.forall_mem_cons.2 ⟨by simp [isTagPart, h.1], h.2⟩

/-- The first line of a tag is one also in other letters. -/
theorem SameLetters.tagLine? {line name name' rest : List Char} (h : SameLetters name name')
    (hline : tagLine? line = some (name, rest)) :
    DocBlock.tagLine? ('@' :: (name' ++ rest)) = some (name', rest) := by
  obtain ⟨-, hname, hrest⟩ := tagLine?_eq_some_iff.1 hline
  exact tagLine?_eq_some_iff.2 ⟨rfl, h.isTagName hname, hrest⟩

/-! ### Cleaning a line around a character that stays -/

/-- Characters that cleaning a line never drops: they are not blank and in no delimiter. -/
def isSolid (c : Char) : Bool :=
  !Text.isBlank c && c != '*' && c != '/'

theorem isSolid_at : isSolid '@' = true := by decide +kernel

theorem isSolid_of_isTagPart {c : Char} (h : isTagPart c = true) : isSolid c = true := by
  have hascii : ∀ n < 0x80, isTagPart (Char.ofNat n) = true →
      isSolid (Char.ofNat n) = true := by
    decide +kernel
  have hlow : c.toNat < 0x80 := by
    simp only [isTagPart, isTagStart, Char.isAlpha, Char.isUpper, Char.isLower, Char.isDigit,
      Bool.or_eq_true, Bool.and_eq_true, decide_eq_true_eq, beq_iff_eq, ge_iff_le,
      UInt32.le_iff_toNat_le] at h
    rcases h with (((((⟨-, h⟩ | ⟨-, h⟩) | rfl) | ⟨-, h⟩) | rfl) | rfl) | rfl
    · exact lt_of_le_of_lt h (by decide)
    · exact lt_of_le_of_lt h (by decide)
    · decide
    · exact lt_of_le_of_lt h (by decide)
    · decide
    · decide
    · decide
  have hc := hascii c.toNat hlow
  rw [Char.ofNat_toNat] at hc
  exact hc h

section Around

variable {d : Char} (front tail : List Char)

theorem dropWhile_append_cons {p : Char → Bool} (hd : p d = false) :
    (front ++ d :: tail).dropWhile p = front.dropWhile p ++ d :: tail := by
  rw [List.dropWhile_append, List.dropWhile_cons_of_neg (by simp [hd])]
  split_ifs with hempty
  · rw [List.isEmpty_iff.1 hempty, List.nil_append]
  · rfl

theorem isPrefixOf_append_cons {fixed : List Char} (hd : d ∉ fixed) :
    fixed.isPrefixOf (front ++ d :: tail) = fixed.isPrefixOf front := by
  induction fixed generalizing front with
  | nil => simp
  | cons c cs ih =>
    rw [List.mem_cons, not_or] at hd
    cases front with
    | nil => simp [List.isPrefixOf, Ne.symm hd.1]
    | cons e front => simp [List.isPrefixOf, ih front hd.2]

theorem dropFront_append_cons {fixed : List Char} (hd : d ∉ fixed) :
    dropFront fixed (front ++ d :: tail) = dropFront fixed front ++ d :: tail := by
  rw [dropFront, dropFront, isPrefixOf_append_cons front tail hd]
  split_ifs with hfixed
  · have hlength := (List.isPrefixOf_iff_prefix.1 hfixed).length_le
    rw [List.drop_append_of_le_length hlength]
  · rfl

theorem dropBack_append_cons {fixed : List Char} (hd : d ∉ fixed) :
    dropBack fixed (front ++ d :: tail) = front ++ d :: dropBack fixed tail := by
  have hsuffix : fixed.isSuffixOf (front ++ d :: tail) = fixed.isSuffixOf tail := by
    rw [List.isSuffixOf, List.isSuffixOf, List.reverse_append, List.reverse_cons, List.append_assoc,
      List.singleton_append]
    exact isPrefixOf_append_cons _ _ (by simpa using hd)
  rw [dropBack, dropBack, hsuffix]
  split_ifs with hfixed
  · have hlength := (List.isSuffixOf_iff_suffix.1 hfixed).length_le
    have htake : (front ++ d :: tail).length - fixed.length
        = front.length + ((tail.length - fixed.length) + 1) := by
      simp only [List.length_append, List.length_cons]
      omega
    rw [htake, List.take_length_add_append, List.take_succ_cons]
  · rfl

theorem dropBlankEnd_append_cons (hd : Text.isBlank d = false) :
    Text.dropBlankEnd (front ++ d :: tail) = front ++ d :: Text.dropBlankEnd tail := by
  rw [Text.dropBlankEnd, Text.dropBlankEnd, List.reverse_append, List.reverse_cons,
    List.append_assoc, List.singleton_append, dropWhile_append_cons _ _ hd]
  simp

/-- What cleaning a line makes of what stands in front of a solid character. -/
def cleanFront (cs : List Char) : List Char :=
  Text.dropBlank (dropFront ['*'] (Text.dropBlank (dropFront ['/', '*', '*'] (Text.dropBlank cs))))

/-- What cleaning a line makes of what stands behind a solid character. -/
def cleanBack (cs : List Char) : List Char :=
  Text.dropBlankEnd (dropBack ['*', '/'] (Text.dropBlankEnd cs))

/-- **Cleaning a line around a solid character** cleans both sides on their own. -/
theorem cleanLine_append_cons (hd : isSolid d = true) :
    cleanLine (front ++ d :: tail) = cleanFront front ++ d :: cleanBack tail := by
  simp only [isSolid, Bool.and_eq_true, Bool.not_eq_true', bne_iff_ne] at hd
  obtain ⟨⟨hblank, hstar⟩, hslash⟩ := hd
  simp only [cleanLine, cleanFront, cleanBack, Text.stripBlank, Text.dropBlank,
    dropWhile_append_cons _ _ hblank, dropBlankEnd_append_cons _ _ hblank,
    dropFront_append_cons _ _ (show d ∉ ['/', '*', '*'] by simp [hstar, hslash]),
    dropFront_append_cons _ _ (show d ∉ ['*'] by simp [hstar]),
    dropBack_append_cons _ _ (show d ∉ ['*', '/'] by simp [hstar, hslash])]

theorem cleanBack_append_cons (hd : isSolid d = true) :
    cleanBack (front ++ d :: tail) = front ++ d :: cleanBack tail := by
  simp only [isSolid, Bool.and_eq_true, Bool.not_eq_true', bne_iff_ne] at hd
  obtain ⟨⟨hblank, hstar⟩, hslash⟩ := hd
  rw [cleanBack, dropBlankEnd_append_cons _ _ hblank,
    dropBack_append_cons _ _ (by simp [hstar, hslash]),
    dropBlankEnd_append_cons _ _ hblank, cleanBack]

end Around

/-- The name of a tag stays whole. -/
theorem cleanBack_name {name : List Char} (hname : IsTagName name) (back : List Char) :
    cleanBack (name ++ back) = name ++ cleanBack back := by
  obtain rfl | ⟨init, last, rfl⟩ := List.eq_nil_or_concat' name
  · rfl
  · have hlast := isSolid_of_isTagPart (hname.forall_isTagPart last (by simp))
    rw [List.append_assoc, List.append_assoc]
    exact cleanBack_append_cons init back hlast

/-! ### A comment in other letters -/

/-- **A line with the name of its tag in other letters.**  The name stands behind the first at sign
of the line. -/
inductive RecasedLine : List Char → List Char → Prop
  | same (line : List Char) : RecasedLine line line
  | tag {front name name' back rest : List Char} (hfront : '@' ∉ front)
    (hline : tagLine? (cleanLine (front ++ '@' :: (name ++ back))) = some (name, rest))
    (hletters : SameLetters name name') :
    RecasedLine (front ++ '@' :: (name ++ back)) (front ++ '@' :: (name' ++ back))

/-- **A comment with the names of its tags in other letters.** -/
def Recased (comment comment' : String) : Prop :=
  List.Forall₂ RecasedLine (Text.splitChars '\n' comment.toList)
    (Text.splitChars '\n' comment'.toList)

/-- A cleaned line with the name of its tag in other letters. -/
inductive RecasedCleaned : List Char → List Char → Prop
  | same (line : List Char) : RecasedCleaned line line
  | tag {line name name' rest : List Char} (hline : tagLine? line = some (name, rest))
    (hletters : SameLetters name name') : RecasedCleaned line ('@' :: (name' ++ rest))

theorem cleanFront_subset (cs : List Char) : cleanFront cs ⊆ cs := by
  unfold cleanFront
  intro c hc
  have hstar := dropFront_subset _ _ (Text.dropBlank_subset _ hc)
  have hdelimiter := dropFront_subset _ _ (Text.dropBlank_subset _ hstar)
  exact Text.dropBlank_subset _ hdelimiter

theorem cleanBack_isPrefix (cs : List Char) : cleanBack cs <+: cs := by
  have hblank (cs : List Char) : Text.dropBlankEnd cs <+: cs := by
    have hsuffix := List.reverse_prefix.2 (List.dropWhile_suffix Text.isBlank (l := cs.reverse))
    rwa [List.reverse_reverse] at hsuffix
  exact (hblank _).trans ((dropBack_isPrefix _ _).trans (hblank cs))

/-- **The sides of a tag**: nothing is left of what stands in front of its sign. -/
theorem sides_of_cleanLine {front tail cs : List Char} (hfront : '@' ∉ front)
    (h : cleanLine (front ++ '@' :: tail) = '@' :: cs) :
    cleanFront front = [] ∧ cleanBack tail = cs := by
  rw [cleanLine_append_cons _ _ isSolid_at] at h
  cases hleft : cleanFront front with
  | nil =>
    rw [hleft, List.nil_append, List.cons.injEq] at h
    exact ⟨rfl, h.2⟩
  | cons c more =>
    rw [hleft, List.cons_append, List.cons.injEq] at h
    have hmem : c ∈ front := cleanFront_subset front (by rw [hleft]; exact List.mem_cons_self)
    exact absurd (h.1 ▸ hmem) hfront

theorem cleanLine_of_sides {front name back : List Char} (hname : IsTagName name)
    (hfront : cleanFront front = []) :
    cleanLine (front ++ '@' :: (name ++ back)) = '@' :: (name ++ cleanBack back) := by
  rw [cleanLine_append_cons _ _ isSolid_at, cleanBack_name hname, hfront, List.nil_append]

theorem RecasedLine.cleaned {line line' : List Char} (h : RecasedLine line line') :
    RecasedCleaned (cleanLine line) (cleanLine line') := by
  cases h with
  | same => exact .same _
  | @tag front name name' back rest hfront hline hletters =>
    obtain ⟨hcleaned, hname, -⟩ := tagLine?_eq_some_iff.1 hline
    obtain ⟨hleft, hright⟩ := sides_of_cleanLine hfront hcleaned
    rw [cleanBack_name hname, List.append_cancel_left_eq] at hright
    rw [cleanLine_of_sides (hletters.isTagName hname) hleft, hright]
    exact .tag hline hletters

/-- Every way to write the name of a tag in a cleaned line is one in the line. -/
theorem exists_recasedLine {line cleaned' : List Char}
    (h : RecasedCleaned (cleanLine line) cleaned') :
    ∃ line', RecasedLine line line' ∧ cleanLine line' = cleaned' := by
  generalize hcleaned : cleanLine line = cleaned at h
  cases h with
  | same => exact ⟨line, .same _, hcleaned⟩
  | @tag name name' rest hline hletters =>
    rw [← hcleaned] at hline
    obtain ⟨htag, hname, -⟩ := tagLine?_eq_some_iff.1 hline
    have hmem : '@' ∈ line := cleanLine_subset line (by rw [htag]; exact List.mem_cons_self)
    obtain ⟨front, tail, rfl, hfront⟩ := List.eq_append_cons_of_mem hmem
    obtain ⟨hleft, hright⟩ := sides_of_cleanLine hfront htag
    -- the line goes on with the name, since only its end is cleaned away
    obtain ⟨dropped, htail⟩ := hright ▸ cleanBack_isPrefix tail
    rw [List.append_assoc] at htail
    subst htail
    rw [cleanBack_name hname, List.append_cancel_left_eq] at hright
    exact ⟨_, .tag hfront hline hletters,
      by rw [cleanLine_of_sides (hletters.isTagName hname) hleft, hright]⟩

/-! ### Blocks in other letters -/

/-- A block with its name in other letters. -/
inductive Block.Recased : Block → Block → Prop
  | text (lines : List String) : Recased (.text lines) (.text lines)
  | tag {name name' : String} (body : List String)
    (hletters : SameLetters name.toList name'.toList) :
    Recased (.tag name body) (.tag name' body)

/-- The block that is being read with its name in other letters. -/
inductive Open.Recased : Open → Open → Prop
  | nothing : Recased .nothing .nothing
  | text (lines : List String) : Recased (.text lines) (.text lines)
  | tag {name name' : String} (body : List String)
    (hletters : SameLetters name.toList name'.toList) :
    Recased (.tag name body) (.tag name' body)

section Blocks

variable {current current' : Open}

theorem Open.Recased.close (h : current.Recased current') :
    List.Forall₂ Block.Recased current.close current'.close := by
  cases h with
  | nothing => exact .nil
  | text lines => exact .cons (.text _) .nil
  | tag body hletters => exact .cons (.tag _ hletters) .nil

theorem Open.Recased.goOn (h : current.Recased current') (line : List Char) :
    (current.goOn line).Recased (current'.goOn line) := by
  cases h with
  | nothing => exact .text _
  | text lines => exact .text _
  | tag body hletters => exact .tag _ hletters

theorem Open.recased_ofHeader {name name' : List Char} (h : SameLetters name name')
    (rest : List Char) :
    (Open.ofHeader name rest).Recased (Open.ofHeader name' rest) :=
  .tag _ (by rwa [String.toList_ofList, String.toList_ofList])

/-- **Lines in other letters** give blocks in other letters. -/
theorem recased_blocksFrom {lines lines' : List (List Char)}
    (hlines : List.Forall₂ RecasedCleaned lines lines') (h : current.Recased current') :
    List.Forall₂ Block.Recased (blocksFrom current lines) (blocksFrom current' lines') := by
  induction hlines generalizing current current' with
  | nil => exact h.close
  | @cons line line' lines lines' hline _ ih =>
    cases hline with
    | same =>
      obtain rfl | ⟨name, rest, htag⟩ | hmore := line_cases line
      · rw [blocksFrom_blank, blocksFrom_blank]
        exact List.rel_append h.close (ih .nothing)
      · rw [blocksFrom_header htag, blocksFrom_header htag]
        exact List.rel_append h.close (ih (Open.recased_ofHeader rfl rest))
      · rw [blocksFrom_further hmore, blocksFrom_further hmore]
        exact ih (h.goOn line)
    | tag htag hletters =>
      rw [blocksFrom_header htag, blocksFrom_header (hletters.tagLine? htag)]
      exact List.rel_append h.close (ih (Open.recased_ofHeader hletters _))

theorem exists_recased_of_close {blocks' : List Block}
    (h : List.Forall₂ Block.Recased current.close blocks') :
    ∃ current', current.Recased current' ∧ current'.close = blocks' := by
  cases current with
  | nothing =>
    cases h
    exact ⟨.nothing, .nothing, rfl⟩
  | text lines =>
    cases h with
    | cons hblock hmore =>
      cases hblock
      cases hmore
      exact ⟨.text lines, .text lines, rfl⟩
  | tag name body =>
    cases h with
    | cons hblock hmore =>
      cases hblock with
      | @tag _ name' _ hletters =>
        cases hmore
        exact ⟨.tag name' body, .tag body hletters, rfl⟩

theorem exists_recased_of_goOn {line : List Char} (h : (current.goOn line).Recased current') :
    ∃ before, current.Recased before ∧ before.goOn line = current' := by
  cases current with
  | nothing =>
    cases h
    exact ⟨.nothing, .nothing, rfl⟩
  | text lines =>
    cases h
    exact ⟨.text lines, .text lines, rfl⟩
  | tag name body =>
    cases h with
    | @tag _ name' _ hletters => exact ⟨.tag name' body, .tag body hletters, rfl⟩

theorem exists_recased_of_ofHeader {name rest : List Char}
    (h : (Open.ofHeader name rest).Recased current') :
    ∃ name', SameLetters name name' ∧ current' = Open.ofHeader name' rest := by
  cases h with
  | @tag _ name' _ hletters =>
    rw [String.toList_ofList] at hletters
    exact ⟨name'.toList, hletters, by rw [Open.ofHeader, String.ofList_toList]⟩

theorem exists_append_of_forall₂ {α β : Type} {R : α → β → Prop} {as₁ as₂ : List α}
    {bs : List β} (h : List.Forall₂ R (as₁ ++ as₂) bs) :
    ∃ bs₁ bs₂, List.Forall₂ R as₁ bs₁ ∧ List.Forall₂ R as₂ bs₂ ∧
      bs = bs₁ ++ bs₂ := by
  induction as₁ generalizing bs with
  | nil => exact ⟨[], bs, .nil, h, rfl⟩
  | cons a as₁ ih =>
    obtain ⟨b, more, hab, hmore, rfl⟩ := List.forall₂_cons_left_iff.1 h
    obtain ⟨bs₁, bs₂, h₁, h₂, rfl⟩ := ih hmore
    exact ⟨b :: bs₁, bs₂, .cons hab h₁, h₂, rfl⟩

/-- **Blocks in other letters** are those of lines in other letters. -/
theorem exists_recased_blocksFrom (lines : List (List Char)) {blocks' : List Block}
    (h : List.Forall₂ Block.Recased (blocksFrom current lines) blocks') :
    ∃ current' lines', current.Recased current' ∧ List.Forall₂ RecasedCleaned lines lines' ∧
      blocksFrom current' lines' = blocks' := by
  induction lines generalizing current blocks' with
  | nil =>
    obtain ⟨current', hcurrent, rfl⟩ := exists_recased_of_close h
    exact ⟨current', [], hcurrent, .nil, rfl⟩
  | cons line lines ih =>
    obtain rfl | ⟨name, rest, htag⟩ | hmore := line_cases line
    · rw [blocksFrom_blank] at h
      obtain ⟨closed, later, hclosed, hlater, rfl⟩ := exists_append_of_forall₂ h
      obtain ⟨current', hcurrent, rfl⟩ := exists_recased_of_close hclosed
      obtain ⟨_, lines', hnothing, hlines, rfl⟩ := ih hlater
      cases hnothing
      exact ⟨current', [] :: lines', hcurrent, .cons (.same []) hlines, blocksFrom_blank _⟩
    · rw [blocksFrom_header htag] at h
      obtain ⟨closed, later, hclosed, hlater, rfl⟩ := exists_append_of_forall₂ h
      obtain ⟨current', hcurrent, rfl⟩ := exists_recased_of_close hclosed
      obtain ⟨_, lines', hheader, hlines, rfl⟩ := ih hlater
      obtain ⟨name', hletters, rfl⟩ := exists_recased_of_ofHeader hheader
      exact ⟨current', _ :: lines', hcurrent, .cons (.tag htag hletters) hlines,
        blocksFrom_header (hletters.tagLine? htag) _⟩
    · rw [blocksFrom_further hmore] at h
      obtain ⟨_, lines', hcurrent, hlines, rfl⟩ := ih h
      obtain ⟨before, hbefore, rfl⟩ := exists_recased_of_goOn hcurrent
      exact ⟨before, line :: lines', hbefore, .cons (.same line) hlines,
        blocksFrom_further hmore _⟩

end Blocks

/-! ### Comments in other letters -/

theorem Recased.blocks {comment comment' : String} (h : Recased comment comment') :
    List.Forall₂ Block.Recased (DocBlock.blocks comment) (DocBlock.blocks comment') := by
  refine recased_blocksFrom
    (List.forall₂_map_left_iff.2 (List.forall₂_map_right_iff.2 ?_)) .nothing
  exact List.Forall₂.imp (fun _ _ => RecasedLine.cleaned) h

theorem exists_recasedLines {lines cleaned' : List (List Char)}
    (h : List.Forall₂ RecasedCleaned (lines.map cleanLine) cleaned') :
    ∃ lines', List.Forall₂ RecasedLine lines lines' ∧ lines'.map cleanLine = cleaned' := by
  induction lines generalizing cleaned' with
  | nil =>
    cases h
    exact ⟨[], .nil, rfl⟩
  | cons line lines ih =>
    obtain ⟨_, _, hline, hmore, rfl⟩ := List.forall₂_cons_left_iff.1 h
    obtain ⟨line', hrecased, rfl⟩ := exists_recasedLine hline
    obtain ⟨lines', hlines, rfl⟩ := ih hmore
    exact ⟨line' :: lines', .cons hrecased hlines, rfl⟩

theorem RecasedLine.not_mem {line line' : List Char} (h : RecasedLine line line')
    (hend : '\n' ∉ line) :
    '\n' ∉ line' := by
  cases h with
  | same => exact hend
  | @tag front name name' back rest hfront hline hletters =>
    have hname : '\n' ∉ name' := by
      intro hmem
      have hpart := (hletters.isTagName (tagLine?_eq_some_iff.1 hline).2.1).forall_isTagPart _ hmem
      exact absurd hpart (by decide)
    simp only [List.mem_append, List.mem_cons, not_or] at hend ⊢
    exact ⟨hend.1, hend.2.1, hname, hend.2.2.2⟩

/-- **Blocks in other letters** are those of a comment in other letters. -/
theorem exists_recased_comment {comment : String} {blocks' : List Block}
    (h : List.Forall₂ Block.Recased (blocks comment) blocks') :
    ∃ comment', Recased comment comment' ∧ blocks comment' = blocks' := by
  obtain ⟨_, cleaned', hnothing, hcleaned, rfl⟩ := exists_recased_blocksFrom _ h
  obtain ⟨lines', hlines, rfl⟩ := exists_recasedLines hcleaned
  cases hnothing
  have hends : ∀ line' ∈ lines', '\n' ∉ line' := by
    intro line' hmem
    obtain ⟨line, hline, hrecased⟩ := exists_of_mem_forall₂ hlines.flip hmem
    exact RecasedLine.not_mem hrecased (Text.not_mem_of_mem_splitChars hline)
  have hne : lines' ≠ [] := by
    rintro rfl
    rw [Text.splitChars_eq_splitOn, List.forall₂_nil_right_iff] at hlines
    exact List.splitOn_ne_nil _ _ hlines
  have hsplit :
      Text.splitChars '\n' (String.ofList (['\n'].intercalate lines')).toList = lines' := by
    rw [String.toList_ofList, Text.splitChars_eq_splitOn, List.splitOn_intercalate _ hends hne]
  exact ⟨_, by rwa [Recased, hsplit], by rw [blocks, hsplit]⟩

end DocBlock

end PhpHandbook
