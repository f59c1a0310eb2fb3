import Mathlib.Data.List.TakeWhile
import PhpHandbook.DocBlock.Tag
import PhpHandbook.Proofs.TypePrinting

/-!
# Where a type ends

A type in a tag ends where no reader goes on, and what is left is the description.  The readers
differ in what they look for there: a union goes on at a `|`, an intersection at an `&`, a single
operand at either, and a type with `?` in front at neither.  So a description may begin with a
joiner, but only behind types that did not look for it.

## Main definitions

* `TypeExpr.last`: the type that stands last in the text of a type.
* `EndsBefore`: what a joiner behind a type tells about the type.
* `Behind`: what is left behind the type of a tag.

## Main statements

* `readType_cases`, `readJoined_cases`, `readConditional_cases`, `readSuffixes_cases`: how a type
  was read.
* `readType_endsBefore`: types end before what they do not look for.
* `behind_type`: the description of a tag that holds a type.
* `description_of_nullable`: a joiner that becomes description.
-/

namespace PhpHandbook.Text

/-- Nothing is left only of blank characters. -/
theorem stripBlank_eq_nil_iff {cs : List Char} :
    stripBlank cs = [] ↔ ∀ c ∈ cs, isBlank c = true := by
  rw [stripBlank, dropBlankEnd, List.reverse_eq_nil_iff, List.dropWhile_eq_nil_iff]
  refine ⟨fun h c hc => ?_, fun h c hc => ?_⟩
  · rw [← List.takeWhile_append_dropWhile (p := isBlank) (l := cs), List.mem_append] at hc
    rcases hc with hc | hc
    · exact List.mem_takeWhile_imp hc
    · exact h c (List.mem_reverse.2 hc)
  · exact h c ((List.dropWhile_suffix _).subset (List.mem_reverse.1 hc))

/-- A character at the front that is not blank stays there. -/
theorem head?_stripBlank {c : Char} (hc : isBlank c = false) (cs : List Char) :
    (stripBlank (c :: cs)).head? = some c := by
  have hfront : dropBlank (c :: cs) = c :: cs := List.dropWhile_cons_of_neg (by simp [hc])
  rw [stripBlank, hfront, dropBlankEnd, List.reverse_cons, List.dropWhile_append]
  split
  · simp [hc]
  · simp

end PhpHandbook.Text

namespace PhpHandbook.DocBlock

open Reading

/-! ### How a type was read -/

section Cases

variable {ts rest : List Lexeme} {t : TypeExpr}

/-- A conditional ends with the type behind its colon. -/
theorem readConditional_cases {subject : Subject TypeExpr}
    (h : (readConditional subject ts).Reads t rest) :
    ∃ negated target yes no us, t = .conditional subject negated target yes no ∧
      us.length < ts.length ∧ (readType us).Reads no rest := by
  rw [readConditional] at h
  obtain ⟨word, us, hus, hts, -, h⟩ | ⟨-, h⟩ := h.branches
  · obtain ⟨negated, us₁, h₁, -, h⟩ := h.steps
    obtain ⟨target, us₂, h₂, -, h⟩ := h.steps
    obtain ⟨question, us₃, h₃, -, h⟩ := h.steps
    obtain ⟨yes, us₄, h₄, -, h⟩ := h.steps
    obtain ⟨colon, us₅, h₅, -, h⟩ := h.steps
    obtain ⟨no, hno, rfl⟩ := reads_map_iff.1 h
    exact ⟨negated, target, yes, no, us₅, rfl, by omega, hno⟩
  · exact absurd h (not_reads_fail _)

/-- **How what is joined to an operand was read**: the operand alone, a union or an intersection,
each with what it looked for in vain. -/
theorem readJoined_cases {first : TypeExpr} (h : (readJoined first ts).Reads t rest) :
    (t = first ∧ rest = ts ∧ ts.head?.any (isKind .pipe) = false ∧ joinsTypes ts = false) ∨
      (∃ more, t = .union (first :: more) ∧ (readUnion ts).Reads more rest) ∨
      (∃ more, t = .intersection (first :: more) ∧ (readIntersection ts).Reads more rest) := by
  rw [readJoined] at h
  split_ifs at h with hpipe hjoins
  · obtain ⟨more, hmore, rfl⟩ := reads_map_iff.1 h
    exact .inr (.inl ⟨more, rfl, hmore⟩)
  · obtain ⟨more, hmore, rfl⟩ := reads_map_iff.1 h
    exact .inr (.inr ⟨more, rfl, hmore⟩)
  · obtain ⟨rfl, rfl⟩ := reads_done_iff.1 h
    exact .inl ⟨rfl, rfl, by simpa using hpipe, by simpa using hjoins⟩

/-- **How a type was read**: as a conditional about a parameter or about an operand, behind a `?`,
or as operands that are joined. -/
theorem readType_cases (h : (readType ts).Reads t rest) :
    (∃ name us, ∃ _ : us.length < ts.length, ts = name :: us ∧
      startsParameterConditional ts = true ∧
        (readConditional (.parameter name.text) us).Reads t rest) ∨
      (∃ question us inner, ∃ _ : us.length < ts.length, ts = question :: us ∧
        isKind .question question = true ∧ t = .nullable inner ∧
          (readOperand us).Reads inner rest) ∨
      (∃ first us, ∃ _ : us.length ≤ ts.length, (readOperand ts).Reads first us ∧
        us.head?.any (Lexeme.isWord "is") = true ∧
          (readConditional (.type first) us).Reads t rest) ∨
      (∃ first us, ∃ _ : us.length ≤ ts.length, (readOperand ts).Reads first us ∧
        (readJoined first us).Reads t rest) := by
  rw [readType] at h
  split_ifs at h with hstarts
  · obtain ⟨name, us, hus, rfl, -, h⟩ | ⟨-, h⟩ := h.branches
    · exact .inl ⟨name, us, hus, rfl, hstarts, h⟩
    · exact absurd h (not_reads_fail _)
  obtain ⟨question, us, hus, rfl, hquestion, h⟩ | ⟨-, h⟩ := h.branches
  · obtain ⟨inner, hinner, rfl⟩ := reads_map_iff.1 h
    exact .inr (.inl ⟨question, us, inner, hus, rfl, hquestion, rfl, hinner⟩)
  obtain ⟨first, us, hus, hfirst, h⟩ := h.steps
  simp only at h
  split at h
  · next conditional hattempt =>
    have hkept := (Option.filter_eq_some_iff.1 hattempt).1
    split_ifs at hkept with hword
    obtain rfl := Option.some.inj hkept
    exact .inr (.inr (.inl ⟨first, us, hus, hfirst, hword, h⟩))
  · exact .inr (.inr (.inr ⟨first, us, hus, hfirst, h⟩))

/-- A type that is not a conditional was read behind a `?` or as operands that are joined. -/
theorem readType_plain_cases (h : (readType ts).Reads t rest)
    (ht : ∀ subject negated target yes no, t ≠ .conditional subject negated target yes no) :
    (∃ question us inner, ts = question :: us ∧ isKind .question question = true ∧
        t = .nullable inner ∧ (readOperand us).Reads inner rest) ∨
      (∃ first us, (readOperand ts).Reads first us ∧ (readJoined first us).Reads t rest) := by
  obtain ⟨_, _, -, -, -, h⟩ | ⟨question, us, inner, -, hnullable⟩ | ⟨_, _, -, -, -, h⟩ |
    ⟨first, us, -, hjoined⟩ := readType_cases h
  · obtain ⟨_, _, _, _, _, hconditional, -⟩ := readConditional_cases h
    exact absurd hconditional (ht _ _ _ _ _)
  · exact .inl ⟨question, us, inner, hnullable⟩
  · obtain ⟨_, _, _, _, _, hconditional, -⟩ := readConditional_cases h
    exact absurd hconditional (ht _ _ _ _ _)
  · exact .inr ⟨first, us, hjoined⟩

/-- **What the suffixes** of a type stand behind. -/
def TypeExpr.base : TypeExpr → TypeExpr
  | .array inner => inner.base
  | .offset base _ => base.base
  | t => t

/-- Suffixes make an array or offset type of what they stand behind, if there are any, and all of
them are read. -/
theorem readSuffixes_cases {type : TypeExpr} (h : (readSuffixes type ts).Reads t rest) :
    rest.head?.any (isTight .squareOpen) = false ∧ t.base = type.base ∧
      (t = type ∧ rest = ts ∨ t.suffixed ≠ [] ∧
        ts.head?.any (isTight .squareOpen) = true) := by
  induction hlength : ts.length using Nat.strong_induction_on generalizing ts type with
  | _ n ih =>
    rw [readSuffixes] at h
    obtain ⟨bracket, us, -, rfl, hbracket, h⟩ | ⟨hno, h⟩ := h.branches
    · rw [List.length_cons] at hlength
      obtain ⟨bracket', vs, hvs, -, -, h⟩ | ⟨-, h⟩ := h.branches
      · obtain ⟨hrest, hbase, ⟨rfl, -⟩ | ⟨hsuffixed, -⟩⟩ := ih _ (by omega) h rfl
        · exact ⟨hrest, hbase, .inr ⟨by simp, hbracket⟩⟩
        · exact ⟨hrest, hbase, .inr ⟨hsuffixed, hbracket⟩⟩
      · obtain ⟨key, vs, hvs, -, h⟩ := h.steps
        obtain ⟨bracket', ws, hws, -, h⟩ := h.steps
        obtain ⟨hrest, hbase, ⟨rfl, -⟩ | ⟨hsuffixed, -⟩⟩ := ih _ (by omega) h rfl
        · exact ⟨hrest, hbase, .inr ⟨by simp, hbracket⟩⟩
        · exact ⟨hrest, hbase, .inr ⟨hsuffixed, hbracket⟩⟩
    · obtain ⟨rfl, rfl⟩ := reads_done_iff.1 h
      exact ⟨hno, rfl, .inl ⟨rfl, rfl⟩⟩

end Cases

/-! ### Types and what stands behind them -/

/-- Whether the type is a union. -/
@[simp]
def TypeExpr.isUnion : TypeExpr → Bool
  | .union _ => true
  | _ => false

/-- Whether the type is an intersection. -/
@[simp]
def TypeExpr.isIntersection : TypeExpr → Bool
  | .intersection _ => true
  | _ => false

/-- **The type that stands last** in the text of a type: that of the last branch of a
conditional. -/
def TypeExpr.last : TypeExpr → TypeExpr
  | .conditional _ _ _ _ no => no.last
  | t => t

/-- What a joiner **behind a type** tells about the type. -/
structure EndsBefore (type : TypeExpr) (rest : List Lexeme) : Prop where
  /-- Only types with `?` in front and intersections do not go on at a `|`. -/
  pipe : rest.head?.any (isKind .pipe) = true →
    type.last.isNullable = true ∨ type.last.isIntersection = true
  /-- Only types with `?` in front and unions do not go on at an `&`. -/
  ampersand : joinsTypes rest = true → type.last.isNullable = true ∨ type.last.isUnion = true

section Ends

variable {ts rest : List Lexeme} {t : TypeExpr}

/-- A union takes all members that are joined by `|`. -/
theorem readUnion_endsBefore {more : List TypeExpr} (h : (readUnion ts).Reads more rest) :
    rest.head?.any (isKind .pipe) = false := by
  induction hlength : ts.length using Nat.strong_induction_on generalizing ts more with
  | _ n ih =>
    rw [readUnion] at h
    obtain ⟨bar, us, hus, -, -, h⟩ | ⟨hno, h⟩ := h.branches
    · obtain ⟨member, vs, hvs, -, h⟩ := h.steps
      obtain ⟨more, hmore, -⟩ := reads_map_iff.1 h
      exact ih _ (by omega) hmore rfl
    · obtain ⟨-, rfl⟩ := reads_done_iff.1 h
      exact hno

/-- An intersection takes all members that are joined by `&`. -/
theorem readIntersection_endsBefore {more : List TypeExpr}
    (h : (readIntersection ts).Reads more rest) :
    joinsTypes rest = false := by
  induction hlength : ts.length using Nat.strong_induction_on generalizing ts more with
  | _ n ih =>
    rw [readIntersection] at h
    split_ifs at h with hjoins
    · obtain ⟨mark, us, hus, -, -, h⟩ | ⟨hno, h⟩ := h.branches
      · obtain ⟨member, vs, hvs, -, h⟩ := h.steps
        obtain ⟨more, hmore, -⟩ := reads_map_iff.1 h
        exact ih _ (by omega) hmore rfl
      · rw [head?_of_joinsTypes hjoins] at hno
        cases hno
    · obtain ⟨-, rfl⟩ := reads_done_iff.1 h
      simpa using hjoins

theorem readJoined_endsBefore {first : TypeExpr} (h : (readJoined first ts).Reads t rest) :
    EndsBefore t rest := by
  obtain ⟨-, rfl, hpipe, hjoins⟩ | ⟨more, rfl, hmore⟩ | ⟨more, rfl, hmore⟩ :=
    readJoined_cases h
  · constructor
    · simp [hpipe]
    · simp [hjoins]
  · exact ⟨by simp [readUnion_endsBefore hmore], fun _ => .inr rfl⟩
  · exact ⟨fun _ => .inr rfl, by simp [readIntersection_endsBefore hmore]⟩

/-- **Types end before what they do not look for**: what is left behind a type begins with a joiner
only if the type is one that does not look for it. -/
theorem readType_endsBefore (h : (readType ts).Reads t rest) : EndsBefore t rest := by
  induction hlength : ts.length using Nat.strong_induction_on generalizing ts t with
  | _ n ih =>
    have hlast {subject : Subject TypeExpr} {us : List Lexeme} (hus : us.length ≤ ts.length)
        (h : (readConditional subject us).Reads t rest) : EndsBefore t rest := by
      obtain ⟨negated, target, yes, no, vs, rfl, hvs, hno⟩ := readConditional_cases h
      obtain ⟨hpipe, hampersand⟩ := ih _ (by omega) hno rfl
      exact ⟨hpipe, hampersand⟩
    obtain ⟨name, us, hus, -, -, h⟩ | ⟨question, us, inner, -, rfl, -, rfl, -⟩ |
      ⟨first, us, hus, -, -, h⟩ |
      ⟨first, us, -, -, h⟩ := readType_cases h
    · exact hlast (Nat.le_of_lt hus) h
    · exact ⟨fun _ => .inl rfl, fun _ => .inl rfl⟩
    · exact hlast hus h
    · exact readJoined_endsBefore h

end Ends

/-! ### Text that is not read -/

/-- **Lexemes of a text** are munched from it. -/
theorem exists_munch_of_mem_lexemesFrom {before text : List Char} {l : Lexeme}
    (hl : l ∈ lexemesFrom before text) :
    ∃ c cs n, isGap c = false ∧ munch c cs = (l.kind, n) ∧ l.chars = c :: cs.take n ∧
      c ∈ text := by
  induction before, text using lexemesFrom.induct with
  | case1 before => simp [lexemesFrom] at hl
  | case2 before c cs hc ih =>
    rw [lexemesFrom, if_pos hc] at hl
    obtain ⟨d, ds, n, hd, hmunch, hchars, hmem⟩ := ih hl
    exact ⟨d, ds, n, hd, hmunch, hchars, List.mem_cons_of_mem c hmem⟩
  | case3 before c cs hc kind n hmunch ih =>
    rw [lexemesFrom, if_neg hc, hmunch] at hl
    rcases List.mem_cons.1 hl with rfl | hl
    · exact ⟨c, cs, n, by simpa using hc, hmunch, rfl, List.mem_cons_self⟩
    · obtain ⟨d, ds, m, hd, hmunch', hchars, hmem⟩ := ih hl
      exact ⟨d, ds, m, hd, hmunch', hchars, List.mem_cons_of_mem c (List.mem_of_mem_drop hmem)⟩

/-- A text with **blanks of other kinds** than those between lexemes. -/
def HasOtherBlank (text : List Char) : Prop :=
  ∃ c ∈ text, Text.isBlank c = true ∧ isGap c = false

/-- A description begins with the first lexeme that is left, unless that begins with a blank. -/
theorem chars_of_head?_unread {text : List Char} {rest : List Lexeme}
    (hrest : rest <:+ lexemes text) {c : Char} (hc : (unread rest).toList.head? = some c) :
    HasOtherBlank text ∨ ∃ l ls cs, rest = l :: ls ∧ l.kind = (munch c cs).1 := by
  cases rest with
  | nil => simp [unread] at hc
  | cons l ls =>
    obtain ⟨d, cs, n, hgap, hmunch, hchars, hmem⟩ :=
      exists_munch_of_mem_lexemesFrom (hrest.mem List.mem_cons_self)
    by_cases hblank : Text.isBlank d = true
    · exact .inl ⟨d, hmem, hblank, hgap⟩
    · have hfront := Text.head?_stripBlank (by simpa using hblank)
        (cs.take n ++ ls.flatMap fun u => u.gap ++ u.chars)
      rw [unread, hchars, Text.trim, String.toList_ofList, String.toList_ofList, List.cons_append,
        hfront] at hc
      obtain rfl := Option.some.inj hc
      exact .inr ⟨l, ls, cs, rfl, by rw [hmunch]⟩

/-- What is left **behind the type** of a tag, and the description that it becomes. -/
structure Behind (body : String) (type : TypeExpr) (description : String) (rest : List Lexeme) :
    Prop where
  reads : (readType (lexemes body.toList)).Reads type rest
  text : description = unread rest
  ends : EndsBefore type rest
  /-- A `|` at the front of the description is a joiner behind the type. -/
  pipe : description.toList.head? = some '|' →
    rest.head?.any (isKind .pipe) = true ∨ HasOtherBlank body.toList
  /-- And so is an `&`. -/
  ampersand : description.toList.head? = some '&' →
    rest.head?.any (isKind .ampersand) = true ∨ HasOtherBlank body.toList

theorem behind_of_reads {body : String} {type : TypeExpr} {rest : List Lexeme}
    (h : (readType (lexemes body.toList)).Reads type rest) :
    Behind body type (unread rest) rest := by
  have hsuffix : rest <:+ lexemes body.toList := by
    rw [← h.2]
    exact (readType _).suffix
  refine ⟨h, rfl, readType_endsBefore h, fun hfront => ?_, fun hfront => ?_⟩
  all_goals
    obtain hblank | ⟨l, ls, cs, rfl, hkind⟩ := chars_of_head?_unread hsuffix hfront
    · exact .inr hblank
    · refine .inl ?_
      rw [List.head?_cons, Option.any_some, isKind, hkind]
      rfl

/-! ### Tags -/

/-- The type of a return, a throws or a var tag **and the description behind it**, if no variable
stands between them. -/
def TagValue.described? : TagValue → Option (TypeExpr × String)
  | .returning tag | .throwing tag => some (tag.type, tag.description)
  | .var ⟨type, none, description⟩ => some (type, description)
  | _ => none

section Tags

variable {name body description : String} {type : TypeExpr} {ts : List Lexeme}

theorem exists_of_map_eq_ok {ε α β : Type} {f : α → β} {x : Except ε α} {b : β}
    (h : x.map f = .ok b) :
    ∃ a, x = .ok a ∧ f a = b := by
  cases x with
  | error e => cases h
  | ok a => exact ⟨a, rfl, Except.ok.inj h⟩

theorem reads_of_readTyped {tag : TypeTag} (h : (readTyped ts).outcome = .ok tag) :
    ∃ rest, (readType ts).Reads tag.type rest ∧ tag.description = unread rest := by
  obtain ⟨type, rest, -, htype, htag⟩ := Reading.Reads.steps ⟨h, rfl⟩
  obtain ⟨rfl, -⟩ := reads_done_iff.1 htag
  exact ⟨rest, htype, rfl⟩

/-- Without a variable all that is left behind the type is description. -/
theorem reads_of_readVar {tag : VarTag} (h : (readVar ts).outcome = .ok tag)
    (hname : tag.variableName = none) :
    ∃ rest, (readType ts).Reads tag.type rest ∧ tag.description = unread rest := by
  obtain ⟨type, us, -, htype, h⟩ := Reads.steps ⟨h, rfl⟩
  obtain ⟨name, rest, -, hvariable, htag⟩ := h.steps
  obtain ⟨rfl, -⟩ := reads_done_iff.1 htag
  obtain ⟨taken, htaken, rfl⟩ := reads_map_iff.1 hvariable
  obtain rfl : us = rest := by
    obtain ⟨t, vs, -, -, -, ht⟩ | ⟨-, hnone⟩ := htaken.branches
    · obtain ⟨rfl, -⟩ := reads_done_iff.1 ht
      cases hname
    · exact (reads_done_iff.1 hnone).2
  exact ⟨us, htype, rfl⟩

theorem reads_of_described? {value : TagValue} (h : readValue name body = .ok value)
    (hvalue : value.described? = some (type, description)) :
    ∃ rest, (readType (lexemes body.toList)).Reads type rest ∧ description = unread rest := by
  unfold readValue at h
  simp only at h
  split at h
  case h_12 | h_14 =>
    obtain ⟨tag, htag, rfl⟩ := exists_of_map_eq_ok h
    obtain ⟨rfl, rfl⟩ := Prod.mk.inj (Option.some.inj hvalue)
    exact reads_of_readTyped htag
  case h_13 =>
    obtain ⟨tag, htag, rfl⟩ := exists_of_map_eq_ok h
    obtain ⟨type', variableName, description'⟩ := tag
    cases variableName with
    | some variable' => cases hvalue
    | none =>
      obtain ⟨rfl, rfl⟩ := Prod.mk.inj (Option.some.inj hvalue)
      exact reads_of_readVar htag rfl
  -- the other tags hold no type, or one that something else follows
  case h_15 | h_19 =>
    obtain rfl := Except.ok.inj h
    cases hvalue
  all_goals
    obtain ⟨tag, htag, rfl⟩ := exists_of_map_eq_ok h
    cases hvalue

/-- **What the description of a tag begins with**: it is what is left behind the type.  If that
begins with a joiner, the type is one that does not look for it: what stands last in it is written
with `?`, is an intersection in front of `|`, or a union in front of `&`. -/
theorem behind_type (name body : String) (type : TypeExpr) (description : String)
    (h : (Tag.ofBody name body).value.described? = some (type, description)) :
    ∃ rest, Behind body type description rest := by
  unfold Tag.ofBody at h
  split at h
  · next value hvalue =>
    obtain ⟨rest, hreads, rfl⟩ := reads_of_described? hvalue h
    exact ⟨rest, behind_of_reads hreads⟩
  · cases h

theorem behind_type_union :
    (Tag.ofBody "psalm-return" "A|B&C rest").value.described?
        = some (.union [.identifier "A", .identifier "B"], "&C rest") ∧
      ∃ rest, Behind "A|B&C rest" (.union [.identifier "A", .identifier "B"]) "&C rest" rest := by
  have hdescribed : (Tag.ofBody "psalm-return" "A|B&C rest").value.described?
      = some (.union [.identifier "A", .identifier "B"], "&C rest") := by
    with_unfolding_all rfl
  exact ⟨hdescribed, behind_type _ _ _ _ hdescribed⟩

/-- **A joiner that becomes description**: behind `?int` no member of a union is read. -/
theorem description_of_nullable :
    (Tag.ofBody "return" "?int|string").value.described?
        = some (.nullable (.identifier "int"), "|string") ∧
      "|string".toList.head? = some '|' :=
  ⟨by with_unfolding_all rfl, by decide⟩

end Tags

end PhpHandbook.DocBlock
