import PhpHandbook.Declaration.MemberReader

/-!
# Reading classes

A class-like declaration is a header and a body.  A statement of the body that cannot be read is
reported, and reading goes on at what looks like the next statement.  The body ends at its
closing brace or with the file; until then every round leaves fewer tokens.

This is the part of the parser of sources that reads class-like declarations: `readHeader` reads up
to the opening brace, `readBody` the members, and `resumeMember` is the recovery from a fault in a
body.
-/

namespace PhpHandbook.Declaration

open Source (Span TokenKind)

/-! ### The body -/

/-- Whether the body of a class is over. -/
def atBodyEnd (ts : List Item) : Bool :=
  next (isMark .braceClose) ts || ts.isEmpty

theorem length_pos_of_not_atBodyEnd {ts : List Item} (h : ¬atBodyEnd ts = true) :
    0 < ts.length := by
  cases ts with
  | nil => simp [atBodyEnd] at h
  | cons _ _ => simp

/-- Whether an item looks like the start of a member. -/
def startsMember (i : Item) : Bool :=
  i.kind.isModifier || isKeyword .kwFunction i || isKeyword .kwConst i || isKeyword .kwCase i
    || isKeyword .kwUse i

/-- Passes over tokens up to what looks like the next member: behind a semicolon or a block, or
in front of the end of the body or of a word that starts a member. -/
def skipToMember (env : Env) : (ts : List Item) → Read Unit ts
  | [] => .done ()
  | t :: us =>
    if isMark .semicolon t then .behind t (.done ())
    else if isMark .braceClose t || startsMember t then .done ()
    else if isMark .braceOpen t then .behind t (skipToClose t.token.span 0 us).ignore
    else .behind t (skipToMember env us)

/-- Goes on after a fault in the body of a class. -/
def resumeMember (env : Env) (ts : List Item) : Read Unit ts :=
  if next (isMark .braceClose) ts then .done ()
  else Reading.onNext (fun _ => true) ts (fun _ us _ => skipToMember env us) (.done ())

theorem resumeMember_lt_or_end (env : Env) (ts : List Item) :
    (resumeMember env ts).rest.length < ts.length ∨
      atBodyEnd (resumeMember env ts).rest = true := by
  unfold resumeMember
  split
  · next h => exact .inr (by simp [Reading.done, atBodyEnd, h])
  · cases ts with
    | nil => exact .inr (by simp [Reading.onNext, Reading.done, atBodyEnd])
    | cons t us =>
      left
      have := (skipToMember env us).rest_length_le
      simp only [Reading.onNext, if_true, Reading.behind, Reading.widen, List.length_cons]
      omega

/-- Reads the body of a class: the members, and the faults of the statements that could not be
read. -/
def readBody (env : Env) (ms : Members) (ts : List Item) : Read (Members × List Fault) ts :=
  if hts : atBodyEnd ts = true then .done (ms, [])
  else
    match hm : readMember env ts with
    | ⟨.ok member, us, suffix⟩ =>
      have : us.length < ts.length := by
        have := readMember_advances env ts member
        rw [hm] at this
        exact this rfl
      (readBody env (ms.add member) us).widen suffix
    | ⟨.error fault, us, suffix⟩ =>
      have := suffix.length_le
      have := resumeMember_lt_or_end env us
      ((readBody env ms (resumeMember env us).rest).map fun (ms, faults) =>
        (ms, fault :: faults)).widen ((resumeMember env us).suffix.trans suffix)
termination_by if atBodyEnd ts then 0 else ts.length
decreasing_by
  all_goals have hpos := length_pos_of_not_atBodyEnd hts
  all_goals simp only [hts, Bool.false_eq_true, if_false]
  · split <;> omega
  · split
    · exact hpos
    · next h =>
      rcases ‹_ ∨ _› with hlt | hend
      · omega
      · exact absurd hend h

/-! ### The header -/

/-- Reads the modifiers of a class. -/
def readClassModifiers (m : ClassModifiers) : (ts : List Item) → Read ClassModifiers ts
  | [] => .done m
  | t :: us =>
    match t.kind with
    | .keyword .kwAbstract => .behind t (readClassModifiers { m with isAbstract := true } us)
    | .keyword .kwFinal => .behind t (readClassModifiers { m with isFinal := true } us)
    | .keyword .kwReadonly => .behind t (readClassModifiers { m with isReadonly := true } us)
    | _ => .done m

/-- The kind of class that a token announces. -/
def classKind? : TokenKind → Option ClassKind
  | .keyword .kwClass => some .plainClass
  | .keyword .kwInterface => some .interface
  | .keyword .kwTrait => some .trait
  | .keyword .kwEnum => some .enum
  | _ => none

/-- Reads the word that announces a class. -/
def readClassKind (env : Env) (ts : List Item) : Read ClassKind ts :=
  (Reading.expect (fun i => (classKind? i.kind).isSome)
    (env.unexpected [.keyword .kwClass, .keyword .kwInterface, .keyword .kwTrait, .keyword .kwEnum])
    ts).map fun i => (classKind? i.kind).getD .plainClass

/-- Reads names behind the given keyword, if it is next. -/
def readNamesAfter (env : Env) (word : Source.Keyword) (ts : List Item) : Read (List Name) ts :=
  Reading.onNext (isKeyword word) ts (fun _ us _ => readNames env us) (.done [])

/-- Reads the header of a class up to and including the opening brace; gives the class without
its members, with the span of its first token. -/
def readHeader (env : Env) (ts : List Item) : Read ClassLike ts :=
  let start := (env.current ts).span
  let doc := docComment? ts
  (skipAttributes ts).andThen fun _ us _ =>
  let doc := firstDoc doc us
  (readClassModifiers {} us).andThen fun modifiers us _ =>
  let doc := firstDoc doc us
  (readClassKind env us).andThen fun kind us _ =>
  (readIdent env us).andThen fun name us _ =>
  (if kind = .enum then readReturnHint env us else .done none).andThen fun backingType us _ =>
  (readNamesAfter env .kwExtends us).andThen fun parents us _ =>
  (readNamesAfter env .kwImplements us).andThen fun implements us _ =>
  (expectMark env .braceOpen us).map fun _ =>
    { kind, name, modifiers, parents, implements, backingType, doc, span := start }

/-- **Reads a class**, with the faults of its members.  When the class itself cannot be read, its
own fault is the last one. -/
def readClass (env : Env) (ts : List Item) :
    Reading Item (List Fault) (ClassLike × List Fault) ts :=
  ((readHeader env ts).mapError fun fault => [fault]).andThen fun header us _ =>
  ((readBody env {} us).mapError fun fault => [fault]).andThen fun (members, faults) us _ =>
  ((expectMark env .braceClose us).mapError fun fault => faults ++ [fault]).map fun closing =>
    ({ header with toMembers := members, span := header.span.merge closing.span }, faults)

theorem readHeader_advances (env : Env) (ts : List Item) : (readHeader env ts).Advances :=
  Reading.advances_andThen _ fun _ _ _ =>
    Reading.advances_andThen _ fun _ _ _ =>
      Reading.Advances.andThen ((Reading.advances_expect _ _ _).map _) _

theorem readClass_advances (env : Env) (ts : List Item) : (readClass env ts).Advances :=
  ((readHeader_advances env ts).mapError _).andThen _

end PhpHandbook.Declaration
