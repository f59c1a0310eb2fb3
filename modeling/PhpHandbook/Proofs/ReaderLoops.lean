import PhpHandbook.Declaration.FileReader
import PhpHandbook.Proofs.Loops

/-!
# The loops of the readers

Every loop of the readers of declarations, round by round, up to those over the body of a class and
over a file.  Most rounds are readers themselves, made of the same parts as the reader that they are
a round of; that the reader is its round with itself behind it then follows from the laws of
sequencing.  The loops that count brackets say what they count.
-/

namespace PhpHandbook.Declaration

/-! ### Passing over -/

/-- Passing over a block. -/
def blockLoop : Loop :=
  bracketLoop (isMark .braceOpen) (isMark .braceClose)
    (fun opening => ⟨.unexpectedEnd, opening, some "unclosed '\x7b'"⟩)
    (fun opening t => opening.merge t.token.span) skipToClose

theorem blockLoop_sound : blockLoop.Sound := by
  refine bracketLoop_sound (fun _ _ => rfl) ?_ ?_ ?_ ?_
  · intro opening n t us ht
    exact congrArg answerOf (skipToClose_of_open opening n ht)
  · intro opening t us ht hc
    exact congrArg answerOf (skipToClose_zero_of_close opening ht hc)
  · intro opening n t us ht hc
    exact congrArg answerOf (skipToClose_succ_of_close opening n ht hc)
  · intro opening n t us ht hc
    exact congrArg answerOf (skipToClose_of_other opening n ht hc)

/-- Passing over an attribute group. -/
def attributeLoop : Loop :=
  bracketLoop (fun t => isMark .attributeOpen t || isMark .bracketOpen t) (isMark .bracketClose)
    (fun opening => ⟨.unexpectedEnd, opening, some "unclosed attribute"⟩) (fun _ _ => ())
    skipAttribute

theorem attributeLoop_sound : attributeLoop.Sound := by
  refine bracketLoop_sound (fun _ _ => rfl) ?_ ?_ ?_ ?_
  · intro opening n t us ht
    exact congrArg answerOf (skipAttribute_of_open opening n ht)
  · intro opening t us ht hc
    exact congrArg answerOf (skipAttribute_zero_of_close opening ht hc)
  · intro opening n t us ht hc
    exact congrArg answerOf (skipAttribute_succ_of_close opening n ht hc)
  · intro opening n t us ht hc
    exact congrArg answerOf (skipAttribute_of_other opening n ht hc)

/-- What the loop over an expression carries. -/
structure Within where
  stops : Item → Bool
  depth : Int
  /-- Where the expression ends so far. -/
  stop : Nat

/-- Passing over an expression.  A bracket that closes at depth zero is not counted. -/
def expressionLoop : Loop where
  State := Within
  Answer := Except Fault Nat × List Item
  depth s := s.depth
  Valid s := 0 ≤ s.depth
  answer s ts := answerOf (skipExpression s.stops s.depth.toNat s.stop ts)
  round s
    | [] => .exit s.depth [] (.ok s.stop, [])
    | t :: us =>
      if s.depth = 0 ∧ (s.stops t ∨ closesBracket t) then
        .exit s.depth (t :: us) (.ok s.stop, t :: us)
      else if opensBracket t then .again ⟨s.stops, s.depth + 1, t.token.span.stop⟩ us id
      else if closesBracket t then .again ⟨s.stops, s.depth - 1, t.token.span.stop⟩ us id
      else .again ⟨s.stops, s.depth, t.token.span.stop⟩ us id

theorem expressionLoop_sound : expressionLoop.Sound where
  depth_nonneg _ hs := hs
  fits := by
    rintro ⟨stops, depth, stop⟩ ts (hs : 0 ≤ depth)
    obtain ⟨n, rfl⟩ := Int.eq_ofNat_of_zero_le hs
    cases ts with
    | nil => exact ⟨hs, List.suffix_refl _, rfl⟩
    | cons t us =>
      have hsuf := List.suffix_cons t us
      have hlt : us.length < (t :: us).length := Nat.lt_succ_self _
      simp only [expressionLoop, Int.natCast_eq_zero]
      split
      · next hstop =>
        refine ⟨hs, List.suffix_refl _, ?_⟩
        show answerOf (skipExpression stops n stop (t :: us)) = _
        rw [skipExpression, if_pos hstop]
        rfl
      · next hstop =>
        -- the readers count as the loop does
        have hread (depth : Nat) (hdepth : (if opensBracket t then n + 1
            else if closesBracket t then n - 1 else n) = depth) :
            answerOf (skipExpression stops n stop (t :: us))
              = answerOf (skipExpression stops depth t.token.span.stop us) := by
          rw [skipExpression, if_neg hstop, hdepth]
          rfl
        split
        · next hopen =>
          refine ⟨Int.add_nonneg hs (by decide), hsuf, hlt, ?_⟩
          exact hread (n + 1) (if_pos hopen)
        · next hopen =>
          split
          · next hclose =>
            have hpos : n ≠ 0 := fun hn => hstop ⟨hn, .inr hclose⟩
            refine ⟨?_, hsuf, hlt, ?_⟩
            · show (0 : Int) ≤ n - 1
              omega
            · refine (hread (n - 1) (by rw [if_neg hopen, if_pos hclose])).trans ?_
              have hcast : ((n : Int) - 1).toNat = n - 1 := by omega
              show _ = answerOf (skipExpression stops ((n : Int) - 1).toNat t.token.span.stop us)
              rw [hcast]
          · next hclose =>
            exact ⟨hs, hsuf, hlt, hread n (by rw [if_neg hopen, if_neg hclose])⟩

/-- Looking ahead for a class: attributes, which are passed over by their brackets, and
modifiers. -/
def aheadLoop : Loop where
  State := Int
  Answer := Bool
  depth depth := depth
  Valid depth := 0 ≤ depth
  answer depth ts := classAhead depth.toNat ts
  round depth
    | [] => .exit depth [] false
    | t :: us =>
      if 0 < depth then
        if isMark .attributeOpen t || isMark .bracketOpen t then .again (depth + 1) us id
        else if isMark .bracketClose t then .again (depth - 1) us id
        else .again depth us id
      else if isMark .attributeOpen t then .again 1 us id
      else if isKeyword .kwAbstract t || isKeyword .kwFinal t || isKeyword .kwReadonly t then
        .again depth us id
      else .exit depth us ((classKind? t.kind).isSome && next (isKind .name) us)

theorem aheadLoop_sound : aheadLoop.Sound where
  depth_nonneg _ hs := hs
  fits := by
    intro (depth : Int) ts (hs : 0 ≤ depth)
    obtain ⟨n, rfl⟩ := Int.eq_ofNat_of_zero_le hs
    cases ts with
    | nil => exact ⟨hs, List.suffix_refl _, by cases n <;> rfl⟩
    | cons t us =>
      have hsuf := List.suffix_cons t us
      have hlt : us.length < (t :: us).length := Nat.lt_succ_self _
      simp only [aheadLoop]
      cases n with
      | zero =>
        rw [if_neg (by decide)]
        have hahead : classAhead 0 (t :: us) = if isMark .attributeOpen t then classAhead 1 us
            else if isKeyword .kwAbstract t || isKeyword .kwFinal t || isKeyword .kwReadonly t then
              classAhead 0 us
            else (classKind? t.kind).isSome && next (isKind .name) us := rfl
        split
        · next ht => exact ⟨by decide, hsuf, hlt, hahead.trans (if_pos ht)⟩
        · next ht =>
          rw [if_neg ht] at hahead
          split
          · next hm => exact ⟨hs, hsuf, hlt, hahead.trans (if_pos hm)⟩
          · next hm => exact ⟨hs, hsuf, hahead.trans (if_neg hm)⟩
      | succ n =>
        rw [if_pos (by omega)]
        have hahead : classAhead (n + 1) (t :: us)
            = if isMark .attributeOpen t || isMark .bracketOpen t then classAhead (n + 2) us
              else if isMark .bracketClose t then classAhead n us else classAhead (n + 1) us := rfl
        split
        · next ht => exact ⟨Int.add_nonneg hs (by decide), hsuf, hlt, hahead.trans (if_pos ht)⟩
        · next ht =>
          rw [if_neg ht] at hahead
          split
          · next hc =>
            refine ⟨?_, hsuf, hlt, (hahead.trans (if_pos hc)).trans ?_⟩
            · show (0 : Int) ≤ (n + 1 : Nat) - 1
              omega
            · show classAhead n us = classAhead (((n + 1 : Nat) : Int) - 1).toNat us
              congr 1
              omega
          · next hc => exact ⟨hs, hsuf, hlt, hahead.trans (if_neg hc)⟩

/-! ### Lists -/

section Lists

variable (env : Env)

/-- Further names, each behind a comma. -/
def namesRound (_ : Unit) (ts : List Item) : Read (Turn Unit (List Name)) ts :=
  Reading.onNext (isMark .comma) ts
    (fun _ us _ => (readName env us).map fun n => .go () (n :: ·)) (.done (.stop []))

theorem namesLoop_sound : (Loop.ofReader (namesRound env) fun _ => readMoreNames env).Sound := by
  refine Loop.sound_ofReader (fun _ ts => ?_) fun _ _ => (proceeds_stop _).onNext
  rw [readMoreNames]
  simp only [namesRound, Reading.onNext_andThen, Reading.map_andThen, Reading.done_andThen,
    Turn.follow]

/-- Attribute groups, one behind the other. -/
def attributesRound (_ : Unit) (ts : List Item) : Read (Turn Unit Unit) ts :=
  Reading.onNext (isMark .attributeOpen) ts
    (fun t us _ => (skipAttribute t.token.span 0 us).map fun _ => .go () id) (.done (.stop ()))

theorem attributesLoop_sound : (Loop.ofReader attributesRound fun _ => skipAttributes).Sound := by
  refine Loop.sound_ofReader (fun _ ts => ?_) fun _ _ => (proceeds_stop _).onNext
  rw [skipAttributes]
  simp only [attributesRound, Reading.onNext_andThen, Reading.map_andThen, Reading.done_andThen,
    Turn.follow, Reading.map_id]

/-- Further members of an intersection. -/
def joinedRound (_ : Unit) (ts : List Item) : Read (Turn Unit (List TypeHint)) ts :=
  if joinsHints ts then
    Reading.onNext (isMark .ampersand) ts
      (fun _ us _ => (readSingleHint env us).map fun t => .go () (t :: ·)) (.done (.stop []))
  else .done (.stop [])

theorem joinedLoop_sound : (Loop.ofReader (joinedRound env) fun _ => readMoreJoined env).Sound := by
  refine Loop.sound_ofReader (fun _ ts => ?_) fun _ ts => ?_
  · rw [readMoreJoined]
    unfold joinedRound
    split
    · simp only [Reading.onNext_andThen, Reading.map_andThen, Reading.done_andThen, Turn.follow]
    · rfl
  · unfold joinedRound
    split
    · exact (proceeds_stop _).onNext
    · exact proceeds_stop _

/-- Further members of a union. -/
def unitedRound (_ : Unit) (ts : List Item) : Read (Turn Unit (List TypeHint)) ts :=
  Reading.onNext (isMark .pipe) ts
    (fun _ us _ => (readGroup env us).map fun t => .go () (t :: ·)) (.done (.stop []))

theorem unitedLoop_sound : (Loop.ofReader (unitedRound env) fun _ => readMoreUnited env).Sound := by
  refine Loop.sound_ofReader (fun _ ts => ?_) fun _ _ => (proceeds_stop _).onNext
  rw [readMoreUnited]
  simp only [unitedRound, Reading.onNext_andThen, Reading.map_andThen, Reading.done_andThen,
    Turn.follow]

/-- Modifiers of a member. -/
def modifiersRound (m : Modifiers) (ts : List Item) : Read (Turn Modifiers Modifiers) ts :=
  Reading.onNext (·.kind.isModifier) ts
    (fun t us _ =>
      match visibility? t.kind with
      | some v =>
        (readSet env us).map fun isSet =>
          .go (if isSet then { m with setVisibility := some v }
            else { m with visibility := some v }) id
      | none => .done (.go (m.mark t.kind) id))
    (.done (.stop m))

theorem modifiersLoop_sound : (Loop.ofReader (modifiersRound env) (readModifiers env)).Sound := by
  refine Loop.sound_ofReader (fun m ts => ?_) fun _ _ => (proceeds_stop _).onNext
  rw [readModifiers, modifiersRound, Reading.onNext_andThen]
  congr 1
  funext t us lt
  cases visibility? t.kind with
  | none => simp only [Reading.done_andThen, Turn.follow, Reading.map_id]
  | some v => simp only [Reading.map_andThen, Turn.follow, Reading.map_id]

/-- Modifiers of a class. -/
def classModifiersRound (m : ClassModifiers) :
    (ts : List Item) → Read (Turn ClassModifiers ClassModifiers) ts
  | [] => .done (.stop m)
  | t :: _ =>
    match t.kind with
    | .keyword .kwAbstract => .behind t (.done (.go { m with isAbstract := true } id))
    | .keyword .kwFinal => .behind t (.done (.go { m with isFinal := true } id))
    | .keyword .kwReadonly => .behind t (.done (.go { m with isReadonly := true } id))
    | _ => .done (.stop m)

theorem classModifiersLoop_sound :
    (Loop.ofReader classModifiersRound readClassModifiers).Sound := by
  refine Loop.sound_ofReader (fun m ts => ?_) fun m ts => ?_
  · cases ts with
    | nil => rfl
    | cons t us =>
      rw [readClassModifiers]
      split
      · next hk =>
        simp only [classModifiersRound, hk, Reading.behind_andThen, Reading.done_andThen,
          Turn.follow, Reading.map_id]
      · next hk =>
        simp only [classModifiersRound, hk, Reading.behind_andThen, Reading.done_andThen,
          Turn.follow, Reading.map_id]
      · next hk =>
        simp only [classModifiersRound, hk, Reading.behind_andThen, Reading.done_andThen,
          Turn.follow, Reading.map_id]
      · next hAbstract hFinal hReadonly =>
        have hround : classModifiersRound m (t :: us) = .done (.stop m) := by
          rw [classModifiersRound]
          split
          · next hk => exact absurd hk hAbstract
          · next hk => exact absurd hk hFinal
          · next hk => exact absurd hk hReadonly
          · rfl
        rw [hround]
        rfl
  · cases ts with
    | nil => exact proceeds_stop _
    | cons t us =>
      rw [classModifiersRound]
      split
      · exact proceeds_of_advances (Reading.advances_behind t _)
      · exact proceeds_of_advances (Reading.advances_behind t _)
      · exact proceeds_of_advances (Reading.advances_behind t _)
      · exact proceeds_stop _

/-- Rules for methods of traits. -/
def adaptationsRound (_ : Unit) (ts : List Item) : Read (Turn Unit (List Adaptation)) ts :=
  if next (isMark .braceClose) ts || ts.isEmpty then .done (.stop [])
  else
    (readAdaptation env ts).andThen fun a us _ =>
      Reading.onNext (isMark .semicolon) us (fun _ _ _ => .done (.go () (a :: ·)))
        (.fail (env.unexpected [.mark .semicolon] us))

theorem adaptationsLoop_sound :
    (Loop.ofReader (adaptationsRound env) fun _ => readAdaptations env).Sound := by
  refine Loop.sound_ofReader (fun _ ts => ?_) fun _ ts => ?_
  · rw [readAdaptations]
    unfold adaptationsRound
    split
    · rfl
    · simp only [Reading.andThen_andThen, Reading.onNext_andThen, Reading.fail_andThen,
        Reading.done_andThen, Turn.follow]
  · unfold adaptationsRound
    split
    · exact proceeds_stop _
    · refine proceeds_of_advances (Reading.advances_andThen _ fun _ _ _ => ?_)
      exact Reading.Advances.onNext (Reading.advances_fail _)

/-- The constants of one statement. -/
def constantsRound (make : Ident → String → Constant) (ts : List Item) :
    Read (Turn (Ident → String → Constant) (List Constant)) ts :=
  (readMemberName env ts).andThen fun name us _ =>
  Reading.onNext (isMark .equals) us
    (fun _ us _ =>
      (readExpression env endsConstant us).andThen fun value us _ =>
      Reading.onNext (isMark .comma) us (fun _ _ _ => .done (.go make (make name value :: ·)))
        (.done (.stop [make name value])))
    (.fail (env.faultAt (.expectedAfter "=" "constant name") us))

theorem constantsLoop_sound :
    (Loop.ofReader (constantsRound env) (readConstantList env)).Sound := by
  refine Loop.sound_ofReader (fun make ts => ?_) fun make ts => ?_
  · rw [readConstantList]
    simp only [constantsRound, Reading.andThen_andThen, Reading.onNext_andThen,
      Reading.fail_andThen, Reading.done_andThen, Turn.follow]
  · exact proceeds_of_advances (((Reading.advances_expect _ _ _).map _).andThen _)

/-- The properties of one statement. -/
def propertiesRound (make : Ident → Option String → Bool → Property) (ts : List Item) :
    Read (Turn (Ident → Option String → Bool → Property) (List Property)) ts :=
  (readVariable env ts).andThen fun name us _ =>
  (readDefault env endsProperty us).andThen fun fallback us _ =>
  (readHooks env us).andThen fun hasHooks us _ =>
    if hasHooks then .done (.stop [make name fallback hasHooks])
    else
      Reading.onNext (isMark .comma) us
        (fun _ _ _ => .done (.go make (make name fallback hasHooks :: ·)))
        ((expectMark env .semicolon us).map fun _ => .stop [make name fallback hasHooks])

theorem propertiesLoop_sound :
    (Loop.ofReader (propertiesRound env) (readPropertyList env)).Sound := by
  refine Loop.sound_ofReader (fun make ts => ?_) fun make ts => ?_
  · rw [readPropertyList]
    simp only [propertiesRound, Reading.andThen_andThen]
    congr 1
    funext name us _
    congr 1
    funext fallback us _
    congr 1
    funext hasHooks us _
    split
    · rfl
    · simp only [Reading.onNext_andThen, Reading.map_andThen, Reading.done_andThen, Turn.follow,
        Reading.andThen_done]
  · exact proceeds_of_advances (((Reading.advances_expect _ _ _).map _).andThen _)

/-- The parameters of a method. -/
def paramsRound (_ : Unit) (ts : List Item) : Read (Turn Unit (List Param)) ts :=
  if next (isMark .parenClose) ts then .done (.stop [])
  else
    (readParam env ts).andThen fun param us _ =>
      Reading.onNext (isMark .comma) us (fun _ _ _ => .done (.go () (param :: ·)))
        (.done (.stop [param]))

theorem readParam_advances (ts : List Item) : (readParam env ts).Advances := by
  refine Reading.advances_andThen _ fun _ _ _ => Reading.advances_andThen _ fun _ _ _ =>
    Reading.advances_andThen _ fun _ _ _ => Reading.advances_andThen _ fun _ _ _ =>
    Reading.advances_andThen _ fun _ _ _ => ?_
  exact ((Reading.advances_expect _ _ _).map _).andThen _

theorem paramsLoop_sound : (Loop.ofReader (paramsRound env) fun _ => readParamList env).Sound := by
  refine Loop.sound_ofReader (fun _ ts => ?_) fun _ ts => ?_
  · rw [readParamList]
    unfold paramsRound
    split
    · rfl
    · simp only [Reading.andThen_andThen, Reading.onNext_andThen, Reading.done_andThen,
        Turn.follow]
  · unfold paramsRound
    split
    · exact proceeds_stop _
    · exact proceeds_of_advances ((readParam_advances env ts).andThen _)

/-- Imports with commas between them. -/
def importsRound (kind : ImportKind) (ts : List Item) : Read (Turn ImportKind (List Import)) ts :=
  (readImport env kind ts).andThen fun items us _ =>
  Reading.onNext (isMark .comma) us (fun _ _ _ => .done (.go kind (items ++ ·)))
    (.done (.stop items))

theorem importsLoop_sound : (Loop.ofReader (importsRound env) (readImportList env)).Sound := by
  refine Loop.sound_ofReader (fun kind ts => ?_) fun kind ts => ?_
  · rw [readImportList]
    simp only [importsRound, Reading.andThen_andThen, Reading.onNext_andThen, Reading.done_andThen,
      Turn.follow]
  · exact proceeds_of_advances (((Reading.advances_expect _ _ _).map _).andThen _ |>.andThen _)

/-- Names between the braces of an import. -/
def importGroupRound (s : ImportKind × String) (ts : List Item) :
    Read (Turn (ImportKind × String) (List Import)) ts :=
  if next (isMark .braceClose) ts then .done (.stop [])
  else
    (readImportKind s.1 ts).andThen fun itemKind us _ =>
    (readName env us).andThen fun name us _ =>
    (readAlias env itemKind (s.2 ++ "\\" ++ name.text) name us).andThen fun item us _ =>
    Reading.onNext (isMark .comma) us (fun _ _ _ => .done (.go s (item :: ·)))
      (.done (.stop [item]))

theorem importGroupLoop_sound :
    (Loop.ofReader (importGroupRound env) fun s => readImportGroup env s.1 s.2).Sound := by
  refine Loop.sound_ofReader (fun s ts => ?_) fun s ts => ?_
  · rw [readImportGroup]
    unfold importGroupRound
    split
    · rfl
    · simp only [Reading.andThen_andThen, Reading.onNext_andThen, Reading.done_andThen,
        Turn.follow]
  · unfold importGroupRound
    split
    · exact proceeds_stop _
    · refine proceeds_of_advances (Reading.advances_andThen _ fun _ _ _ => ?_)
      exact ((Reading.advances_expect _ _ _).map _).andThen _

end Lists

/-! ### Going on after a fault -/

/-- Up to what looks like the next member. -/
def toMemberRound (_ : Unit) : (ts : List Item) → Read (Turn Unit Unit) ts
  | [] => .done (.stop ())
  | t :: us =>
    if isMark .semicolon t then .behind t (.done (.stop ()))
    else if isMark .braceClose t || startsMember t then .done (.stop ())
    else if isMark .braceOpen t then .behind t ((skipToClose t.token.span 0 us).ignore.map .stop)
    else .behind t (.done (.go () id))

theorem toMemberLoop_sound (env : Env) :
    (Loop.ofReader toMemberRound fun _ => skipToMember env).Sound := by
  refine Loop.sound_ofReader (fun _ ts => ?_) fun _ ts => ?_
  · cases ts with
    | nil => rfl
    | cons t us =>
      rw [skipToMember, toMemberRound]
      split
      · rfl
      split
      · rfl
      split
      · rfl
      · simp only [Reading.behind_andThen, Reading.done_andThen, Turn.follow, Reading.map_id]
  · cases ts with
    | nil => exact proceeds_stop _
    | cons t us =>
      rw [toMemberRound]
      split
      · exact proceeds_of_advances (Reading.advances_behind t _)
      split
      · exact proceeds_stop _
      split
      · exact proceeds_of_advances (Reading.advances_behind t _)
      · exact proceeds_of_advances (Reading.advances_behind t _)

/-- Up to what looks like the next statement. -/
def toStatementRound (_ : Unit) : (ts : List Item) → Read (Turn Unit Unit) ts
  | [] => .done (.stop ())
  | t :: us =>
    if isMark .semicolon t then .behind t (.done (.stop ()))
    else if isMark .braceOpen t then
      match skipToClose t.token.span 0 us with
      | ⟨.ok _, vs, suffix⟩ => .behind t ⟨.ok (.go () id), vs, suffix⟩
      | ⟨.error _, vs, suffix⟩ => .behind t ⟨.ok (.stop ()), vs, suffix⟩
    else if isMark .braceClose t || startsDeclaration t then .done (.stop ())
    else .behind t (.done (.go () id))

theorem toStatementLoop_sound :
    (Loop.ofReader toStatementRound fun _ => skipToStatement).Sound := by
  refine Loop.sound_ofReader (fun _ ts => ?_) fun _ ts => ?_
  · cases ts with
    | nil =>
      rw [skipToStatement]
      rfl
    | cons t us =>
      rw [skipToStatement, toStatementRound]
      split
      · rfl
      split
      · rcases skipToClose t.token.span 0 us with ⟨outcome, vs, suffix⟩
        cases outcome with
        | ok span =>
          show Reading.behind t ((skipToStatement vs).widen suffix)
            = Reading.behind t (((skipToStatement vs).map id).widen suffix)
          rw [Reading.map_id]
        | error fault => rfl
      split
      · rfl
      · simp only [Reading.behind_andThen, Reading.done_andThen, Turn.follow, Reading.map_id]
  · cases ts with
    | nil => exact proceeds_stop _
    | cons t us =>
      rw [toStatementRound]
      split
      · exact proceeds_of_advances (Reading.advances_behind t _)
      split
      · split
        · exact proceeds_of_advances (Reading.advances_behind t _)
        · exact proceeds_of_advances (Reading.advances_behind t _)
      split
      · exact proceeds_stop _
      · exact proceeds_of_advances (Reading.advances_behind t _)

end PhpHandbook.Declaration
