import PhpHandbook.Declaration.HintReader

/-!
# Reading members

The readers of what stands in the body of a class: uses of traits, cases, constants, properties
and methods.  Each member that is read takes at least one token, so a body is read to its end.

This is the part of the parser of sources that reads members: `readMember` reads one statement of a
body, `readModifiers` the words in front of it, and each other reader one kind of member.
-/

namespace PhpHandbook.Declaration

open Source (Span Keyword TokenKind)

/-- The documentation comment found first of two. -/
def firstDoc (doc : Option Comment) (ts : List Item) : Option Comment :=
  doc.or (docComment? ts)

/-- The visibility that a token spells. -/
def visibility? : TokenKind → Option Visibility
  | .keyword .kwPublic => some .isPublic
  | .keyword .kwProtected => some .isProtected
  | .keyword .kwPrivate => some .isPrivate
  | _ => none

/-- The modifiers with one more word that says nothing about visibility. -/
def Modifiers.mark (m : Modifiers) : TokenKind → Modifiers
  | .keyword .kwStatic => { m with isStatic := true }
  | .keyword .kwAbstract => { m with isAbstract := true }
  | .keyword .kwFinal => { m with isFinal := true }
  | .keyword .kwReadonly => { m with isReadonly := true }
  | .keyword .kwVar => { m with isVar := true }
  | _ => m

/-- Whether the parenthesis here holds the word `set`. -/
def startsSet (ts : List Item) : Bool :=
  next (isMark .parenOpen) ts && second (fun i => sameName i.token.lexeme "set") ts

/-- Reads what may follow a visibility: `(set)`, and tells whether it did. -/
def readSet (env : Env) (ts : List Item) : Read Bool ts :=
  if startsSet ts then
    (Reading.skip (fun _ => true) ts).andThen fun _ us _ =>
    (Reading.skip (fun _ => true) us).andThen fun _ vs _ =>
    (expectMark env .parenClose vs).map fun _ => true
  else .done false

/-- Reads modifiers; a later visibility takes the place of an earlier one. -/
def readModifiers (env : Env) (m : Modifiers) (ts : List Item) : Read Modifiers ts :=
  Reading.onNext (·.kind.isModifier) ts
    (fun t us _ =>
      match visibility? t.kind with
      | some v =>
        (readSet env us).andThen fun isSet vs _ =>
          readModifiers env
            (if isSet then { m with setVisibility := some v }
              else { m with visibility := some v }) vs
      | none => readModifiers env (m.mark t.kind) us)
    (.done m)
termination_by ts.length

/-! ### Uses of traits -/

/-- Reads the trait in front of `::`, if there is one. -/
def readAdaptedTrait (env : Env) (ts : List Item) : Read (Option Name) ts :=
  if next (·.kind.isName) ts && second (isMark .doubleColon) ts then
    (readName env ts).andThen fun name us _ =>
      (Reading.skip (fun _ => true) us).map fun _ => some name
  else .done none

/-- Reads a rule for methods of traits, up to its semicolon. -/
def readAdaptation (env : Env) (ts : List Item) : Read Adaptation ts :=
  (readAdaptedTrait env ts).andThen fun traitName us _ =>
  (readMemberName env us).andThen fun method us _ =>
  Reading.onNext (isKeyword .kwInsteadof) us
    (fun _ vs _ =>
      match traitName with
      | none => .fail ⟨.precedenceWithoutTrait, method.span, none⟩
      | some traitName =>
        (readNames env vs).map fun names => .precedence traitName method.name names)
    ((expectKeyword env .kwAs us).andThen fun _ vs _ =>
      (Reading.take? (fun i => (visibility? i.kind).isSome) vs).andThen fun word ws _ =>
        let v := word.bind fun i => visibility? i.kind
        if next (isMark .semicolon) ws then .done (.rename traitName method.name v none)
        else (readMemberName env ws).map fun new => .rename traitName method.name v (some new.name))

/-- Reads the rules between the braces of a use. -/
def readAdaptations (env : Env) (ts : List Item) : Read (List Adaptation) ts :=
  if next (isMark .braceClose) ts || ts.isEmpty then .done []
  else
    (readAdaptation env ts).andThen fun a us _ =>
      Reading.onNext (isMark .semicolon) us
        (fun _ vs _ => (readAdaptations env vs).map (a :: ·))
        (.fail (env.unexpected [.mark .semicolon] us))
termination_by ts.length

/-- Reads the end of a use: a semicolon, or rules in braces. -/
def readUseEnd (env : Env) (ts : List Item) : Read (List Adaptation × Span) ts :=
  Reading.onNext (isMark .braceOpen) ts
    (fun _ us _ =>
      (readAdaptations env us).andThen fun adaptations vs _ =>
        (expectMark env .braceClose vs).map fun closing => (adaptations, closing.span))
    ((expectMark env .semicolon ts).map fun closing => ([], closing.span))

/-- Reads a use of traits. -/
def readTraitUse (env : Env) (ts : List Item) : Read TraitUse ts :=
  let comments := (ts.head?.map (·.comments)).getD []
  (expectKeyword env .kwUse ts).andThen fun word us _ =>
  (readNames env us).andThen fun traits us _ =>
  (readUseEnd env us).map fun (adaptations, stop) =>
    { traits, adaptations, comments, span := word.span.merge stop }

/-! ### Cases, constants and properties -/

/-- Reads a case of an enum. -/
def readCase (env : Env) (doc : Option Comment) (start : Span) (ts : List Item) :
    Read EnumCase ts :=
  (expectKeyword env .kwCase ts).andThen fun _ us _ =>
  (readMemberName env us).andThen fun name us _ =>
  (readDefault env (isMark .semicolon) us).andThen fun value us _ =>
  (expectMark env .semicolon us).map fun closing =>
    { name, value, doc, span := start.merge closing.span }

/-- Whether a type stands in front of the name of a constant. -/
def constantHasType (ts : List Item) : Bool :=
  match ts with
  | [] => false
  | t :: us =>
    isMark .question t || isMark .parenOpen t ||
      match us with
      | [] => true
      | u :: _ => !isMark .equals u

/-- Whether an item ends the value of a constant. -/
def endsConstant (i : Item) : Bool :=
  isMark .comma i || isMark .semicolon i

/-- Reads the constants of one statement; `make` puts in what they share. -/
def readConstantList (env : Env) (make : Ident → String → Constant) (ts : List Item) :
    Read (List Constant) ts :=
  (readMemberName env ts).andThen fun name us _ =>
  Reading.onNext (isMark .equals) us
    (fun _ us _ =>
      (readExpression env endsConstant us).andThen fun value us _ =>
      Reading.onNext (isMark .comma) us
        (fun _ us _ => (readConstantList env make us).map (make name value :: ·))
        (.done [make name value]))
    (.fail (env.faultAt (.expectedAfter "=" "constant name") us))
termination_by ts.length

/-- Reads a type if the flag is set. -/
def readHintIf (env : Env) (wanted : Bool) (ts : List Item) : Read (Option TypeHint) ts :=
  if wanted then (readHint env ts).map some else .done none

/-- Reads a statement that declares constants. -/
def readConstants (env : Env) (modifiers : Modifiers) (doc : Option Comment) (start : Span)
    (ts : List Item) : Read (List Constant) ts :=
  (expectKeyword env .kwConst ts).andThen fun _ us _ =>
  (readHintIf env (constantHasType us) us).andThen fun type us _ =>
  (readConstantList env
    (fun name value => { name, type, value, modifiers, doc, span := start.merge name.span })
    us).andThen fun constants us _ =>
  (expectMark env .semicolon us).map fun _ => constants

/-- Whether an item ends the default of a property. -/
def endsProperty (i : Item) : Bool :=
  isMark .comma i || isMark .semicolon i || isMark .braceOpen i

/-- Reads the block of accessors of a property, if there is one. -/
def readHooks (env : Env) (ts : List Item) : Read Bool ts :=
  if next (isMark .braceOpen) ts then (skipBlock env ts).map fun _ => true else .done false

/-- Reads the properties of one statement to its end: a semicolon, or a block of accessors. -/
def readPropertyList (env : Env) (make : Ident → Option String → Bool → Property)
    (ts : List Item) :
    Read (List Property) ts :=
  (readVariable env ts).andThen fun name us _ =>
  (readDefault env endsProperty us).andThen fun fallback us _ =>
  (readHooks env us).andThen fun hasHooks us _ =>
    let property := make name fallback hasHooks
    if hasHooks then .done [property]
    else
      Reading.onNext (isMark .comma) us
        (fun _ us _ => (readPropertyList env make us).map (property :: ·))
        ((expectMark env .semicolon us).map fun _ => [property])
termination_by ts.length

/-- Reads a statement that declares properties. -/
def readProperties (env : Env) (modifiers : Modifiers) (doc : Option Comment) (start : Span)
    (ts : List Item) : Read (List Property) ts :=
  (readHintIf env (!next (isKind .variableName) ts) ts).andThen fun type us _ =>
  readPropertyList env
    (fun name fallback hasHooks =>
      { name, type, fallback, modifiers, hasHooks, doc, span := start.merge name.span }) us

/-! ### Methods -/

/-- Whether an item starts a parameter that has no type. -/
def startsUntyped (i : Item) : Bool :=
  isKind .variableName i || isMark .ampersand i || isMark .ellipsis i

/-- Whether an item ends the default of a parameter. -/
def endsParam (i : Item) : Bool :=
  isMark .comma i || isMark .parenClose i

/-- Reads one parameter. -/
def readParam (env : Env) (ts : List Item) : Read Param ts :=
  let start := (env.current ts).span
  let doc := docComment? ts
  (skipAttributes ts).andThen fun _ us _ =>
  let doc := firstDoc doc us
  (readModifiers env {} us).andThen fun modifiers us _ =>
  (readHintIf env (!next startsUntyped us) us).andThen fun type us _ =>
  (skipMark .ampersand us).andThen fun byRef us _ =>
  (skipMark .ellipsis us).andThen fun variadic us _ =>
  (readVariable env us).andThen fun name us _ =>
  (readDefault env endsParam us).andThen fun fallback us _ =>
  (readHooks env us).map fun _ =>
    { name, type, fallback, byRef, variadic, doc, span := start.merge name.span
      promoted := if modifiers.promotes then some modifiers else none }

/-- Reads parameters up to the closing parenthesis. -/
def readParamList (env : Env) (ts : List Item) : Read (List Param) ts :=
  if next (isMark .parenClose) ts then .done []
  else
    (readParam env ts).andThen fun param us _ =>
      Reading.onNext (isMark .comma) us
        (fun _ us _ => (readParamList env us).map (param :: ·))
        (.done [param])
termination_by ts.length

/-- Reads parameters in parentheses. -/
def readParams (env : Env) (ts : List Item) : Read (List Param) ts :=
  (expectMark env .parenOpen ts).andThen fun _ us _ =>
  (readParamList env us).andThen fun params us _ =>
  (expectMark env .parenClose us).map fun _ => params

/-- Reads the end of a method: a body, or a semicolon. -/
def readMethodEnd (env : Env) (ts : List Item) : Read (Bool × Span) ts :=
  if next (isMark .braceOpen) ts then (skipBlock env ts).map fun span => (true, span)
  else
    ((expectMark env .semicolon ts).mapError
      (Fault.withHint "methods need a body or a terminating ';'")).map fun t => (false, t.span)

/-- Reads a method. -/
def readMethod (env : Env) (modifiers : Modifiers) (doc : Option Comment) (start : Span)
    (ts : List Item) : Read Method ts :=
  (expectKeyword env .kwFunction ts).andThen fun _ us _ =>
  (skipMark .ampersand us).andThen fun returnsReference us _ =>
  (readMemberName env us).andThen fun name us _ =>
  (readParams env us).andThen fun params us _ =>
  (readReturnHint env us).andThen fun returnType us _ =>
  (readMethodEnd env us).map fun (hasBody, stop) =>
    { name, modifiers, params, returnType, returnsReference, hasBody, doc
      span := start.merge stop }

/-! ### Members -/

/-- What one statement in the body of a class declares. -/
inductive Member where
  | nothing
  | traitUse (use : TraitUse)
  | case (case : EnumCase)
  | constants (constants : List Constant)
  | properties (properties : List Property)
  | method (method : Method)

/-- The members with those of one more statement. -/
def Members.add (ms : Members) : Member → Members
  | .nothing => ms
  | .traitUse use => { ms with traitUses := ms.traitUses ++ [use] }
  | .case case => { ms with cases := ms.cases ++ [case] }
  | .constants constants => { ms with constants := ms.constants ++ constants }
  | .properties properties => { ms with properties := ms.properties ++ properties }
  | .method method => { ms with methods := ms.methods ++ [method] }

/-- Reads a member from its modifiers on. -/
def readModified (env : Env) (doc : Option Comment) (start : Span) (ts : List Item) :
    Read Member ts :=
  (readModifiers env {} ts).andThen fun modifiers us _ =>
    let doc := firstDoc doc us
    if next (isKeyword .kwConst) us then (readConstants env modifiers doc start us).map .constants
    else if next (isKeyword .kwFunction) us then (readMethod env modifiers doc start us).map .method
    else (readProperties env modifiers doc start us).map .properties

/-- **Reads one statement** in the body of a class. -/
def readMember (env : Env) (ts : List Item) : Read Member ts :=
  Reading.onNext (isMark .semicolon) ts (fun _ _ _ => .done .nothing) <|
    let start := (env.current ts).span
    if next (isKeyword .kwUse) ts then (readTraitUse env ts).map .traitUse
    else
      let doc := docComment? ts
      (skipAttributes ts).andThen fun _ us _ =>
        let doc := firstDoc doc us
        if next (isKeyword .kwCase) us then (readCase env doc start us).map .case
        else readModified env doc start us

/-! ### Progress -/

theorem expectKeyword_advances (env : Env) (word : Keyword) (ts : List Item) :
    (expectKeyword env word ts).Advances :=
  (Reading.advances_expect _ _ _).map _

theorem readPropertyList_advances (env : Env) (make : Ident → Option String → Bool → Property)
    (ts : List Item) : (readPropertyList env make ts).Advances := by
  rw [readPropertyList]
  exact ((Reading.advances_expect _ _ _).map _).andThen _

theorem readModified_advances (env : Env) (doc : Option Comment) (start : Span) (ts : List Item) :
    (readModified env doc start ts).Advances := by
  refine Reading.advances_andThen _ fun modifiers us _ => ?_
  dsimp only
  split
  · exact ((expectKeyword_advances _ _ _).andThen _).map _
  split
  · exact ((expectKeyword_advances _ _ _).andThen _).map _
  · exact (Reading.advances_andThen _ fun _ _ _ => readPropertyList_advances _ _ _).map _

theorem readMember_advances (env : Env) (ts : List Item) : (readMember env ts).Advances := by
  refine Reading.Advances.onNext ?_
  dsimp only
  split
  · exact ((expectKeyword_advances _ _ _).andThen _).map _
  · refine Reading.advances_andThen _ fun _ us _ => ?_
    split
    · exact ((expectKeyword_advances _ _ _).andThen _).map _
    · exact readModified_advances _ _ _ _

end PhpHandbook.Declaration
