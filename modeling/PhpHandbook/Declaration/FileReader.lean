import PhpHandbook.Declaration.ClassReader

/-!
# Reading files

A file is read statement by statement.  Namespaces, imports and class-like declarations are kept;
everything else is passed over by matching braces.  A statement that cannot be read is reported
and reading goes on behind it; a file with faults has no declarations.

This is the outer loop of the parser of sources: `readStatements` goes over the statements of a
file, `resumeStatement` is the recovery from a fault in one, and `parse` parses a source.
-/

namespace PhpHandbook.Declaration

open Source (Span TokenKind)

/-! ### Namespaces and imports -/

/-- Reads a namespace statement behind its keyword; gives the block and whether it has braces. -/
def readNamespace (env : Env) (span : Span) (ts : List Item) : Read (NamespaceBlock × Bool) ts :=
  ((Reading.take? (·.kind.isName) ts).map (·.map fun i =>
    (Name.ofText i.token.lexeme i.token.span).text)).andThen fun name us _ =>
  Reading.onNext (isMark .braceOpen) us
    (fun _ _ _ => .done ({ name, span }, true))
    (Reading.onNext (isMark .semicolon) us
      (fun _ _ _ => .done ({ name, span }, false))
      (.fail (env.faultAt (.expectedAfter ";" "namespace name") us)))

/-- Reads the word that tells what is imported, if there is one. -/
def readImportKind (fallback : ImportKind) (ts : List Item) : Read ImportKind ts :=
  Reading.onNext (isKeyword .kwFunction) ts (fun _ _ _ => .done .functionName)
    (Reading.onNext (isKeyword .kwConst) ts (fun _ _ _ => .done .constantName) (.done fallback))

/-- Reads the local name of an imported one; without one the last part of the name serves. -/
def readAlias (env : Env) (kind : ImportKind) (full : String) (name : Name) (ts : List Item) :
    Read Import ts :=
  Reading.onNext (isKeyword .kwAs) ts
    (fun _ us _ => (readIdent env us).map fun own => ⟨kind, full, own.name, name.span⟩)
    (.done ⟨kind, full, name.last, name.span⟩)

/-- Reads the names between the braces of an import. -/
def readImportGroup (env : Env) (kind : ImportKind) (base : String) (ts : List Item) :
    Read (List Import) ts :=
  if next (isMark .braceClose) ts then .done []
  else
    (readImportKind kind ts).andThen fun itemKind us _ =>
    (readName env us).andThen fun name us _ =>
    (readAlias env itemKind (base ++ "\\" ++ name.text) name us).andThen fun item us _ =>
    Reading.onNext (isMark .comma) us
      (fun _ us _ => (readImportGroup env kind base us).map (item :: ·))
      (.done [item])
termination_by ts.length

/-- Reads an imported name, or several that share their beginning. -/
def readImport (env : Env) (kind : ImportKind) (ts : List Item) : Read (List Import) ts :=
  (readName env ts).andThen fun name us _ =>
  Reading.onNext (isMark .backslash) us
    (fun _ us _ =>
      (expectMark env .braceOpen us).andThen fun _ us _ =>
      (readImportGroup env kind name.text us).andThen fun items us _ =>
      (expectMark env .braceClose us).map fun _ => items)
    ((readAlias env kind name.text name us).map ([·]))

/-- Reads imports with commas between them. -/
def readImportList (env : Env) (kind : ImportKind) (ts : List Item) : Read (List Import) ts :=
  (readImport env kind ts).andThen fun items us _ =>
  Reading.onNext (isMark .comma) us
    (fun _ us _ => (readImportList env kind us).map (items ++ ·))
    (.done items)
termination_by ts.length

/-- Reads an import statement behind its keyword. -/
def readImports (env : Env) (ts : List Item) : Read (List Import) ts :=
  (readImportKind .className ts).andThen fun kind us _ =>
  (readImportList env kind us).andThen fun items us _ =>
  (expectMark env .semicolon us).map fun _ => items

/-! ### Statements -/

/-- Whether an item is a keyword that starts a declaration. -/
def startsDeclaration (i : Item) : Bool :=
  isKeyword .kwClass i || isKeyword .kwInterface i || isKeyword .kwTrait i ||
    isKeyword .kwNamespace i

/-- Passes over tokens up to what looks like the next statement. -/
def skipToStatement (ts : List Item) : Read Unit ts :=
  match ts with
  | [] => .done ()
  | t :: us =>
    if isMark .semicolon t then .behind t (.done ())
    else if isMark .braceOpen t then
      match skipToClose t.token.span 0 us with
      | ⟨.ok _, vs, suffix⟩ =>
        have := suffix.length_le
        .behind t ((skipToStatement vs).widen suffix)
      | ⟨.error _, vs, suffix⟩ => .behind t ⟨.ok (), vs, suffix⟩
    else if isMark .braceClose t || startsDeclaration t then .done ()
    else .behind t (skipToStatement us)
termination_by ts.length

/-- Goes on after a fault outside all classes. -/
def resumeStatement (ts : List Item) : Read Unit ts :=
  Reading.onNext (fun _ => true) ts (fun _ us _ => skipToStatement us) (.done ())

theorem resumeStatement_length_le (ts : List Item) :
    (resumeStatement ts).rest.length ≤ ts.length - 1 := by
  cases ts with
  | nil => simp [resumeStatement, Reading.onNext, Reading.done]
  | cons t us =>
    have := (skipToStatement us).rest_length_le
    simp only [resumeStatement, Reading.onNext, if_true, Reading.behind, Reading.widen,
      List.length_cons]
    omega

/-- Whether a class-like declaration starts here: attributes and modifiers, then a word for its
kind and a name; `depth` counts the open brackets of an attribute. -/
def classAhead (depth : Nat) : List Item → Bool
  | [] => false
  | t :: us =>
    match depth with
    | d + 1 =>
      if isMark .attributeOpen t || isMark .bracketOpen t then classAhead (d + 2) us
      else if isMark .bracketClose t then classAhead d us
      else classAhead (d + 1) us
    | 0 =>
      if isMark .attributeOpen t then classAhead 1 us
      else if isKeyword .kwAbstract t || isKeyword .kwFinal t || isKeyword .kwReadonly t then
        classAhead 0 us
      else (classKind? t.kind).isSome && next (isKind .name) us

/-- Whether a namespace statement starts here. -/
def namespaceAhead (ts : List Item) : Bool :=
  next (isKeyword .kwNamespace) ts &&
    second (fun i => isKind .name i || isKind .qualifiedName i || isMark .braceOpen i) ts

/-- Whether an item separates statements. -/
def separates (i : Item) : Bool :=
  isKind .openTag i || isKind .closeTag i || isKind .inlineHtml i || isMark .semicolon i

/-- What has been read of a file. -/
structure Draft where
  /-- The blocks before the current one. -/
  finished : List NamespaceBlock := []
  /-- The block that declarations go into. -/
  current : NamespaceBlock
  /-- Whether the current block has braces that are still open. -/
  isBraced : Bool := false
  /-- What was wrong so far. -/
  faults : List Fault := []

namespace Draft

/-- Starts a new block. -/
def enter (d : Draft) (block : NamespaceBlock) (isBraced : Bool) : Draft :=
  { d with finished := d.finished ++ [d.current], current := block, isBraced }

/-- Adds imports to the current block. -/
def addImports (d : Draft) (items : List Import) : Draft :=
  { d with current := { d.current with imports := d.current.imports ++ items } }

/-- Adds a class to the current block. -/
def addClass (d : Draft) (c : ClassLike) : Draft :=
  { d with current := { d.current with classes := d.current.classes ++ [c] } }

/-- Adds faults. -/
def addFaults (d : Draft) (faults : List Fault) : Draft :=
  { d with faults := d.faults ++ faults }

/-- Passes a closing brace, with the span of the token behind it. -/
def leave (d : Draft) (behind : Span) : Draft :=
  if d.isBraced then
    { d with isBraced := false, current := { d.current with span := d.current.span.merge behind } }
  else d

/-- All blocks that hold or name something. -/
def blocks (d : Draft) : List NamespaceBlock :=
  (d.finished ++ [d.current]).filter fun b =>
    b.name.isSome || !b.classes.isEmpty || !b.imports.isEmpty

end Draft

/-- Reads statements to the end of the file; `fresh` tells whether a statement may start here. -/
def readStatements (env : Env) (d : Draft) (fresh : Bool) (ts : List Item) : Draft :=
  match ts with
  | [] => d
  | t :: us =>
    if separates t then readStatements env d true us
    else if fresh && namespaceAhead (t :: us) then
      match readNamespace env t.token.span us with
      | ⟨.ok (block, isBraced), vs, suffix⟩ =>
        have := suffix.length_le
        readStatements env (d.enter block isBraced) true vs
      | ⟨.error fault, vs, suffix⟩ =>
        have := suffix.length_le
        have := resumeStatement_length_le vs
        readStatements env (d.addFaults [fault]) true (resumeStatement vs).rest
    else if fresh && isKeyword .kwUse t then
      match readImports env us with
      | ⟨.ok items, vs, suffix⟩ =>
        have := suffix.length_le
        readStatements env (d.addImports items) true vs
      | ⟨.error fault, vs, suffix⟩ =>
        have := suffix.length_le
        have := resumeStatement_length_le vs
        readStatements env (d.addFaults [fault]) true (resumeStatement vs).rest
    else if fresh && classAhead 0 (t :: us) then
      match h : readClass env (t :: us) with
      | ⟨.ok (c, faults), vs, _⟩ =>
        have : vs.length < us.length + 1 := by
          have := readClass_advances env (t :: us) (c, faults)
          rw [h] at this
          exact this rfl
        readStatements env ((d.addFaults faults).addClass c) true vs
      | ⟨.error faults, vs, suffix⟩ =>
        have : vs.length ≤ us.length + 1 := suffix.length_le
        have := resumeStatement_length_le vs
        readStatements env (d.addFaults faults) true (resumeStatement vs).rest
    else if isMark .braceOpen t then
      match skipToClose t.token.span 0 us with
      | ⟨.ok _, vs, suffix⟩ =>
        have := suffix.length_le
        readStatements env d true vs
      | ⟨.error fault, _, _⟩ => d.addFaults [fault]
    else if isMark .braceClose t then
      readStatements env (d.leave (env.current us).span) true us
    else readStatements env d false us
termination_by ts.length
decreasing_by
  all_goals simp_wf
  all_goals omega

/-! ### Files -/

/-- What came of reading a source text. -/
structure Parsed where
  /-- The declarations, or what is wrong with them. -/
  outcome : Except (List Fault) SourceFile
  /-- The faults of single tokens, which do not prevent declarations. -/
  lexErrors : List Source.LexError

/-- **Reads a source text.** -/
def parse (source : List Char) : Parsed :=
  let lexed := Source.tokenize source
  let items := attachComments [] lexed.tokens
  let eof := (items.getLast?.map (·.token)).getD default
  let env : Env := ⟨source, eof⟩
  let ts := items.dropLast
  let first := (env.current ts).span
  let d := readStatements env { current := { name := none, span := first } } true ts
  { lexErrors := lexed.errors
    outcome :=
      if d.faults.isEmpty then .ok { blocks := d.blocks, span := ⟨first.start, eof.span.stop⟩ }
      else .error d.faults }

end PhpHandbook.Declaration
