import PhpHandbook.DocBlock.Block
import PhpHandbook.DocBlock.Tag

/-!
# Documents

What a documentation comment says, with its tags sorted by what they are about.  Where a comment
may say a thing once, the first tag counts, except that a tag for an analysis tool takes the
place of a plain one.  For parameters that rule holds for each name, and a parameter keeps the
place of its first tag.

This is the last step of the parser of documentation comments, which aggregates the tags: a `Slot`
is taken by one tag, with a mark whether that was one for a tool, `Document.absorb` adds a tag, and
`Document.ofComment` parses a whole comment.
-/

namespace PhpHandbook.DocBlock

/-- A thing that is said at most once. -/
structure Slot (α : Type) where
  /-- What was said. -/
  value : Option α := none
  /-- Whether it was said for an analysis tool. -/
  fromTool : Bool := false
deriving Repr

/-- Offers a further value: it is taken by an empty slot, and by one that holds a plain value if
it comes from a tag for an analysis tool. -/
def Slot.offer {α : Type} (slot : Slot α) (forTool : Bool) (a : α) : Slot α :=
  if slot.value.isNone || (forTool && !slot.fromTool) then ⟨some a, forTool⟩ else slot

/-- **A document.** -/
structure Document where
  /-- The templates, in order. -/
  templates : List TemplateTag := []
  /-- The parent with its arguments. -/
  extending : Slot TypeTag := {}
  /-- The interfaces with their arguments, in order. -/
  implementing : List TypeTag := []
  /-- The type of a variable. -/
  var : Slot VarTag := {}
  /-- What is returned. -/
  returning : Slot TypeTag := {}
  /-- The parameters, each with a mark whether it comes from a tag for an analysis tool. -/
  paramSlots : List (ParamTag × Bool) := []
  /-- What parameters hold after the call. -/
  paramOuts : List ParamOutTag := []
  /-- The exceptions, in order. -/
  throwing : List TypeTag := []
  /-- The trait with its arguments. -/
  usedTrait : Slot TypeTag := {}
  /-- Why the thing should no longer be used. -/
  deprecated : Option String := none
  /-- The assertions, in order. -/
  asserts : List AssertTag := []
  /-- The paragraphs, in order. -/
  texts : List String := []
  /-- All tags, in order. -/
  tags : List Tag := []
deriving Repr, Inhabited

namespace Document

/-- Offers a tag for a parameter; the rule of `Slot.offer` holds for each name. -/
def offerParam (forTool : Bool) (tag : ParamTag) :
  List (ParamTag × Bool) → List (ParamTag × Bool)
  | [] => [(tag, forTool)]
  | (old, oldTool) :: more =>
    if old.name = tag.name then
      (if forTool && !oldTool then (tag, forTool) else (old, oldTool)) :: more
    else (old, oldTool) :: offerParam forTool tag more

/-- The document with one more tag sorted into its place. -/
def absorb (doc : Document) (tag : Tag) : Document :=
  let forTool := tag.isForTool
  match tag.value with
  | .template t => { doc with templates := doc.templates ++ [t] }
  | .implementing t => { doc with implementing := doc.implementing ++ [t] }
  | .throwing t => { doc with throwing := doc.throwing ++ [t] }
  | .assert t => { doc with asserts := doc.asserts ++ [t] }
  | .extending t => { doc with extending := doc.extending.offer forTool t }
  | .returning t => { doc with returning := doc.returning.offer forTool t }
  | .var t => { doc with var := doc.var.offer forTool t }
  | .usingTrait t => { doc with usedTrait := doc.usedTrait.offer forTool t }
  | .param t => { doc with paramSlots := offerParam forTool t doc.paramSlots }
  | .paramOut t =>
    if doc.paramOuts.any (·.name == t.name) then doc
    else { doc with paramOuts := doc.paramOuts ++ [t] }
  | .deprecated text => { doc with deprecated := some (doc.deprecated.getD text) }
  | .plain _ | .invalid .. => doc

/-- The document with one more block. -/
def add (doc : Document) : Block → Document
  | .text lines => { doc with texts := doc.texts ++ ["\n".intercalate lines] }
  | .tag name body =>
    let tag := Tag.ofBody name ("\n".intercalate body)
    let doc := doc.absorb tag
    { doc with tags := doc.tags ++ [tag] }

/-- **Reads a comment.** -/
def ofComment (comment : String) : Document :=
  (blocks comment).foldl add {}

/-- The paragraphs as one text. -/
def description (doc : Document) : String :=
  "\n\n".intercalate doc.texts

/-- The first paragraph. -/
def summary? (doc : Document) : Option String :=
  doc.texts.head?

/-- Whether the comment says nothing. -/
def isEmpty (doc : Document) : Bool :=
  doc.texts.isEmpty && doc.tags.isEmpty

/-- The parameters in order. -/
def params (doc : Document) : List ParamTag :=
  doc.paramSlots.map (·.1)

/-- What is said about a parameter, given with or without its dollar sign. -/
def param? (doc : Document) (name : String) : Option ParamTag :=
  let full := if name.toList.head? == some '$' then name else "$" ++ name
  doc.params.find? (·.name == full)

/-- The names of the templates. -/
def templateNames (doc : Document) : List String :=
  doc.templates.map (·.name)

/-- The tags without a form of their own, as names and bodies. -/
def plainTags (doc : Document) : List (String × String) :=
  doc.tags.filterMap fun tag =>
    match tag.value with
    | .plain body => some (tag.name, body)
    | _ => none

end Document

end PhpHandbook.DocBlock
