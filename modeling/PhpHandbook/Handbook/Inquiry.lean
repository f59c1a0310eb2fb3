import PhpHandbook.Handbook.Page

/-!
# Inquiries

All that a run can be asked, each with the kind of its answer.  A run that is asked one thing after
the other keeps what it has gathered from one inquiry to the next.

An `Inquiry` is a public request to the context of a run, to the descriptor of a class, to the
resolver of types or to the renderer of pages; `serve` is a client of one run that makes such
requests in any order.

## Main definitions

* `Inquiry`: what can be asked; `Inquiry.Answer`: what it is answered with.
* `Inquiry.perform`: answers one inquiry.
* `serve`: answers one inquiry after the other and keeps a log of the exchanges.
-/

namespace PhpHandbook.Handbook

open DocBlock (Document TypeExpr)
open Declaration (TypeHint)

variable {reg : Registry}

/-- **What a run can be asked.** -/
inductive Inquiry (reg : Registry) where
  /-- The chapter of a name. -/
  | chapter (name : String)
  /-- The chapter of a declaration. -/
  | chapterOf (entry : reg.Entry)
  /-- All chapters with a page. -/
  | documented
  /-- A facet of the chapter of a declaration. -/
  | facet (entry : reg.Entry) (facet : Facet)
  /-- A method of the chapter of a declaration. -/
  | method (entry : reg.Entry) (name : String)
  /-- A type in a comment, resolved at a declaration where the given templates are bound; `doc` is
  the comment that the type stands in, if it may bind further ones. -/
  | type (entry : reg.Entry) (templates : List String) (doc : Option Document) (type : TypeExpr)
  /-- A native type, resolved at a declaration. -/
  | hint (entry : reg.Entry) (templates : List String) (hint : Option TypeHint)
  /-- The page of a declaration, beside an outline of the listed ones. -/
  | classPage (title : String) (listed : List reg.Entry) (entry : reg.Entry)
  /-- The index page of the listed declarations. -/
  | indexPage (title : String) (listed : List reg.Entry)

namespace Inquiry

/-- **What an inquiry is answered with.** -/
@[reducible] def Answer : Inquiry reg → Type
  | .chapter _ => Option (Chapter reg)
  | .chapterOf _ => Chapter reg
  | .documented => List (Chapter reg)
  | .facet _ asked => Except ResolveError asked.Answer
  | .method _ _ => Except ResolveError (Option Method)
  | .type .. => Except ResolveError ResolvedType
  | .hint .. => ResolvedType
  | .classPage .. => Except ResolveError String
  | .indexPage .. => String

/-- **Answers an inquiry.** -/
def perform (rules : Links) (inquiry : Inquiry reg)
    (toHtml : String → String := Markdown.toHtml) : Gather reg inquiry.Answer :=
  match inquiry with
  | .chapter name => chapter? name
  | .chapterOf entry => Handbook.chapterOf entry
  | .documented => Handbook.documented
  | .facet entry asked => do
    let c ← Handbook.chapterOf entry
    (c.facet asked).run
  | .method entry name => do
    let c ← Handbook.chapterOf entry
    (c.method? name).run
  | .type entry templates doc written => do
    let r ← resolverWith entry templates
    (r.resolve doc written).run
  | .hint entry templates written => do
    let r ← resolverWith entry templates
    r.resolveHint? written
  | .classPage title listed entry => do
    let chapters ← listed.mapM Handbook.chapterOf
    let c ← Handbook.chapterOf entry
    (renderClass rules title (outlineOf chapters) c toHtml).run
  | .indexPage title listed => do
    let chapters ← listed.mapM Handbook.chapterOf
    renderIndex rules title (outlineOf chapters) toHtml

end Inquiry

/-- An inquiry with the answer that it got. -/
structure Exchange (reg : Registry) where
  inquiry : Inquiry reg
  answer : inquiry.Answer

/-- **Answers one inquiry after the other.** -/
def serve (rules : Links) (toHtml : String → String) :
    List (Inquiry reg) → Gather reg (List (Exchange reg))
  | [] => pure []
  | inquiry :: rest => do
    let answer ← inquiry.perform rules toHtml
    let log ← serve rules toHtml rest
    pure (⟨inquiry, answer⟩ :: log)

end PhpHandbook.Handbook
