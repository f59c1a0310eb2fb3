import PhpHandbook.Handbook.Contents
import PhpHandbook.Handbook.Links
import PhpHandbook.Html

/-!
# Types on a page

A type is shown with every class in it linked: to its page, to the manual, or, where it has
neither, marked with its full name only.  Links inside the handbook are relative to the page they
stand on, unless a base address is set.

These are the writers of types in the HTML renderer: `Site` is what the renderer holds while it
writes a page, `Links.href` makes an address relative, `typeMarkup` writes a resolved type, and
`typeList` several of them with commas.
-/

namespace PhpHandbook.Handbook

/-- What the pages of one handbook share. -/
structure Site (reg : Registry) where
  /-- How links are made. -/
  links : Links
  /-- The title. -/
  title : String
  /-- The chapters that types refer to. -/
  contents : Contents reg
  /-- How Markdown is made HTML. -/
  toHtml : String → String

variable {reg : Registry}

/-- **The link from a page** to an address: an address inside the handbook is reached from the
page's own place. -/
def Links.href (links : Links) (page url : String) : String :=
  if !links.baseUrl.isEmpty || Text.occursIn "://" url || "/".toList.isPrefixOf url.toList then url
  else relativeRoot page ++ url

/-- The link to a chapter. -/
def Links.toChapter (links : Links) (c : Chapter reg) : Option String :=
  links.resolve c.name c.space c.isDocumented

/-- The link to the chapter with a number. -/
def Site.link? (site : Site reg) (id : ChapterId) : Option String :=
  (site.contents.get? id).bind site.links.toChapter

/-- A class in a type. -/
def classMarkup (site : Site reg) (page : String) (id : ChapterId) (name : String) : Html :=
  match site.link? id with
  | some url =>
    .element "a" [("href", site.links.href page url), ("title", name)]
      [.text (Text.lastPart '\\' name)]
  | none => .element "abbr" [("title", name)] [.text (Text.lastPart '\\' name)]

/-- A template in a type. -/
def templateMarkup (name : String) : Html :=
  .classed "span" "template" [.text name]

/-- Whether a member of a union or an intersection stands in parentheses. -/
def ResolvedType.isGrouped : ResolvedType → Bool
  | .union _ | .intersection _ | .callable .. => true
  | _ => false

/-- The marks of a parameter of a callable. -/
def slotMarks (byRef variadic : Bool) : Html :=
  .text ((if byRef then " &" else "") ++ (if variadic then "..." else ""))

mutual

/-- **A type** as it is shown on a page. -/
def typeMarkup (site : Site reg) (page : String) : ResolvedType → List Html
  | .named name generics => .text name :: genericMarkup site page generics
  | .linked id name generics => classMarkup site page id name :: genericMarkup site page generics
  | .template name => [templateMarkup name]
  | .union members => Html.separated "|" (memberMarkups site page members)
  | .intersection members => Html.separated "&" (memberMarkups site page members)
  | .callable name params returns =>
    typeMarkup site page name ++ [.text "("] ++
      Html.separated ", " (slotMarkups site page params) ++
      .text "): " :: typeMarkup site page returns
  | .conditional subject target yes no =>
    .text ("(" ++ subject ++ " is ") :: typeMarkup site page target ++
      .text " ? " :: typeMarkup site page yes ++
      .text " : " :: typeMarkup site page no ++ [.text ")"]

/-- The arguments of a type. -/
def genericMarkup (site : Site reg) (page : String) (generics : List ResolvedType) : List Html :=
  if generics.isEmpty then []
  else .text "<" :: Html.separated ", " (typeMarkups site page generics) ++ [.text ">"]

/-- Several types. -/
def typeMarkups (site : Site reg) (page : String) : List ResolvedType → List (List Html)
  | [] => []
  | t :: ts => typeMarkup site page t :: typeMarkups site page ts

/-- Members of a union or an intersection. -/
def memberMarkups (site : Site reg) (page : String) : List ResolvedType → List (List Html)
  | [] => []
  | t :: ts =>
    (if t.isGrouped then .text "(" :: typeMarkup site page t ++ [.text ")"]
      else typeMarkup site page t) :: memberMarkups site page ts

/-- Parameters of a callable. -/
def slotMarkups (site : Site reg) (page : String) :
    List (CallableSlot ResolvedType) → List (List Html)
  | [] => []
  | ⟨type, byRef, variadic⟩ :: params =>
    (typeMarkup site page type ++ [slotMarks byRef variadic]) :: slotMarkups site page params

end

/-- Types with commas between them. -/
def typeList (site : Site reg) (page : String) (types : List ResolvedType) : List Html :=
  Html.separated ", " (typeMarkups site page types)

end PhpHandbook.Handbook
