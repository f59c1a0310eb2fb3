import PhpHandbook.Handbook.Sheet
import PhpHandbook.Handbook.StyleSheet
import PhpHandbook.Handbook.TypeMarkup
import PhpHandbook.Markdown.Html

/-!
# Pages

The page of a class and the index page.  Both have the outline of the whole handbook at their
side.  A page is a tree of `Html`; only descriptions, which are Markdown, and the style sheet
enter as ready markup.

This is the HTML renderer of the generator.  Each function that ends in `Markup` writes one part of
a page: the navigation, the hierarchy, the templates, a member, a comment; `renderClass` renders the
page of a descriptor and `renderIndex` the index.

## Main definitions

* `classPage`: the page of a class.
* `indexPage`: the page that lists all classes by namespace.
-/

namespace PhpHandbook.Handbook

open DocBlock (Document)
open Html (line block classed plain anchor)

variable {reg : Registry}

/-- The name and version of the program, as pages show it. -/
def generatorName : String :=
  "apidoc 0.3.0"

/-- A keyword and a blank, if it applies. -/
def keywordIf (applies : Bool) (keyword : String) : String :=
  if applies then keyword ++ " " else ""

/-! ### Parts that all pages share -/

mutual

/-- The outline at the side of a page. -/
def navigation (site : Site reg) (page : String) : Section (Chapter reg) → List Html
  | .mk _ sections items =>
    if sections.isEmpty && items.isEmpty then []
    else block "  " "ul" [] (navigationSections site page sections ++
      items.flatMap fun (_, c) =>
        let target := outputPath c.name
        let attributes := if target = page then [("class", "current")] else []
        line "    " [.element "li" attributes
          [anchor (site.links.href page target) c.basename]])

/-- The namespaces in the outline. -/
def navigationSections (site : Site reg) (page : String) :
    List (String × Section (Chapter reg)) → List Html
  | [] => []
  | (_, s) :: rest =>
    line "    " [classed "li" "namespace"
      (.text s.basename :: .text "\n" :: navigation site page s ++ [.text "    "])] ++
    navigationSections site page rest

end

/-- A whole page around its main part. -/
def layout (site : Site reg) (outline : Outline (Chapter reg)) (page title : String)
    (main : List Html) : List Html :=
  .ready "<!DOCTYPE html>\n" :: line "" [.element "html" [("lang", "en")] (
    .text "\n" ::
    block "" "head" [] (
      line "  " [.single "meta" [("charset", "UTF-8")]] ++
      line "  " [.single "meta" [("name", "viewport"),
        ("content", "width=device-width, initial-scale=1.0")]] ++
      line "  " [plain "title" [.text title, .text " - ", .text site.title]] ++
      line "" [plain "style" [.ready styleSheet]]) ++
    block "" "body" [] (
      block "" "nav" [("class", "sidebar")] (
        block "  " "div" [("class", "sidebar-header")]
          (line "    " [plain "h2" [anchor (site.links.href page "index.html") site.title]]) ++
        navigation site page outline.root) ++
      block "" "main" [("class", "content")] main ++
      block "" "footer" [] (line "  " [plain "p" [.text ("Generated by " ++ generatorName)]])))]

/-! ### Comments -/

/-- What a comment says beside types. -/
def docMarkup (toHtml : String → String) (doc : Document) : List Html :=
  (match doc.deprecated with
    | some text =>
      line "    " [classed "p" "deprecated" (.text "Deprecated" ::
        if text.isEmpty then [] else [.text ": ", .ready (Markdown.toInlineHtml toHtml text)])]
    | none => []) ++
  (if doc.texts.isEmpty then []
    else block "    " "div" [("class", "description")] [.ready (toHtml doc.description)]) ++
  (if doc.plainTags.isEmpty then []
    else block "    " "dl" [("class", "tags")] (doc.plainTags.flatMap fun (name, body) =>
      line "      " [plain "dt" [.text ("@" ++ name)], plain "dd" [.text body]]))

/-- A template with its bound and its default. -/
def boundTemplateMarkup (site : Site reg) (page : String) (t : Template) : List Html :=
  .text (keywordIf t.variance.keyword?.isSome (t.variance.keyword?.getD "")) ::
    templateMarkup t.name ::
    (t.bound.elim [] fun bound => .text " of " :: typeMarkup site page bound) ++
    (t.fallback.elim [] fun fallback => .text " = " :: typeMarkup site page fallback)

/-- Templates in angle brackets. -/
def templatesMarkup (site : Site reg) (page : String) (templates : List Template) : List Html :=
  if templates.isEmpty then []
  else [classed "span" "templates" (.text "<" ::
    Html.separated ", " (templates.map (boundTemplateMarkup site page)) ++ [.text ">"])]

/-! ### Members -/

/-- The source text of a value behind an equals sign. -/
def valueMarkup (value : Option String) : List Html :=
  value.elim [] fun value => [.text (" = " ++ value)]

/-- A member: its anchor, its parts and its comment. -/
def itemMarkup (id : String) (content : List Html) : List Html :=
  line "  " [.anchored "div" [("class", "item")] id (.text "\n" :: content ++ [.text "  "])]

/-- The line with the signature of a member. -/
def signature (content : List Html) : List Html :=
  line "    " [classed "div" "signature" content]

/-- A constant or a case. -/
def constantMarkup (site : Site reg) (page : String) (c : Constant) : List Html :=
  itemMarkup c.anchor (
    signature (
      (if c.isCase then [.text ("case " ++ c.name)]
        else .text (keywordIf c.isFinal "final" ++ c.visibility.keyword ++ " const ") ::
          (c.docType.elim [] fun type => typeMarkup site page type ++ [.text " "]) ++
          [.text c.name]) ++
      valueMarkup c.value) ++
    docMarkup site.toHtml c.doc)

/-- A property. -/
def propertyMarkup (site : Site reg) (page : String) (p : Property) : List Html :=
  itemMarkup p.anchor (
    signature (
      .text (keywordIf p.isFinal "final" ++ keywordIf p.isAbstract "abstract" ++
        p.access.keyword ++ " " ++ keywordIf p.isStatic "static" ++
        keywordIf p.isReadonly "readonly") ::
      typeMarkup site page p.type ++ .text (" $" ++ p.name) :: valueMarkup p.fallback) ++
    (if p.isPromoted then
      line "    " [classed "p" "origin" [.text "Promoted constructor parameter"]]
      else []) ++
    docMarkup site.toHtml p.doc)

/-- A parameter in the signature of a method. -/
def parameterMarkup (site : Site reg) (page : String) (p : Parameter) : List Html :=
  typeMarkup site page p.docType ++
    .text (" " ++ (if p.byRef then "&" else "") ++ (if p.variadic then "..." else "") ++ "$" ++
      p.name) ::
    valueMarkup p.fallback

/-- A part of the description of a method under a heading of its own. -/
def detail (className heading : String) (content : List Html) : List Html :=
  block "    " "div" [("class", className)]
    (line "      " [plain "h4" [.text heading]] ++ content)

/-- What is said about a parameter of a method. -/
def parameterDetail (site : Site reg) (page : String) (p : Parameter) : List Html :=
  line "        " [plain "li" (plain "code" [.text ("$" ++ p.name)] :: .text " " ::
    typeMarkup site page p.docType ++
      [.text " - ", .ready (Markdown.toInlineHtml site.toHtml p.description)])]

/-- What is said about the parameters of a method. -/
def parameterDetails (site : Site reg) (page : String) (params : List Parameter) : List Html :=
  let described := params.filter (!·.description.isEmpty)
  if described.isEmpty then []
  else detail "params" "Parameters"
    (block "      " "ul" [] (described.flatMap (parameterDetail site page)))

/-- What is said about the result of a method. -/
def returnDetails (toHtml : String → String) (doc : Document) : List Html :=
  match doc.returning.value with
  | some tag =>
    if tag.description.isEmpty then []
    else detail "returns" "Returns"
      (line "      " [.ready (Text.trimEnd (toHtml tag.description))])
  | none => []

/-- What is said about an exception of a method. -/
def throwDetail (site : Site reg) (page : String) (type : ResolvedType) (description : String) :
    List Html :=
  line "        " [plain "li" (typeMarkup site page type ++
    if description.isEmpty then []
    else [.text " - ", .ready (Markdown.toInlineHtml site.toHtml description)])]

/-- What is said about the exceptions of a method. -/
def throwDetails (site : Site reg) (page : String) (m : Method) : List Html :=
  if m.throws.isEmpty then []
  else detail "throws" "Throws" (block "      " "ul" []
    ((m.throws.zip m.doc.throwing).flatMap fun (type, tag) =>
      throwDetail site page type tag.description))

/-- A method. -/
def methodMarkup (site : Site reg) (page : String) (m : Method) : List Html :=
  itemMarkup m.anchor (
    line "    " [plain "h3" [plain "code" [.text (m.name ++ "()")]]] ++
    signature (
      .text (keywordIf m.isFinal "final" ++ keywordIf m.isAbstract "abstract" ++
        m.visibility.keyword ++ " " ++ keywordIf m.isStatic "static" ++ "function " ++
        (if m.returnsReference then "&" else "") ++ m.name) ::
      templatesMarkup site page m.templates ++ .text "(" ::
      Html.separated ", " (m.params.map (parameterMarkup site page)) ++ .text "): " ::
      typeMarkup site page m.returnDocType) ++
    (m.origin.elim [] fun origin =>
      line "    " [classed "p" "origin" (.text "Declared in " :: typeMarkup site page origin)]) ++
    (if m.interfaceOrigins.isEmpty then []
      else line "    " [classed "p" "origin"
        (.text "Specified by " :: typeList site page m.interfaceOrigins)]) ++
    docMarkup site.toHtml m.doc ++ parameterDetails site page m.params ++
    returnDetails site.toHtml m.doc ++ throwDetails site page m)

/-! ### The page of a class -/

/-- What a class extends, implements and uses. -/
def hierarchyMarkup (site : Site reg) (page : String) (s : Sheet reg) : List Html :=
  let entry (label : String) (content : List Html) : List Html :=
    line "  " [plain "dt" [.text label], plain "dd" content]
  let interfaces := if s.chapter.entry.1.kind = .interface then "Extends" else "Implements"
  if s.parent.isNone && s.interfaces.isEmpty && s.traits.isEmpty then []
  else block "" "dl" [("class", "hierarchy")] (
    (s.parent.elim [] fun parent => entry "Extends" (typeMarkup site page parent)) ++
    (if s.interfaces.isEmpty then [] else entry interfaces (typeList site page s.interfaces)) ++
    (if s.traits.isEmpty then [] else entry "Uses" (typeList site page s.traits)))

/-- A section with members, if there are any. -/
def memberSection {α : Type} (id heading : String) (entry : α → List Html) (members : List α) :
    List Html :=
  if members.isEmpty then []
  else block "" "section" [("id", id)]
    (line "  " [plain "h2" [.text heading]] ++ members.flatMap entry)

/-- The keywords in front of the name of a class. -/
def classKeywords (c : Chapter reg) : String :=
  let m := c.entry.1.decl.modifiers
  keywordIf m.isFinal "final" ++ keywordIf m.isAbstract "abstract" ++
    keywordIf m.isReadonly "readonly" ++ c.entry.1.kind.keyword

/-- **The page of a class.** -/
def classPage (site : Site reg) (outline : Outline (Chapter reg)) (s : Sheet reg) : List Html :=
  let page := outputPath s.chapter.name
  let constants := if s.chapter.entry.1.kind = .enum then "Cases and constants" else "Constants"
  layout site outline page s.chapter.name (
    block "" "header" [] (
      (if s.chapter.space.isEmpty then []
        else line "  " [classed "p" "namespace" [.text s.chapter.space]]) ++
      line "  " [plain "h1" (classed "span" "kind" [.text (classKeywords s.chapter)] :: .text " " ::
        .text s.chapter.basename :: templatesMarkup site page s.templates)]) ++
    hierarchyMarkup site page s ++
    docMarkup site.toHtml s.doc ++
    memberSection "constants" constants (constantMarkup site page) s.constants ++
    memberSection "properties" "Properties" (propertyMarkup site page) s.properties ++
    memberSection "methods" "Methods" (methodMarkup site page) s.methods)

/-! ### The index page -/

/-- The classes of one namespace on the index page. -/
def indexEntries (site : Site reg) (page name : String) (items : List (String × Summary reg)) :
    List Html :=
  if items.isEmpty then []
  else block "" "section" [] (
    line "  " [plain "h2" [.text (if name.isEmpty then "Global namespace" else name)]] ++
    block "  " "dl" [("class", "structures")] (items.flatMap fun (_, s) =>
      line "    " [plain "dt" [
        anchor (site.links.href page (outputPath s.chapter.name)) s.chapter.basename, .text " ",
        classed "span" "kind" [.text s.chapter.entry.1.kind.keyword]]] ++
      s.text.elim [] fun text => line "    " [plain "dd" [.text text]]))

mutual

/-- A namespace on the index page, behind the namespaces in it. -/
def indexSection (site : Site reg) (page : String) : Section (Summary reg) → List Html
  | .mk name sections items => indexSections site page sections ++ indexEntries site page name items

/-- Several namespaces on the index page. -/
def indexSections (site : Site reg) (page : String) :
    List (String × Section (Summary reg)) → List Html
  | [] => []
  | (_, s) :: rest => indexSection site page s ++ indexSections site page rest

end

/-- **The index page.** -/
def indexPage (site : Site reg) (outline : Outline (Chapter reg)) (root : Section (Summary reg)) :
    List Html :=
  layout site outline "index.html" site.title (
    block "" "header" [] (line "  " [plain "h1" [.text site.title]]) ++
    indexSection site "index.html" root)

/-! ### Printed pages -/

/-- The printed page of a class. -/
def renderClass (links : Links) (title : String) (outline : Outline (Chapter reg))
    (chapter : Chapter reg) (toHtml : String → String := Markdown.toHtml) : Query reg String := do
  let sheet ← chapter.sheet
  let run ← get
  pure (Html.printAll (classPage ⟨links, title, run.contents, toHtml⟩ outline sheet))

/-- The printed index page. -/
def renderIndex (links : Links) (title : String) (outline : Outline (Chapter reg))
    (toHtml : String → String := Markdown.toHtml) : Gather reg String := do
  let root ← summarize outline.root
  let run ← get
  pure (Html.printAll (indexPage ⟨links, title, run.contents, toHtml⟩ outline root))

end PhpHandbook.Handbook
