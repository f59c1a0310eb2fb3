import PhpHandbook.Proofs.PageNesting
import PhpHandbook.Proofs.References
import PhpHandbook.Proofs.RelativeLinks

/-!
# References in types lead to their pages

All that has a title on a page is a class in a type, and its title is the full name of the class.
So the elements with titles tell what the types on a page refer to.  They are collected from the
page part by part, and found to be one for each reference in the types that the page shows, in their
order.

In a run every such reference leads to the chapter of the class beside it.  If that has a page of
its own, the element is a link, and whoever follows it from the page that it stands on comes to that
page.

## Main definitions

* `Html.titledIn`: the elements with titles in pieces of a page, in order.
* `Sheet.types`: the types that the page of a class shows, in the order of the page.
* `IsLinkTo`: a link that leads from its page to the page of a class.

## Main statements

* `titledIn_classPage`, `titledIn_indexPage`: the elements with titles on both kinds of pages.
* `links_lead_to_pages`: links lead from page to page, and every reference to a documented class in
  the types of a page is such a link.
-/

namespace PhpHandbook

/-! ### Elements with titles -/

namespace Html

mutual

/-- The elements with titles in a piece, in the order of the page. -/
def titled : Html → List Html
  | .element tag attributes content =>
    (if attributes.any (·.1 == "title") then [.element tag attributes content] else []) ++
      titledIn content
  | .anchored tag attributes id content =>
    (if attributes.any (·.1 == "title") then [.anchored tag attributes id content] else []) ++
      titledIn content
  | .single tag attributes =>
    if attributes.any (·.1 == "title") then [.single tag attributes] else []
  | .text _ | .ready _ => []

/-- **The elements with titles** in several pieces. -/
def titledIn : List Html → List Html
  | [] => []
  | h :: hs => h.titled ++ titledIn hs

end

theorem titledIn_eq (hs : List Html) : titledIn hs = hs.flatMap titled := by
  induction hs with
  | nil => rfl
  | cons h hs ih => rw [titledIn, ih, List.flatMap_cons]

variable (tag indent : String) {attributes : List (String × String)} (content more : List Html)

@[simp]
theorem titledIn_nil : titledIn [] = [] :=
  rfl

@[simp]
theorem titledIn_cons (h : Html) : titledIn (h :: more) = h.titled ++ titledIn more :=
  rfl

@[simp]
theorem titledIn_append : titledIn (content ++ more) = titledIn content ++ titledIn more := by
  rw [titledIn_eq, titledIn_eq, titledIn_eq, List.flatMap_append]

theorem titledIn_flatMap {α : Type} (f : α → List Html) (as : List α) :
    titledIn (as.flatMap f) = as.flatMap fun a => titledIn (f a) := by
  rw [titledIn_eq, List.flatMap_assoc]
  exact List.flatMap_congr fun a _ => (titledIn_eq _).symm

theorem titledIn_separated (separator : String) (pieces : List (List Html)) :
    titledIn (separated separator pieces) = pieces.flatMap titledIn := by
  rw [titledIn_eq, Handbook.flatMap_separated fun _ => rfl]
  exact List.flatMap_congr fun piece _ => (titledIn_eq piece).symm

@[simp]
theorem titledIn_ite {p : Prop} [Decidable p] :
    titledIn (if p then content else more) = if p then titledIn content else titledIn more :=
  apply_ite titledIn p content more

@[simp]
theorem titledIn_elim {α : Type} (o : Option α) (f : α → List Html) :
    titledIn (o.elim content f) = o.elim (titledIn content) fun a => titledIn (f a) := by
  cases o <;> rfl

@[simp]
theorem titled_text (s : String) : (text s).titled = [] :=
  rfl

@[simp]
theorem titled_ready (markup : String) : (ready markup).titled = [] :=
  rfl

/-- An element without a title has the elements with titles of its content. -/
@[simp]
theorem titled_element (h : ∀ a ∈ attributes, a.1 ≠ "title") :
    (element tag attributes content).titled = titledIn content := by
  have hnone : attributes.any (·.1 == "title") = false := by simpa using h
  rw [titled, hnone]
  rfl

@[simp]
theorem titled_anchored (h : ∀ a ∈ attributes, a.1 ≠ "title") (id : String) :
    (anchored tag attributes id content).titled = titledIn content := by
  have hnone : attributes.any (·.1 == "title") = false := by simpa using h
  rw [titled, hnone]
  rfl

@[simp]
theorem titled_single (h : ∀ a ∈ attributes, a.1 ≠ "title") :
    (single tag attributes).titled = [] := by
  have hnone : attributes.any (·.1 == "title") = false := by simpa using h
  rw [titled, hnone]
  rfl

@[simp]
theorem titled_plain : (plain tag content).titled = titledIn content :=
  titled_element tag content (by simp)

@[simp]
theorem titled_classed (className : String) :
    (classed tag className content).titled = titledIn content :=
  titled_element tag content (by simp)

@[simp]
theorem titled_anchor (href label : String) : (anchor href label).titled = [] :=
  rfl

@[simp]
theorem titledIn_line : titledIn (line indent content) = titledIn content := by
  simp [line]

@[simp]
theorem titledIn_block (h : ∀ a ∈ attributes, a.1 ≠ "title") :
    titledIn (block indent tag attributes content) = titledIn content := by
  rw [block, titledIn_line, titledIn_cons, titled_element tag _ h]
  simp

end Html

namespace Handbook

open DocBlock (Document)
open Html
open Registry (registerAll)
open ResolvedType (references)

/-! ### The types that a page shows -/

/-- The types that are shown of a template. -/
def Template.types (t : Template) : List ResolvedType :=
  t.bound.toList ++ t.fallback.toList

/-- The types that are shown of a constant; a case has none. -/
def Constant.types (c : Constant) : List ResolvedType :=
  if c.isCase then [] else c.docType.toList

/-- The types that are shown of a method: those in its signature, where it comes from, and those in
its description. -/
def Method.types (m : Method) : List ResolvedType :=
  m.templates.flatMap (·.types) ++ m.params.map (·.docType) ++ [m.returnDocType] ++
    m.origin.toList ++ m.interfaceOrigins ++
    (m.params.filter (!·.description.isEmpty)).map (·.docType) ++
    (m.throws.zip m.doc.throwing).map (·.1)

variable {reg : Registry}

/-- **The types that the page of a class shows**, in the order of the page. -/
def Sheet.types (s : Sheet reg) : List ResolvedType :=
  s.templates.flatMap (·.types) ++ s.parent.toList ++ s.interfaces ++ s.traits ++
    s.constants.flatMap (·.types) ++ s.properties.map (·.type) ++ s.methods.flatMap (·.types)

variable (site : Site reg) (page : String)

/-- **The classes in a type** as they are shown on a page, one for each reference. -/
def classesIn (t : ResolvedType) : List Html :=
  t.references.map fun l => classMarkup site page l.1 l.2

/-! ### Types -/

theorem titled_classMarkup (id : ChapterId) (name : String) :
    (classMarkup site page id name).titled = [classMarkup site page id name] := by
  unfold classMarkup
  split <;> simp [titled]

theorem titled_templateMarkup (name : String) : (templateMarkup name).titled = [] := by
  simp [templateMarkup]

/-- **The elements with titles in a type** are the classes in it. -/
@[simp]
theorem titledIn_typeMarkup (t : ResolvedType) :
    titledIn (typeMarkup site page t) = classesIn site page t := by
  rw [titledIn_eq, flatMap_typeMarkup fun _ => rfl, classesIn, references]
  simp only [titled_classMarkup, titled_templateMarkup]
  induction t.walk with
  | nil => rfl
  | cons u us ih =>
    rw [List.flatMap_cons, ih]
    cases u <;> rfl

@[simp]
theorem titledIn_typeList (ts : List ResolvedType) :
    titledIn (typeList site page ts) = ts.flatMap (classesIn site page) := by
  rw [typeList, titledIn_separated, typeMarkups_eq, List.flatMap_map]
  exact List.flatMap_congr fun t _ => titledIn_typeMarkup site page t

/-- What is shown of a type that may be missing. -/
@[simp]
theorem elim_classesIn (o : Option ResolvedType) :
    o.elim [] (classesIn site page) = o.toList.flatMap (classesIn site page) := by
  cases o <;> simp

/-! ### Comments and members -/

@[simp]
theorem titledIn_docMarkup (toHtml : String → String) (doc : Document) :
    titledIn (docMarkup toHtml doc) = [] := by
  rw [docMarkup]
  split <;> simp [titledIn_flatMap]

@[simp]
theorem titledIn_valueMarkup (value : Option String) : titledIn (valueMarkup value) = [] := by
  cases value <;> rfl

theorem titledIn_boundTemplateMarkup (t : Template) :
    titledIn (boundTemplateMarkup site page t) = t.types.flatMap (classesIn site page) := by
  simp [boundTemplateMarkup, Template.types, titled_templateMarkup]

@[simp]
theorem titledIn_templatesMarkup (ts : List Template) :
    titledIn (templatesMarkup site page ts)
      = (ts.flatMap (·.types)).flatMap (classesIn site page) := by
  have hinside : titledIn (separated ", " (ts.map (boundTemplateMarkup site page)))
      = (ts.flatMap (·.types)).flatMap (classesIn site page) := by
    rw [titledIn_separated, List.flatMap_map, List.flatMap_assoc]
    exact List.flatMap_congr fun t _ => titledIn_boundTemplateMarkup site page t
  rw [templatesMarkup]
  split
  next hempty =>
    obtain rfl := List.isEmpty_iff.1 hempty
    rfl
  · simp [hinside]

@[simp]
theorem titledIn_itemMarkup (id : String) (content : List Html) :
    titledIn (itemMarkup id content) = titledIn content := by
  simp [itemMarkup]

@[simp]
theorem titledIn_signature (content : List Html) :
    titledIn (signature content) = titledIn content := by
  simp [signature]

theorem titledIn_constantMarkup (c : Constant) :
    titledIn (constantMarkup site page c) = c.types.flatMap (classesIn site page) := by
  rw [constantMarkup, Constant.types]
  split <;> simp

theorem titledIn_propertyMarkup (p : Property) :
    titledIn (propertyMarkup site page p) = classesIn site page p.type := by
  simp [propertyMarkup]

theorem titledIn_parameterMarkup (p : Parameter) :
    titledIn (parameterMarkup site page p) = classesIn site page p.docType := by
  simp [parameterMarkup]

@[simp]
theorem titledIn_detail (className heading : String) (content : List Html) :
    titledIn (detail className heading content) = titledIn content := by
  simp [detail]

theorem titledIn_parameterDetails (params : List Parameter) :
    titledIn (parameterDetails site page params)
      = (params.filter (!·.description.isEmpty)).flatMap fun p =>
        classesIn site page p.docType := by
  unfold parameterDetails
  generalize params.filter (!·.description.isEmpty) = described
  cases described with
  | nil => rfl
  | cons p ps => simp [titledIn_flatMap, parameterDetail]

@[simp]
theorem titledIn_returnDetails (toHtml : String → String) (doc : Document) :
    titledIn (returnDetails toHtml doc) = [] := by
  unfold returnDetails
  split <;> simp

theorem titledIn_throwDetails (m : Method) :
    titledIn (throwDetails site page m)
      = (m.throws.zip m.doc.throwing).flatMap fun p => classesIn site page p.1 := by
  rw [throwDetails]
  split
  next hempty =>
    rw [List.isEmpty_iff.1 hempty]
    rfl
  · simp [titledIn_flatMap, throwDetail]

/-- **The elements with titles in a method** are the classes in its types. -/
theorem titledIn_methodMarkup (m : Method) :
    titledIn (methodMarkup site page m) = m.types.flatMap (classesIn site page) := by
  have hparams : titledIn (separated ", " (m.params.map (parameterMarkup site page)))
      = m.params.flatMap fun p => classesIn site page p.docType := by
    rw [titledIn_separated, List.flatMap_map]
    exact List.flatMap_congr fun p _ => titledIn_parameterMarkup site page p
  have hinterfaces : (if m.interfaceOrigins = [] then []
      else m.interfaceOrigins.flatMap (classesIn site page))
        = m.interfaceOrigins.flatMap (classesIn site page) := by
    cases m.interfaceOrigins <;> simp
  simp [methodMarkup, Method.types, hparams, titledIn_parameterDetails, titledIn_throwDetails,
    hinterfaces, List.flatMap_map]

/-! ### Pages -/

theorem titledIn_navigation (s : Section (Chapter reg)) :
    titledIn (navigation site page s) = [] := by
  induction s using Section.induction with
  | mk name sections items ih =>
    have hsections : titledIn (navigationSections site page sections) = [] := by
      rw [navigationSections_eq, titledIn_flatMap, List.flatMap_eq_nil_iff]
      exact fun p hp => by simp [ih p hp]
    rw [navigation]
    split
    · rfl
    · simp [hsections, titledIn_flatMap]

@[simp]
theorem titledIn_layout (outline : Outline (Chapter reg)) (title : String) (main : List Html) :
    titledIn (layout site outline page title main) = titledIn main := by
  simp [layout, titledIn_navigation]

theorem titledIn_hierarchyMarkup (s : Sheet reg) : titledIn (hierarchyMarkup site page s)
    = (s.parent.toList ++ s.interfaces ++ s.traits).flatMap (classesIn site page) := by
  have hlist : ∀ ts : List ResolvedType,
      (if ts = [] then [] else ts.flatMap (classesIn site page))
        = ts.flatMap (classesIn site page) := by
    intro ts
    cases ts <;> simp
  unfold hierarchyMarkup
  dsimp only
  split
  next hnone =>
    obtain ⟨⟨hparent, hinterfaces⟩, htraits⟩ :
        (s.parent = none ∧ s.interfaces = []) ∧ s.traits = [] := by
      simpa using hnone
    simp [hparent, hinterfaces, htraits]
  · simp [hlist]

theorem titledIn_memberSection {α : Type} (id heading : String) (entry : α → List Html)
    (members : List α) :
    titledIn (memberSection id heading entry members) = members.flatMap fun m =>
      titledIn (entry m) := by
  rw [memberSection]
  split
  next hempty =>
    obtain rfl := List.isEmpty_iff.1 hempty
    rfl
  · simp [titledIn_flatMap]

/-- **The elements with titles on the page of a class** are the classes in the types that it
shows. -/
theorem titledIn_classPage (outline : Outline (Chapter reg)) (s : Sheet reg) :
    titledIn (classPage site outline s)
      = s.types.flatMap (classesIn site (outputPath s.chapter.name)) := by
  simp [classPage, Sheet.types, titledIn_hierarchyMarkup, titledIn_memberSection,
    titledIn_constantMarkup, titledIn_propertyMarkup, titledIn_methodMarkup, List.flatMap_map,
    List.flatMap_assoc]

/-- **No elements have titles on the index page.** -/
theorem titledIn_indexPage (outline : Outline (Chapter reg)) (listing : Section (Summary reg)) :
    titledIn (indexPage site outline listing) = [] := by
  have hsummary : ∀ o : Option String, (o.elim [] fun _ => []) = ([] : List Html) := by
    intro o
    cases o <;> rfl
  have hsection :
      ∀ s : Section (Summary reg), titledIn (indexSection site "index.html" s) = [] := by
    intro s
    induction s using Section.induction with
    | mk name sections items ih =>
      have hsections : titledIn (indexSections site "index.html" sections) = [] := by
        rw [indexSections_eq, titledIn_flatMap, List.flatMap_eq_nil_iff]
        exact ih
      rw [indexSection, titledIn_append, hsections, indexEntries]
      split
      · rfl
      · simp [titledIn_flatMap, hsummary]
  simp [indexPage, hsection]

/-! ### References that lead to pages -/

section Valid

variable {contents : Contents reg}

/-- The types that are shown of a template that is valid. -/
theorem Valid.templateTypes {t : Template} (h : Valid contents t) :
    ∀ u ∈ t.types, Valid contents u := by
  have h : Valid contents (t.bound, t.fallback) := h
  exact List.forall_mem_append.2 ⟨fun u => h.fst.of_mem_toList, fun u => h.snd.of_mem_toList⟩

theorem Valid.constantTypes {c : Constant} (h : Valid contents c) :
    ∀ u ∈ c.types, Valid contents u := by
  have h : Valid contents (c.type, c.docType) := h
  rw [Constant.types]
  split
  · exact fun u hu => nomatch hu
  · exact fun u => h.snd.of_mem_toList

theorem Valid.propertyType {p : Property} (h : Valid contents p) : Valid contents p.type :=
  have h : Valid contents (p.type, p.nativeType) := h
  h.fst

theorem Valid.parameterType {p : Parameter} (h : Valid contents p) : Valid contents p.docType :=
  have h : Valid contents (p.type, p.docType) := h
  h.snd

theorem Valid.methodTypes {m : Method} (h : Valid contents m) :
    ∀ u ∈ m.types, Valid contents u := by
  have h : Valid contents (m.templates, m.params, m.returnType, m.returnDocType, m.throws, m.origin,
    m.interfaceOrigins) := h
  have hparam : ∀ p ∈ m.params, Valid contents p.docType := fun p hp =>
    (h.snd.fst.of_mem hp).parameterType
  have hbehind := h.snd.snd.snd
  simp only [Method.types, List.forall_mem_append, List.forall_mem_flatMap, List.forall_mem_map,
    List.forall_mem_singleton]
  refine ⟨⟨⟨⟨⟨⟨?_, hparam⟩, hbehind.fst⟩, ?_⟩, ?_⟩, ?_⟩, ?_⟩
  · exact fun t ht => (h.fst.of_mem ht).templateTypes
  · exact fun u => hbehind.snd.snd.fst.of_mem_toList
  · exact fun u => hbehind.snd.snd.snd.of_mem
  · exact fun p hp => hparam p (List.mem_of_mem_filter hp)
  · exact fun p hp => hbehind.snd.fst.of_mem (List.of_mem_zip hp).1

/-- **The types that a valid page shows are valid.** -/
theorem Valid.sheetTypes {s : Sheet reg} (h : Valid contents s) :
    ∀ u ∈ s.types, Valid contents u := by
  have h : Valid contents (s.chapter, s.templates, s.parent, s.interfaces, s.traits, s.constants,
    s.properties, s.methods) := h
  have hclasses := h.snd.snd
  have hmembers := hclasses.snd.snd.snd
  simp only [Sheet.types, List.forall_mem_append, List.forall_mem_flatMap, List.forall_mem_map]
  refine ⟨⟨⟨⟨⟨⟨?_, ?_⟩, ?_⟩, ?_⟩, ?_⟩, ?_⟩, ?_⟩
  · exact fun t ht => (h.snd.fst.of_mem ht).templateTypes
  · exact fun u => hclasses.fst.of_mem_toList
  · exact fun u => hclasses.snd.fst.of_mem
  · exact fun u => hclasses.snd.snd.fst.of_mem
  · exact fun c hc => (hmembers.fst.of_mem hc).constantTypes
  · exact fun p hp => (hmembers.snd.fst.of_mem hp).propertyType
  · exact fun m hm => (hmembers.snd.snd.of_mem hm).methodTypes

end Valid

/-- **A link to the page of a class**: whoever follows it from the page that it stands on comes
there. -/
def IsLinkTo (page name : String) (shown : Html) : Prop :=
  ∃ url, shown = .element "a" [("href", url), ("title", name)]
    [.text (Text.lastPart '\\' name)] ∧
    follow page url = outputPath name

/-- **A class that leads to its chapter** is a link to the page of the class, if it has one. -/
theorem isLinkTo_of_documented {submissions : List Submission}
    {site : Site (registerAll submissions)} (hbase : site.links.baseUrl = "") {id : ChapterId}
    {c : Chapter (registerAll submissions)} (hid : site.contents.get? id = some c)
    {e : (registerAll submissions).Entry} (hname : e.1.name = c.name)
    (horigin : e.1.origin = .project) (page : String) :
    IsLinkTo page c.name (classMarkup site page id c.name) := by
  have hchapter : c.name = (⟨⟨0⟩, e⟩ : Chapter (registerAll submissions)).name := hname.symm
  obtain rfl : c.entry = e := entry_eq_of_name hchapter
  have hdocumented : c.isDocumented = true := by
    rw [Chapter.isDocumented, horigin]
    rfl
  have hlink := site.link?_of_isDocumented hid hdocumented
  rw [hbase, String.empty_append] at hlink
  refine ⟨site.links.href page (outputPath c.name), by rw [classMarkup, hlink], ?_⟩
  exact follow_href (leadsOn_of_isPage (.inr ⟨c.entry, rfl⟩)) hbase page

/-- **Links lead to their pages.**  Without a base address, whoever follows the link from one page
of a handbook to another comes to that page.  On every page of a class that a run gives, the
elements with titles are those of the references in the types that the page shows, one for each and
in their order, and those that refer to a documented class are links to the page of that class.  The
index shows no types. -/
theorem links_lead_to_pages (submissions : List Submission) (rules : Links)
    (hbase : rules.baseUrl = "") {toHtml : String → String} (hhtml : Markdown.Renders toHtml)
    (asked : List (Inquiry (registerAll submissions))) :
    (∀ page target, IsPage (registerAll submissions) page →
      IsPage (registerAll submissions) target →
      follow page (rules.href page target) = target) ∧
    (∀ title listed entry text,
      ⟨.classPage title listed entry, .ok text⟩ ∈ ((serve rules toHtml asked).run {}).1 →
        ∃ (site : Site (registerAll submissions)) (outline : Outline (Chapter _))
    (sheet : Sheet _),
          site.links = rules ∧ sheet.chapter.entry = entry ∧ sheet.Gathered ∧
          Keeps text (classPage site outline sheet) ∧
          List.Forall₂ (fun reference shown =>
              ∀ e : (registerAll submissions).Entry, e.1.name = reference.2 →
                e.1.origin = .project →
                IsLinkTo (outputPath entry.1.name) reference.2 shown)
            (sheet.types.flatMap references) (titledIn (classPage site outline sheet))) ∧
    ∀ title listed text, ⟨.indexPage title listed, text⟩
      ∈ ((serve rules toHtml asked).run {}).1 →
      ∃ (site : Site (registerAll submissions)) (outline : Outline (Chapter _))
        (listing : Section (Summary _)), site.links = rules ∧
        Keeps text (indexPage site outline listing) ∧
          titledIn (indexPage site outline listing) = [] := by
  refine ⟨fun page target _ htarget =>
    follow_href (leadsOn_of_isPage htarget) hbase page, ?_, ?_⟩
  · intro title listed entry text hx
    obtain ⟨site, outline, sheet, hlinks, -, -, rfl, hgathered, hvalid, hkeeps⟩ :=
      classPage_of_mem_log hhtml hx
    refine ⟨site, outline, sheet, hlinks, rfl, hgathered, hkeeps, ?_⟩
    have hshown : sheet.types.flatMap (classesIn site (outputPath sheet.chapter.name))
        = (sheet.types.flatMap references).map fun l =>
          classMarkup site (outputPath sheet.chapter.name) l.1 l.2 := by
      rw [List.map_flatMap]
      rfl
    rw [titledIn_classPage, hshown, List.forall₂_map_right_iff, List.forall₂_same]
    intro l hl e hname horigin
    obtain ⟨t, ht, hl⟩ := List.mem_flatMap.1 hl
    obtain ⟨c, hid, hc⟩ := hvalid.sheetTypes t ht l hl
    rw [← hc] at hname ⊢
    exact isLinkTo_of_documented (hlinks ▸ hbase) hid hname horigin _
  · intro title listed text hx
    obtain ⟨site, outline, listing, hlinks, -, -, hkeeps⟩ := indexPage_of_mem_log hx
    exact ⟨site, outline, listing, hlinks, hkeeps, titledIn_indexPage site outline listing⟩

/-- A class outside all namespaces, and a class in a namespace that extends it. -/
def boxSources : List Submission :=
  [⟨"Base.php", "<?php class Base \x7b\x7d", .project⟩,
    ⟨"Box.php", "<?php namespace App\\Model; class Box extends \\Base \x7b\x7d", .project⟩]

/-- From the page of the one class to that of the other the way leads back through three
directories. -/
theorem link_leads_from_box_to_base :
    ({} : Links).href "classes/app/model/box.html" "classes/base.html"
      = "../../../classes/base.html" ∧
      follow "classes/app/model/box.html" "../../../classes/base.html" = "classes/base.html" := by
  have hnames : (registerAll boxSources).entries.map (·.name) = ["Base", "App\\Model\\Box"] := by
    decide +kernel
  have hpage : ∀ name ∈ ["Base", "App\\Model\\Box"],
      IsPage (registerAll boxSources) (outputPath name) := by
    rw [← hnames]
    exact List.forall_mem_map.2 fun e he => .inr ⟨⟨e, he⟩, rfl⟩
  have hbox : outputPath "App\\Model\\Box" = "classes/app/model/box.html" := by decide +kernel
  have hbase : outputPath "Base" = "classes/base.html" := by decide +kernel
  have hlink : ({} : Links).href "classes/app/model/box.html" "classes/base.html"
      = "../../../classes/base.html" := by decide +kernel
  have hfollow :=
    (links_lead_to_pages boxSources {} rfl Markdown.renders_toHtml []).1 _ _
      (hpage _ (.tail _ (.head _)))
    (hpage _ (.head _))
  rw [hbox, hbase, hlink] at hfollow
  exact ⟨hlink, hfollow⟩

end Handbook

end PhpHandbook
