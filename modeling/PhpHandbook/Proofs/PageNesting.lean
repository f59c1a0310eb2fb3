import PhpHandbook.Proofs.Anchors
import PhpHandbook.Proofs.MarkdownNesting
import PhpHandbook.Proofs.TypePieces

/-!
# Pages cannot be broken by their content

All that a page shows comes from outside: names, types, values and comments from sources, titles and
addresses from settings.  The tags, however, are those of the page.  A page is a tree whose names of
tags and attributes are fixed; texts and values are escaped when it is printed, anchors are made of
words, and what enters ready-made are documents.  How these are made HTML is not decided here; it is
assumed that they close what they open, and that their paragraphs have no attributes.

So a page can be read back.  The reader of `MarkupReading` comes past exactly the tags, values and
characters that the tree means, and every tag is closed in order.

## Main definitions

* `Keeps`: a page that is read as the tree it was printed from.
* `Sheet.Gathered`: what the page of a class shows, as it is gathered in a sound run.

## Main statements

* `allSturdy_classPage`, `allSturdy_indexPage`: both kinds of pages can be printed, part by part.
* `pages_keep_their_trees`: whatever is asked in a run, all pages that it gives keep their trees.
-/

namespace PhpHandbook.Handbook

open DocBlock (Document)
open Html
open Markdown (Renders)
open Markup (fragment_intercalate fragment_ofList)
open Registry (registerAll)

variable {reg : Registry} (site : Site reg) (page : String)

/-! ### Ready parts -/

section Documents

variable {toHtml : String → String} (h : Renders toHtml) (text : String)
include h

theorem sturdy_toHtml : Sturdy (.ready (toHtml text)) :=
  .ready (h.fragment text)

theorem sturdy_trimEnd : Sturdy (.ready (Text.trimEnd (toHtml text))) :=
  .ready (h.fragment_trimEnd text)

theorem sturdy_toInlineHtml : Sturdy (.ready (Markdown.toInlineHtml toHtml text)) :=
  .ready (h.fragment_toInlineHtml text)

end Documents

/-- The style sheet has no characters with a meaning in markup. -/
theorem sturdy_styleSheet : Sturdy (.ready styleSheet) := by
  refine .ready (fragment_intercalate (fun _ => ⟨_, rfl, rfl⟩) ?_)
  unfold styleLines
  -- a line is written as one text or as two
  repeat'
    first
      | refine List.forall_mem_cons.2 ⟨?_, ?_⟩
      | with_reducible refine Markup.Fragment.append ?_ ?_
      | exact fragment_ofList rfl
  exact fun line hline => nomatch hline

theorem sturdy_documentType : Sturdy (.ready "<!DOCTYPE html>\n") :=
  .ready fun _ => ⟨_, rfl, rfl⟩

/-! ### Types -/

theorem sturdy_classMarkup (id : ChapterId) (name : String) :
    Sturdy (classMarkup site page id name) := by
  unfold classMarkup
  split <;> simp +decide [isNamed]

@[simp]
theorem sturdy_templateMarkup (name : String) : Sturdy (templateMarkup name) := by
  simp +decide [templateMarkup, isNamed]

theorem allSturdy_typeMarkup (t : ResolvedType) : AllSturdy (typeMarkup site page t) :=
  forall_mem_typeMarkup sturdy_text (sturdy_classMarkup site page) sturdy_templateMarkup t

theorem allSturdy_typeList (types : List ResolvedType) : AllSturdy (typeList site page types) :=
  forall_mem_typeList sturdy_text (sturdy_classMarkup site page) sturdy_templateMarkup types

/-! ### Comments and members -/

theorem allSturdy_docMarkup {toHtml : String → String} (h : Renders toHtml) (doc : Document) :
    AllSturdy (docMarkup toHtml doc) := by
  simp only [docMarkup, allSturdy_append]
  refine ⟨⟨?_, ?_⟩, ?_⟩
  · split <;> simp +decide [sturdy_toInlineHtml h, isNamed]
  · simp +decide [sturdy_toHtml h, isNamed]
  · simp +decide [isNamed]

theorem allSturdy_boundTemplateMarkup (t : Template) :
    AllSturdy (boundTemplateMarkup site page t) := by
  simp [boundTemplateMarkup, allSturdy_typeMarkup]

theorem allSturdy_templatesMarkup (templates : List Template) :
    AllSturdy (templatesMarkup site page templates) := by
  have hall : AllSturdy (separated ", " (templates.map (boundTemplateMarkup site page))) :=
    allSturdy_separated (List.forall_mem_map.2 fun t _ => allSturdy_boundTemplateMarkup site page t)
  simp +decide [templatesMarkup, hall, isNamed]

theorem allSturdy_valueMarkup (value : Option String) : AllSturdy (valueMarkup value) := by
  simp [valueMarkup]

/-- A member is sturdy if its anchor needs no escaping. -/
theorem allSturdy_itemMarkup {id : String} {content : List Html} (hid : Text.markup id = id)
    (hcontent : AllSturdy content) : AllSturdy (itemMarkup id content) := by
  have hinside : AllSturdy (.text "\n" :: content ++ [Html.text "  "]) := by simpa using hcontent
  rw [itemMarkup, allSturdy_line, allSturdy_cons]
  exact ⟨.anchored rfl rfl hid hinside, allSturdy_nil⟩

@[simp]
theorem allSturdy_signature {content : List Html} :
    AllSturdy (signature content) ↔ AllSturdy content := by
  simp +decide [signature, isNamed]

theorem allSturdy_constantMarkup (h : Renders site.toHtml) (c : Constant)
    (hanchor : Text.markup c.anchor = c.anchor) : AllSturdy (constantMarkup site page c) := by
  refine allSturdy_itemMarkup hanchor ?_
  simp [allSturdy_typeMarkup, allSturdy_valueMarkup, allSturdy_docMarkup h]

theorem allSturdy_propertyMarkup (h : Renders site.toHtml) (p : Property)
    (hanchor : Text.markup p.anchor = p.anchor) : AllSturdy (propertyMarkup site page p) := by
  refine allSturdy_itemMarkup hanchor ?_
  simp +decide [allSturdy_typeMarkup, allSturdy_valueMarkup, allSturdy_docMarkup h, isNamed]

theorem allSturdy_parameterMarkup (p : Parameter) : AllSturdy (parameterMarkup site page p) := by
  simp [parameterMarkup, allSturdy_typeMarkup, allSturdy_valueMarkup]

theorem allSturdy_detail {className heading : String} {content : List Html} :
    AllSturdy (detail className heading content) ↔ AllSturdy content := by
  simp +decide [detail, isNamed]

theorem allSturdy_parameterDetails (h : Renders site.toHtml) (params : List Parameter) :
    AllSturdy (parameterDetails site page params) := by
  simp +decide [parameterDetails, allSturdy_detail, parameterDetail, allSturdy_typeMarkup,
    sturdy_toInlineHtml h, isNamed]

theorem allSturdy_returnDetails {toHtml : String → String} (h : Renders toHtml) (doc : Document) :
    AllSturdy (returnDetails toHtml doc) := by
  unfold returnDetails
  split
  · simp [allSturdy_detail, sturdy_trimEnd h]
  · exact allSturdy_nil

theorem allSturdy_throwDetails (h : Renders site.toHtml) (m : Method) :
    AllSturdy (throwDetails site page m) := by
  simp +decide [throwDetails, allSturdy_detail, throwDetail, allSturdy_typeMarkup,
    sturdy_toInlineHtml h, isNamed]

theorem allSturdy_methodMarkup (h : Renders site.toHtml) (m : Method)
    (hanchor : Text.markup m.anchor = m.anchor) : AllSturdy (methodMarkup site page m) := by
  have hparams : AllSturdy (separated ", " (m.params.map (parameterMarkup site page))) :=
    allSturdy_separated (List.forall_mem_map.2 fun p _ => allSturdy_parameterMarkup site page p)
  refine allSturdy_itemMarkup hanchor ?_
  simp +decide [hparams, allSturdy_templatesMarkup, allSturdy_typeMarkup, allSturdy_typeList,
    allSturdy_docMarkup h, allSturdy_parameterDetails site page h, allSturdy_returnDetails h,
    allSturdy_throwDetails site page h, isNamed]

/-! ### Whole pages -/

mutual

theorem allSturdy_navigation : ∀ s : Section (Chapter reg), AllSturdy (navigation site page s)
  | .mk name sections items => by
    have hitem : ∀ c : Chapter reg, AllSturdy (line "    "
        [.element "li" (if outputPath c.name = page then [("class", "current")] else [])
          [anchor (site.links.href page (outputPath c.name)) c.basename]]) := by
      intro c
      split <;> simp +decide [isNamed]
    simp +decide [navigation, allSturdy_navigationSections sections, hitem, isNamed]

theorem allSturdy_navigationSections : ∀ sections : List (String × Section (Chapter reg)),
    AllSturdy (navigationSections site page sections)
  | [] => by simp [navigationSections]
  | (_, s) :: rest => by
    simp +decide [navigationSections, allSturdy_navigation s, allSturdy_navigationSections rest,
      isNamed]

end

theorem allSturdy_layout (outline : Outline (Chapter reg)) (title : String) {main : List Html}
    (hmain : AllSturdy main) : AllSturdy (layout site outline page title main) := by
  simp +decide [layout, sturdy_documentType, sturdy_styleSheet, allSturdy_navigation,
    hmain, isNamed]

theorem allSturdy_hierarchyMarkup (s : Sheet reg) : AllSturdy (hierarchyMarkup site page s) := by
  simp +decide [hierarchyMarkup, allSturdy_typeMarkup, allSturdy_typeList, isNamed]

theorem allSturdy_memberSection {α : Type} {id heading : String} {entry : α → List Html}
    {members : List α} (hmembers : ∀ m ∈ members, AllSturdy (entry m)) :
    AllSturdy (memberSection id heading entry members) := by
  simp +decide [memberSection, isNamed]
  exact fun _ => hmembers

/-- **The page of a class is sturdy**, if the anchors of its members need no escaping. -/
theorem allSturdy_classPage (h : Renders site.toHtml) (outline : Outline (Chapter reg))
    {s : Sheet reg} (hanchors : Anchored s.anchors) : AllSturdy (classPage site outline s) := by
  obtain ⟨hfirst, hmethods⟩ := List.forall_mem_append.1 hanchors
  obtain ⟨hconstants, hproperties⟩ := List.forall_mem_append.1 hfirst
  rw [List.forall_mem_map] at hconstants hproperties hmethods
  refine allSturdy_layout site _ outline _ ?_
  have hheader : AllSturdy (block "" "header" [] (
      (if s.chapter.space.isEmpty then []
        else line "  " [classed "p" "namespace" [.text s.chapter.space]]) ++
      line "  " [plain "h1" (classed "span" "kind" [.text (classKeywords s.chapter)] :: .text " " ::
        .text s.chapter.basename ::
        templatesMarkup site (outputPath s.chapter.name) s.templates)])) := by
    simp +decide [allSturdy_templatesMarkup, isNamed]
  simp only [allSturdy_append]
  refine ⟨⟨⟨⟨⟨hheader, allSturdy_hierarchyMarkup site _ s⟩,
    allSturdy_docMarkup h s.doc⟩, ?_⟩, ?_⟩, ?_⟩
  · exact allSturdy_memberSection fun c hc => allSturdy_constantMarkup site _ h c (hconstants c hc)
  · exact allSturdy_memberSection fun p hp =>
      allSturdy_propertyMarkup site _ h p (hproperties p hp)
  · exact allSturdy_memberSection fun m hm => allSturdy_methodMarkup site _ h m (hmethods m hm)

mutual

theorem allSturdy_indexSection :
    ∀ s : Section (Summary reg), AllSturdy (indexSection site page s)
  | .mk name sections items => by
    simp +decide [indexSection, indexEntries, allSturdy_indexSections sections, isNamed]

theorem allSturdy_indexSections : ∀ sections : List (String × Section (Summary reg)),
    AllSturdy (indexSections site page sections)
  | [] => by simp [indexSections]
  | (_, s) :: rest => by
    simp [indexSections, allSturdy_indexSection s, allSturdy_indexSections rest]

end

/-- **The index page is sturdy.** -/
theorem allSturdy_indexPage (outline : Outline (Chapter reg)) (listing : Section (Summary reg)) :
    AllSturdy (indexPage site outline listing) := by
  refine allSturdy_layout site _ outline _ ?_
  simp +decide [allSturdy_indexSection, isNamed]

/-! ### Printed pages -/

/-- **A page that keeps its tree**: whoever reads it comes past the tags and the characters of text
that are meant, and past nothing else, and all tags are closed in order. -/
structure Keeps (page : String) (tree : List Html) : Prop where
  printed : page = printAll tree
  reads : Markup.scan .text page.toList = (eventsIn tree, .text)
  nested : Markup.unclosed [] (eventsIn tree) = some []

theorem keeps_printAll {tree : List Html} (h : AllSturdy tree) : Keeps (printAll tree) tree :=
  ⟨rfl, reads_printAll h, unclosed_eventsIn h []⟩

/-- What the page of a class shows **as it is gathered** in a sound run. -/
def Sheet.Gathered (s : Sheet reg) : Prop :=
  ∃ run : Run reg, run.Sound ∧ run.contents.get? s.chapter.id = some s.chapter ∧
    (s.chapter.sheet.run.run run).1 = .ok s

/-- The page of a class keeps its tree in every sound run, and all references in what it shows lead
to their chapters. -/
theorem Query.ensures_renderClass (hspelled : ∀ e : reg.Entry, e.1.decl.Spelled)
    {before : Contents reg} {c : Chapter reg} (hc : before.get? c.id = some c) (rules : Links)
    (title : String) (outline : Outline (Chapter reg)) {toHtml : String → String}
    (h : Renders toHtml) :
    Ensures before (renderClass rules title outline c toHtml) fun page =>
      ∃ (site : Site reg) (sheet : Sheet reg), site.links = rules ∧ site.title = title ∧
        site.toHtml = toHtml ∧ sheet.chapter = c ∧ sheet.Gathered ∧
        Valid site.contents sheet ∧
          Keeps page (classPage site outline sheet) := by
  intro run hrun hbefore
  have hget : run.contents.get? c.id = some c := Contents.get?_mono hbefore hc
  obtain ⟨hsound, -, hle, hmatch⟩ :=
    agree_sheet (w := tablesOf run run) (.chapter hget hget rfl)
    run run hrun hrun (le_refl _)
  obtain ⟨-, -, hsheet⟩ := ensures_sheet hspelled hc run hrun hbefore
  have hvalid := hmatch.left
  have hgrow := hle.1
  rw [renderClass, ExceptT.run_bind, StateT.run_bind]
  clear hmatch hle
  generalize hout : c.sheet.run.run run = out at hsound hvalid hgrow hsheet ⊢
  obtain ⟨e | sheet, after⟩ := out
  · exact ⟨hsound, hgrow, fun page hpage => nomatch hpage⟩
  · refine ⟨hsound, hgrow, fun page hpage => ?_⟩
    obtain rfl := Except.ok.inj hpage
    obtain ⟨rfl, hanchors⟩ := hsheet sheet rfl
    exact ⟨⟨rules, title, after.contents, toHtml⟩, sheet, rfl, rfl, rfl, rfl,
      ⟨run, hrun, hget, by rw [hout]⟩, hvalid,
      keeps_printAll (allSturdy_classPage _ h outline hanchors)⟩

theorem Gather.ensures_classPage (hspelled : ∀ e : reg.Entry, e.1.decl.Spelled)
    (before : Contents reg) (rules : Links) {toHtml : String → String} (h : Renders toHtml)
    (title : String) (listed : List reg.Entry) (entry : reg.Entry) :
    Gather.Ensures before ((Inquiry.classPage title listed entry).perform rules toHtml)
      fun _ answer => ∀ page, answer = .ok page → ∃ (site : Site reg)
        (outline : Outline (Chapter reg)) (sheet : Sheet reg), site.links = rules ∧
          site.title = title ∧ site.toHtml = toHtml ∧ sheet.chapter.entry = entry ∧
            sheet.Gathered ∧ Valid site.contents sheet ∧
              Keeps page (classPage site outline sheet) := by
  refine (ensures_of_agree (.mapM listed fun e _ => agree_chapterOf e)).bind
    fun _ _ chapters _ => ?_
  refine (ensures_chapterOf entry).bind fun _ _ c hc => ?_
  obtain ⟨hget, rfl⟩ := hc
  intro run hrun hbefore
  obtain ⟨hsound, hle, hpage⟩ := Query.ensures_renderClass hspelled hget rules title
    (outlineOf chapters) h run hrun hbefore
  refine ⟨hsound, hle, fun page hanswer => ?_⟩
  obtain ⟨site, sheet, hlinks, htitle, hhtml, rfl, hsheet⟩ := hpage page hanswer
  exact ⟨site, outlineOf chapters, sheet, hlinks, htitle, hhtml, rfl, hsheet⟩

/-- The index page keeps its tree in every run.  It shows no documents. -/
theorem keeps_renderIndex (rules : Links) (title : String) (outline : Outline (Chapter reg))
    (toHtml : String → String) (run : Run reg) :
    ∃ (site : Site reg) (listing : Section (Summary reg)), site.links = rules ∧
      site.title = title ∧ site.toHtml = toHtml ∧
        Keeps ((renderIndex rules title outline toHtml).run run).1
          (indexPage site outline listing) :=
  ⟨⟨rules, title, ((summarize outline.root).run run).2.contents, toHtml⟩,
    ((summarize outline.root).run run).1, rfl, rfl, rfl,
    keeps_printAll (allSturdy_indexPage _ _ _)⟩

section Runs

variable {submissions : List Submission} {rules : Links} {toHtml : String → String}
  {asked : List (Inquiry (registerAll submissions))} {title : String}
  {listed : List (registerAll submissions).Entry} {page : String}

/-- A page of a class that a run gives. -/
theorem classPage_of_mem_log (h : Renders toHtml) {entry : (registerAll submissions).Entry}
    (hx : ⟨.classPage title listed entry, .ok page⟩ ∈ ((serve rules toHtml asked).run {}).1) :
    ∃ (site : Site (registerAll submissions)) (outline : Outline (Chapter _)) (sheet : Sheet _),
      site.links = rules ∧ site.title = title ∧ site.toHtml = toHtml ∧
        sheet.chapter.entry = entry ∧ sheet.Gathered ∧ Valid site.contents sheet ∧
          Keeps page (classPage site outline sheet) := by
  have hspelled : ∀ e : (registerAll submissions).Entry, e.1.decl.Spelled :=
    fun e => Registry.spelled_of_mem_registerAll e.2
  obtain ⟨run, hrun, hanswer, -⟩ := (serve_spec rules toHtml asked Run.sound_empty).2.2 _ hx
  obtain ⟨-, -, hpage⟩ :=
    Gather.ensures_classPage hspelled run.contents rules h title listed entry
    run hrun (le_refl _)
  exact hpage page hanswer.symm

/-- An index page that a run gives. -/
theorem indexPage_of_mem_log
    (hx : ⟨.indexPage title listed, page⟩ ∈ ((serve rules toHtml asked).run {}).1) :
    ∃ (site : Site (registerAll submissions)) (outline : Outline (Chapter _))
      (listing : Section (Summary _)),
      site.links = rules ∧ site.title = title ∧ site.toHtml = toHtml ∧
        Keeps page (indexPage site outline listing) := by
  obtain ⟨run, -, hanswer, -⟩ := (serve_spec rules toHtml asked Run.sound_empty).2.2 _ hx
  obtain ⟨site, listing, hlinks, htitle, hhtml, hkeeps⟩ := keeps_renderIndex rules title
    (outlineOf ((listed.mapM chapterOf).run run).1) toHtml ((listed.mapM chapterOf).run run).2
  have hpage : page = ((renderIndex rules title
      (outlineOf ((listed.mapM chapterOf).run run).1) toHtml).run
        ((listed.mapM chapterOf).run run).2).1 := hanswer
  exact ⟨site, _, listing, hlinks, htitle, hhtml, hpage ▸ hkeeps⟩

end Runs

/-- **Pages cannot be broken by their content.**  Whatever sources are registered, however links are
made, whatever the titles are, and whatever was asked before: if documents are made HTML that closes
what it opens, every page that a run gives is read back as the tree that it was printed from.  So no
text of a source has become a tag or a reference, no value of an attribute has ended early, and the
tags are closed in order. -/
theorem pages_keep_their_trees (submissions : List Submission) (rules : Links)
    {toHtml : String → String} (h : Renders toHtml)
    (asked : List (Inquiry (registerAll submissions))) :
    let log := ((serve rules toHtml asked).run {}).1
    log.map (·.inquiry) = asked ∧
      (∀ title listed entry page, ⟨.classPage title listed entry, .ok page⟩ ∈ log →
        ∃ (site : Site (registerAll submissions)) (outline : Outline (Chapter _))
        (sheet : Sheet _),
          site.links = rules ∧ site.title = title ∧ site.toHtml = toHtml ∧
            sheet.chapter.entry = entry ∧ Keeps page (classPage site outline sheet)) ∧
      ∀ title listed page, ⟨.indexPage title listed, page⟩ ∈ log →
        ∃ (site : Site (registerAll submissions)) (outline : Outline (Chapter _))
          (listing : Section (Summary _)),
          site.links = rules ∧ site.title = title ∧ site.toHtml = toHtml ∧
            Keeps page (indexPage site outline listing) := by
  intro log
  refine ⟨map_inquiry_serve rules toHtml asked {}, ?_, ?_⟩
  · intro title listed entry page hx
    obtain ⟨site, outline, sheet, hlinks, htitle, hhtml, hentry, -, -, hkeeps⟩ :=
      classPage_of_mem_log h hx
    exact ⟨site, outline, sheet, hlinks, htitle, hhtml, hentry, hkeeps⟩
  · exact fun title listed page hx => indexPage_of_mem_log hx

/-- A class whose comment and whose value hold characters with a meaning in markup. -/
def noteSources : List Submission :=
  [⟨"Note.php", "<?php /** Is 1 < 2? *Yes*. */ class Note \x7b const A = '<b>'; \x7d",
    .project⟩]

theorem length_noteSources : 0 < (registerAll noteSources).entries.length := by
  decide +kernel

/-- That class in its registry. -/
def note : (registerAll noteSources).Entry :=
  ⟨(registerAll noteSources).entries.get ⟨0, length_noteSources⟩, List.get_mem _ _⟩

/-- The class has a page, and the page keeps its tree. -/
theorem page_of_note_keeps_its_tree :
    Renders Markdown.toHtml ∧ ∃ page,
      ⟨.classPage "Docs" [note] note, .ok page⟩
        ∈ ((serve {} Markdown.toHtml [.classPage "Docs" [note] note]).run {}).1 ∧
      ∃ (site : Site (registerAll noteSources)) (outline : Outline (Chapter _)) (sheet : Sheet _),
        sheet.chapter.entry = note ∧ Keeps page (classPage site outline sheet) := by
  have hlog : ((serve {} Markdown.toHtml [.classPage "Docs" [note] note]).run {}).1
      = [⟨.classPage "Docs" [note] note,
        (((Inquiry.classPage "Docs" [note] note).perform {} Markdown.toHtml).run {}).1⟩] := rfl
  have hanswered : (((Inquiry.classPage "Docs" [note] note).perform {} Markdown.toHtml).run
      {}).1.toOption.isSome = true := by decide +kernel
  generalize hanswer : (((Inquiry.classPage "Docs" [note] note).perform {}
    Markdown.toHtml).run {}).1 = answer at hlog hanswered
  cases answer with
  | error error => cases hanswered
  | ok page =>
    have hmem : ⟨.classPage "Docs" [note] note, .ok page⟩
        ∈ ((serve {} Markdown.toHtml [.classPage "Docs" [note] note]).run {}).1 := by
      rw [hlog]
      exact List.mem_singleton_self _
    obtain ⟨-, hpages, -⟩ := pages_keep_their_trees noteSources {} Markdown.renders_toHtml
      [.classPage "Docs" [note] note]
    obtain ⟨site, outline, sheet, -, -, -, hentry, hkeeps⟩ := hpages _ _ _ _ hmem
    exact ⟨Markdown.renders_toHtml, page, hmem, site, outline, sheet, hentry, hkeeps⟩

end PhpHandbook.Handbook
