import PhpHandbook.Proofs.FacetAccord
import PhpHandbook.Proofs.OutlineMap
import PhpHandbook.Proofs.TypePieces

/-!
# Pages in accord

A page is a text, so pages of two runs agree only if they are equal to the last character.  The
numbers in what a page shows are turned into links by way of the table of contents, and a table
leads from a number to the chapter of the name beside it.  So a page does not change if all that it
shows is renumbered along with the table.

## Main definitions

* `Carried`: a renumbering under which references keep their links.

## Main statements

* `Match.eq_relink`: matching data is renumbered data.
* `classPage_relink`: the page of a class does not show numbers.
* `Query.agree_renderClass`, `Gather.agree_renderIndex`: printed pages agree.
-/

namespace PhpHandbook.Handbook

open DocBlock (Document)

variable {reg : Registry} {w : Tables reg}

/-! ### Matching data is renumbered data -/

/-- The number that a table gives to a name. -/
def Contents.number (contents : Contents reg) (name : String) : ChapterId :=
  (contents.id? name).getD ⟨0⟩

/-- Valid data has the numbers that the table gives to its names. -/
theorem Valid.relink_number {α : Type} [Linked α] {contents : Contents reg} {a : α}
    (hsound : contents.Sound) (h : Valid contents a) :
    relink (fun _ name => contents.number name) a = a := by
  calc relink (fun _ name => contents.number name) a = relink (fun id _ => id) a := by
        refine relink_congr _ _ a fun l hl => ?_
        obtain ⟨c, hget, hname⟩ := h l hl
        rw [Contents.number, ← hname, hsound.id?_of_get? hget, Option.getD_some]
    _ = a := relink_self a

/-- **Matching data is renumbered data.** -/
theorem Match.eq_relink {α : Type} [Linked α] {a₁ a₂ : α} (h : Match w a₁ a₂)
    (hsound : w.2.Sound) : a₂ = relink (fun _ name => w.2.number name) a₁ :=
  calc a₂ = relink (fun _ name => w.2.number name) a₂ := (h.right.relink_number hsound).symm
    _ = relink (fun _ name => w.2.number name) (erase a₂) := (relink_erase _ a₂).symm
    _ = relink (fun _ name => w.2.number name) (erase a₁) := by rw [h.erase_eq]
    _ = relink (fun _ name => w.2.number name) a₁ := relink_erase _ a₁

/-! ### References that keep their links -/

/-- **References that keep their links**: two sites share all but their tables of contents, and
renumbered references have the same links on the second as the old ones on the first. -/
structure Carried {α : Type} [Linked α] (site₁ site₂ : Site reg)
    (f : ChapterId → String → ChapterId) (a : α) : Prop where
  rules : site₂.links = site₁.links
  title : site₂.title = site₁.title
  toHtml : site₂.toHtml = site₁.toHtml
  link : ∀ l ∈ links a, site₂.link? (f l.1 l.2) = site₁.link? l.1

/-- The links of matching data lead to the same places. -/
theorem Match.carried {α : Type} [Linked α] {a₁ a₂ : α} (h : Match w a₁ a₂)
    (hsound : w.2.Sound) (rules : Links) (title : String) (toHtml : String → String) :
    Carried ⟨rules, title, w.1, toHtml⟩ ⟨rules, title, w.2, toHtml⟩
      (fun _ name => w.2.number name) a₁ := by
  refine ⟨rfl, rfl, rfl, fun l hl => ?_⟩
  obtain ⟨c₁, hget₁, hname₁⟩ := h.left l hl
  have hmem : (w.2.number l.2, l.2) ∈ links a₂ := by
    rw [h.eq_relink hsound, links_relink]
    exact List.mem_map.2 ⟨l, hl, rfl⟩
  obtain ⟨c₂, hget₂, hname₂⟩ := h.right _ hmem
  -- a link depends on the declaration, which both chapters share
  have hentry : c₂.entry = c₁.entry := entry_eq_of_name (hname₂.trans hname₁.symm)
  rw [Site.link?, Site.link?, hget₁, hget₂]
  show rules.toChapter c₂ = rules.toChapter c₁
  rw [Links.toChapter, Chapter.name, Chapter.space, Chapter.isDocumented, hentry]
  rfl

section Markup

variable {site₁ site₂ : Site reg} {f : ChapterId → String → ChapterId} (page : String)

namespace Carried

variable {α β : Type} [Linked α] [Linked β]

theorem of_subset {a : α} {b : β} (h : Carried site₁ site₂ f a) (hsub : links b ⊆ links a) :
    Carried site₁ site₂ f b :=
  ⟨h.rules, h.title, h.toHtml, fun l hl => h.link l (hsub hl)⟩

theorem of_mem {a : α} {as : List α} (h : Carried site₁ site₂ f as) (ha : a ∈ as) :
    Carried site₁ site₂ f a :=
  ⟨h.rules, h.title, h.toHtml, fun l hl => h.link l (List.mem_flatMap.2 ⟨a, ha, hl⟩)⟩

theorem fst {p : α × β} (h : Carried site₁ site₂ f p) : Carried site₁ site₂ f p.1 :=
  h.of_subset (List.subset_append_left _ _)

theorem snd {p : α × β} (h : Carried site₁ site₂ f p) : Carried site₁ site₂ f p.2 :=
  h.of_subset (List.subset_append_right _ _)

/-- What holds of each carried item holds of a list of them. -/
theorem map_eq {γ : Type} {as : List α} (h : Carried site₁ site₂ f as)
    {show₁ show₂ : α → γ}
    (hitem : ∀ a, Carried site₁ site₂ f a → show₂ (relink f a) = show₁ a) :
    (relink f as).map show₂ = as.map show₁ := by
  show (as.map (relink f)).map show₂ = as.map show₁
  rw [List.map_map]
  exact List.map_congr_left fun a ha => hitem a (h.of_mem ha)

theorem flatMap_eq {γ : Type} {as : List α} (h : Carried site₁ site₂ f as)
    {show₁ show₂ : α → List γ}
    (hitem : ∀ a, Carried site₁ site₂ f a → show₂ (relink f a) = show₁ a) :
    (relink f as).flatMap show₂ = as.flatMap show₁ := by
  rw [List.flatMap_def, List.flatMap_def, h.map_eq hitem]

/-- The same for data that may be missing. -/
theorem elim_eq {γ : Type} {o : Option α} (h : Carried site₁ site₂ f o) {none : γ}
    {show₁ show₂ : α → γ}
    (hitem : ∀ a, Carried site₁ site₂ f a → show₂ (relink f a) = show₁ a) :
    (relink f o).elim none show₂ = o.elim none show₁ := by
  cases o with
  | none => rfl
  | some a => exact hitem a ⟨h.rules, h.title, h.toHtml, h.link⟩

end Carried

/-! ### Types -/

theorem isGrouped_renumber (t : ResolvedType) : (t.renumber f).isGrouped = t.isGrouped := by
  cases t <;> rfl

theorem classMarkup_relink (id : ChapterId) (name : String) (hrules : site₂.links = site₁.links)
    (hlink : site₂.link? (f id name) = site₁.link? id) :
    classMarkup site₂ page (f id name) name = classMarkup site₁ page id name := by
  rw [classMarkup, classMarkup, hlink, hrules]

section Lists

variable {ts : List ResolvedType} (ih : ∀ t ∈ ts, Carried site₁ site₂ f t →
  typeMarkup site₂ page (t.renumber f) = typeMarkup site₁ page t)
  (h : Carried site₁ site₂ f ts)

include ih h

theorem memberMarkups_renumber :
    memberMarkups site₂ page (ts.map (ResolvedType.renumber f))
      = memberMarkups site₁ page ts := by
  rw [memberMarkups_eq, memberMarkups_eq, List.map_map]
  refine List.map_congr_left fun t ht => ?_
  simp only [Function.comp_apply, isGrouped_renumber, ih t ht (h.of_mem ht)]

theorem genericMarkup_renumber :
    genericMarkup site₂ page (ts.map (ResolvedType.renumber f))
      = genericMarkup site₁ page ts := by
  have hts : ts.map (typeMarkup site₂ page ∘ ResolvedType.renumber f)
      = ts.map (typeMarkup site₁ page) :=
    List.map_congr_left fun t ht => ih t ht (h.of_mem ht)
  rw [genericMarkup, genericMarkup, typeMarkups_eq, typeMarkups_eq, List.map_map,
    List.isEmpty_map, hts]

end Lists

/-- **A type on a page** does not show numbers. -/
theorem typeMarkup_relink (t : ResolvedType) (h : Carried site₁ site₂ f t) :
    typeMarkup site₂ page (relink f t) = typeMarkup site₁ page t := by
  show typeMarkup site₂ page (t.renumber f) = typeMarkup site₁ page t
  induction t using ResolvedType.induction with
  | named name ts ih =>
    have hts : Carried site₁ site₂ f ts := h.of_subset (by simp [links])
    rw [ResolvedType.renumber, ResolvedType.renumberAll_eq, typeMarkup, typeMarkup,
      genericMarkup_renumber page ih hts]
  | linked id name ts ih =>
    have hts : Carried site₁ site₂ f ts := h.of_subset (by simp [links])
    rw [ResolvedType.renumber, ResolvedType.renumberAll_eq, typeMarkup, typeMarkup,
      genericMarkup_renumber page ih hts,
      classMarkup_relink page id name h.rules (h.link (id, name) (by simp [links]))]
  | template name => rw [ResolvedType.renumber, typeMarkup, typeMarkup]
  | union ts ih =>
    have hts : Carried site₁ site₂ f ts := h.of_subset (by simp [links])
    rw [ResolvedType.renumber, ResolvedType.renumberAll_eq, typeMarkup, typeMarkup,
      memberMarkups_renumber page ih hts]
  | intersection ts ih =>
    have hts : Carried site₁ site₂ f ts := h.of_subset (by simp [links])
    rw [ResolvedType.renumber, ResolvedType.renumberAll_eq, typeMarkup, typeMarkup,
      memberMarkups_renumber page ih hts]
  | callable name ps returns ihn ihp ihr =>
    have hname : Carried site₁ site₂ f name := h.of_subset (by simp [links])
    have hreturns : Carried site₁ site₂ f returns := h.of_subset (by simp [links])
    have hps : slotMarkups site₂ page (ResolvedType.renumberSlots f ps)
        = slotMarkups site₁ page ps := by
      rw [ResolvedType.renumberSlots_eq, slotMarkups_eq, slotMarkups_eq, List.map_map]
      refine List.map_congr_left fun p hp => ?_
      have hp' : Carried site₁ site₂ f p.type := h.of_subset fun l hl => by
        simpa [links] using .inr (.inl ⟨p, hp, hl⟩)
      simp only [Function.comp_apply, ihp p hp hp']
    rw [ResolvedType.renumber, typeMarkup, typeMarkup, hps, ihn hname, ihr hreturns]
  | conditional subject target yes no iht ihy ihn =>
    have htarget : Carried site₁ site₂ f target := h.of_subset (by simp [links])
    have hyes : Carried site₁ site₂ f yes := h.of_subset (by simp [links])
    have hno : Carried site₁ site₂ f no := h.of_subset (by simp [links])
    rw [ResolvedType.renumber, typeMarkup, typeMarkup, iht htarget, ihy hyes, ihn hno]

theorem typeList_relink (ts : List ResolvedType) (h : Carried site₁ site₂ f ts) :
    typeList site₂ page (relink f ts) = typeList site₁ page ts := by
  rw [typeList, typeList, typeMarkups_eq, typeMarkups_eq, h.map_eq (typeMarkup_relink page)]

/-! ### Templates and members

A renumbered record has renumbered types and is otherwise the same, so each part of its markup is
that of a type, or does not change at all. -/

theorem boundTemplateMarkup_relink (t : Template) (h : Carried site₁ site₂ f t) :
    boundTemplateMarkup site₂ page (relink f t) = boundTemplateMarkup site₁ page t := by
  have h : Carried site₁ site₂ f (t.bound, t.fallback) := h.of_subset (List.Subset.refl _)
  have hbound : (relink f t.bound).elim []
        (fun bound => Html.text " of " :: typeMarkup site₂ page bound)
      = t.bound.elim [] fun bound => Html.text " of " :: typeMarkup site₁ page bound :=
    h.fst.elim_eq fun bound hb => by rw [typeMarkup_relink page bound hb]
  have hfallback : (relink f t.fallback).elim []
        (fun fallback => Html.text " = " :: typeMarkup site₂ page fallback)
      = t.fallback.elim [] fun fallback => Html.text " = " :: typeMarkup site₁ page fallback :=
    h.snd.elim_eq fun fallback hf => by rw [typeMarkup_relink page fallback hf]
  rw [boundTemplateMarkup, boundTemplateMarkup, ← hbound, ← hfallback]
  rfl

theorem templatesMarkup_relink (ts : List Template) (h : Carried site₁ site₂ f ts) :
    templatesMarkup site₂ page (relink f ts) = templatesMarkup site₁ page ts := by
  have hempty : (relink f ts).isEmpty = ts.isEmpty := List.isEmpty_map
  rw [templatesMarkup, templatesMarkup, hempty, h.map_eq (boundTemplateMarkup_relink page)]

theorem constantMarkup_relink (c : Constant) (h : Carried site₁ site₂ f c) :
    constantMarkup site₂ page (relink f c) = constantMarkup site₁ page c := by
  have h : Carried site₁ site₂ f (c.type, c.docType) := h.of_subset (List.Subset.refl _)
  have htype : (relink f c.docType).elim []
        (fun type => typeMarkup site₂ page type ++ [Html.text " "])
      = c.docType.elim [] fun type => typeMarkup site₁ page type ++ [Html.text " "] :=
    h.snd.elim_eq fun type ht => by rw [typeMarkup_relink page type ht]
  rw [constantMarkup, constantMarkup, ← htype, h.toHtml]
  rfl

theorem propertyMarkup_relink (p : Property) (h : Carried site₁ site₂ f p) :
    propertyMarkup site₂ page (relink f p) = propertyMarkup site₁ page p := by
  have h : Carried site₁ site₂ f (p.type, p.nativeType) := h.of_subset (List.Subset.refl _)
  rw [propertyMarkup, propertyMarkup, ← typeMarkup_relink page p.type h.fst, h.toHtml]
  rfl

theorem parameterMarkup_relink (p : Parameter) (h : Carried site₁ site₂ f p) :
    parameterMarkup site₂ page (relink f p) = parameterMarkup site₁ page p := by
  have h : Carried site₁ site₂ f (p.type, p.docType) := h.of_subset (List.Subset.refl _)
  rw [parameterMarkup, parameterMarkup, ← typeMarkup_relink page p.docType h.snd]
  rfl

theorem parameterDetail_relink (p : Parameter) (h : Carried site₁ site₂ f p) :
    parameterDetail site₂ page (relink f p) = parameterDetail site₁ page p := by
  have h : Carried site₁ site₂ f (p.type, p.docType) := h.of_subset (List.Subset.refl _)
  rw [parameterDetail, parameterDetail, ← typeMarkup_relink page p.docType h.snd, h.toHtml]
  rfl

theorem parameterDetails_relink (ps : List Parameter) (h : Carried site₁ site₂ f ps) :
    parameterDetails site₂ page (relink f ps) = parameterDetails site₁ page ps := by
  -- which parameters are described does not depend on numbers
  have hfilter : (relink f ps).filter (!·.description.isEmpty)
      = relink f (ps.filter (!·.description.isEmpty)) := List.filter_map
  have hempty : (relink f (ps.filter (!·.description.isEmpty))).isEmpty
      = (ps.filter (!·.description.isEmpty)).isEmpty := List.isEmpty_map
  have hdescribed : Carried site₁ site₂ f (ps.filter (!·.description.isEmpty)) :=
    h.of_subset fun l hl => by
      obtain ⟨p, hp, hlp⟩ := List.mem_flatMap.1 hl
      exact List.mem_flatMap.2 ⟨p, List.mem_of_mem_filter hp, hlp⟩
  rw [parameterDetails, parameterDetails, hfilter, hempty,
    hdescribed.flatMap_eq (parameterDetail_relink page)]

theorem throwDetails_relink (m : Method) (h : Carried site₁ site₂ f m.throws) :
    throwDetails site₂ page (relink f m) = throwDetails site₁ page m := by
  have hempty : (relink f m.throws).isEmpty = m.throws.isEmpty := List.isEmpty_map
  have hdetails : ((relink f m.throws).zip m.doc.throwing).flatMap
        (fun p => throwDetail site₂ page p.1 p.2.description)
      = (m.throws.zip m.doc.throwing).flatMap
        fun p => throwDetail site₁ page p.1 p.2.description := by
    -- types are paired with the tags of the comment, and only the types have numbers
    show ((m.throws.map (relink f)).zip m.doc.throwing).flatMap _ = _
    rw [List.zip_map_left, List.flatMap_map]
    refine List.flatMap_congr fun p hp => ?_
    show throwDetail site₂ page (relink f p.1) p.2.description = _
    rw [throwDetail, throwDetail, typeMarkup_relink page p.1 (h.of_mem (List.of_mem_zip hp).1),
      h.toHtml]
  rw [throwDetails, throwDetails, ← hempty, ← hdetails]
  rfl

theorem methodMarkup_relink (m : Method) (h : Carried site₁ site₂ f m) :
    methodMarkup site₂ page (relink f m) = methodMarkup site₁ page m := by
  have h :
    Carried site₁ site₂ f (m.templates, m.params, m.returnType, m.returnDocType, m.throws,
    m.origin, m.interfaceOrigins) := h.of_subset (List.Subset.refl _)
  have horigin : (relink f m.origin).elim [] (fun origin => Html.line "    " [Html.classed "p"
        "origin" (.text "Declared in " :: typeMarkup site₂ page origin)])
      = m.origin.elim [] fun origin => Html.line "    " [Html.classed "p"
        "origin" (.text "Declared in " :: typeMarkup site₁ page origin)] :=
    h.snd.snd.snd.snd.snd.fst.elim_eq fun origin ho => by rw [typeMarkup_relink page origin ho]
  have hempty : (relink f m.interfaceOrigins).isEmpty = m.interfaceOrigins.isEmpty :=
    List.isEmpty_map
  rw [methodMarkup, methodMarkup, ← templatesMarkup_relink page m.templates h.fst,
    ← h.snd.fst.map_eq (parameterMarkup_relink page),
    ← typeMarkup_relink page m.returnDocType h.snd.snd.snd.fst, ← horigin, ← hempty,
    ← typeList_relink page m.interfaceOrigins h.snd.snd.snd.snd.snd.snd,
    ← parameterDetails_relink page m.params h.snd.fst,
    ← throwDetails_relink page m h.snd.snd.snd.snd.fst, h.toHtml]
  rfl

/-! ### Whole pages -/

theorem hierarchyMarkup_relink (s : Sheet reg) (h : Carried site₁ site₂ f s) :
    hierarchyMarkup site₂ page (relink f s) = hierarchyMarkup site₁ page s := by
  have h : Carried site₁ site₂ f (s.chapter, s.templates, s.parent, s.interfaces, s.traits,
    s.constants, s.properties, s.methods) := h.of_subset (List.Subset.refl _)
  have hparent : (relink f s.parent).elim [] (fun parent => Html.line "  "
        [Html.plain "dt" [.text "Extends"], Html.plain "dd" (typeMarkup site₂ page parent)])
      = s.parent.elim [] fun parent => Html.line "  "
        [Html.plain "dt" [.text "Extends"], Html.plain "dd" (typeMarkup site₁ page parent)] :=
    h.snd.snd.fst.elim_eq fun parent hp => by rw [typeMarkup_relink page parent hp]
  have hnone : (relink f s.parent).isNone = s.parent.isNone := Option.isNone_map
  have hinterfaces : (relink f s.interfaces).isEmpty = s.interfaces.isEmpty := List.isEmpty_map
  have htraits : (relink f s.traits).isEmpty = s.traits.isEmpty := List.isEmpty_map
  rw [hierarchyMarkup, hierarchyMarkup, ← hparent, ← hnone, ← hinterfaces, ← htraits,
    ← typeList_relink page s.interfaces h.snd.snd.snd.fst,
    ← typeList_relink page s.traits h.snd.snd.snd.snd.fst]
  rfl

theorem memberSection_relink {α : Type} [Linked α] {as : List α} (id heading : String)
    {show₁ show₂ : α → List Html} (h : Carried site₁ site₂ f as)
    (hitem : ∀ a, Carried site₁ site₂ f a → show₂ (relink f a) = show₁ a) :
    memberSection id heading show₂ (relink f as) = memberSection id heading show₁ as := by
  have hempty : (relink f as).isEmpty = as.isEmpty := List.isEmpty_map
  rw [memberSection, memberSection, hempty, h.flatMap_eq hitem]

theorem layout_eq (hrules : site₂.links = site₁.links) (htitle : site₂.title = site₁.title)
    {outline₁ outline₂ : Outline (Chapter reg)}
    (houtline : outline₁.root.map erase = outline₂.root.map erase) (title : String)
    (main : List Html) :
    layout site₂ outline₂ page title main = layout site₁ outline₁ page title main := by
  have hnavigation :
      navigation site₂ page outline₂.root = navigation site₁ page outline₁.root :=
    calc navigation site₂ page outline₂.root
        = navigation site₂ page (outline₂.root.map erase) :=
          (navigation_map rfl page erase (fun _ => rfl) _).symm
      _ = navigation site₂ page (outline₁.root.map erase) := by rw [houtline]
      _ = navigation site₁ page outline₁.root :=
        navigation_map hrules page erase (fun _ => rfl) _
  rw [layout, layout, hnavigation, hrules, htitle]

/-- **The page of a class** does not show numbers. -/
theorem classPage_relink {outline₁ outline₂ : Outline (Chapter reg)}
    (houtline : outline₁.root.map erase = outline₂.root.map erase) (s : Sheet reg)
    (h : Carried site₁ site₂ f s) :
    classPage site₂ outline₂ (relink f s) = classPage site₁ outline₁ s := by
  have hparts : Carried site₁ site₂ f (s.chapter, s.templates, s.parent, s.interfaces, s.traits,
    s.constants, s.properties, s.methods) := h.of_subset (List.Subset.refl _)
  have hmembers := hparts.snd.snd.snd.snd.snd
  rw [classPage, classPage,
    ← layout_eq (outputPath s.chapter.name) h.rules h.title houtline,
    ← templatesMarkup_relink _ s.templates hparts.snd.fst, ← hierarchyMarkup_relink _ s h,
    ← memberSection_relink _ _ hmembers.fst (constantMarkup_relink _),
    ← memberSection_relink _ _ hmembers.snd.fst (propertyMarkup_relink _),
    ← memberSection_relink _ _ hmembers.snd.snd (methodMarkup_relink _), h.toHtml]
  rfl

end Markup

/-! ### Printed pages -/

/-- The outlines of matching chapters are the same up to numbers. -/
theorem Match.outlineOf {cs₁ cs₂ : List (Chapter reg)} (h : Match w cs₁ cs₂) :
    (outlineOf cs₁).root.map erase = (outlineOf cs₂).root.map erase := by
  have herase : cs₁.map erase = cs₂.map erase := h.erase_eq
  rw [← root_outlineOf_map erase fun _ => rfl, herase, root_outlineOf_map erase fun _ => rfl]

/-- **The printed page of a class agrees.** -/
theorem Query.agree_renderClass (rules : Links) (toHtml : String → String) (title : String)
    {cs₁ cs₂ : List (Chapter reg)} (hcs : Match w cs₁ cs₂) {c₁ c₂ : Chapter reg}
    (hc : Match w c₁ c₂) :
    Query.Agree w (renderClass rules title (outlineOf cs₁) c₁ toHtml)
      (renderClass rules title (outlineOf cs₂) c₂ toHtml) := by
  refine (agree_sheet hc).bind fun w₁ hle₁ s₁ s₂ hs => ?_
  refine Query.Agree.ofContents
    (fun contents =>
      Html.printAll (classPage ⟨rules, title, contents, toHtml⟩ (outlineOf cs₁) s₁))
    (fun contents =>
      Html.printAll (classPage ⟨rules, title, contents, toHtml⟩ (outlineOf cs₂) s₂))
    fun w₂ hle₂ hsound => ?_
  have hs := hs.mono hle₂
  rw [hs.eq_relink hsound,
    classPage_relink hcs.outlineOf s₁ (hs.carried hsound rules title toHtml)]
  exact .refl _

/-! The index page shows the first paragraphs of comments.  Reading these opens no chapters, so what
a run gives for an outline is known: every chapter with the summary of its own comment. -/

/-- The document of a chapter, read without a shelf. -/
def Chapter.plainDoc (c : Chapter reg) : Document :=
  documentOf (c.entry.1.decl.doc.map (·.text))

/-- A chapter with its summary. -/
def Chapter.summary (c : Chapter reg) : Summary reg :=
  ⟨c, c.plainDoc.summary?⟩

theorem firstAnswer_doc (c : Chapter reg) : firstAnswer c.entry .doc = .ok c.plainDoc := by
  obtain ⟨hsound₀, -, -, hentry₀⟩ := Contents.sound_empty.enter c.entry
  have hrun₀ : Run.Sound ((chapterOf c.entry).run ({} : Run reg)).2 :=
    Run.sound_empty.withContents hsound₀ List.nil_prefix
  have hentry : ((chapterOf c.entry).run ({} : Run reg)).1.entry = c.entry := hentry₀
  rw [firstAnswer_eq gathered_doc, run_gathered, hentry]
  exact congrArg Except.ok (Gather.gives_readText _ _ hrun₀ rfl).1

/-- The document of a chapter is that of its comment. -/
theorem Gather.gives_doc {contents : Contents reg} {c : Chapter reg}
    (hc : contents.get? c.id = some c) : Gather.Gives contents c.doc c.plainDoc :=
  have : Linkless (Facet.Answer .doc) := ⟨fun _ => rfl⟩
  gives_noted hc (gives_readText _) (firstAnswer_doc c)

mutual

/-- The summaries of a section are known. -/
theorem Gather.gives_summarize {contents : Contents reg} :
    (s : Section (Chapter reg)) → (∀ c ∈ s.all, contents.get? c.id = some c) →
      Gather.Gives contents (summarize s) (s.map Chapter.summary)
  | .mk name sections items, h => by
    rw [summarize, Section.map]
    have hsections := gives_summarizeSections sections fun c hc =>
      h c (List.mem_append_left _ hc)
    have hitems := gives_summarizeItems items fun p hp =>
      h p.2 (List.mem_append_right _ (List.mem_map_of_mem hp))
    exact hsections.bind (hitems.bind (.pure _))

theorem Gather.gives_summarizeSections {contents : Contents reg} :
    (ss : List (String × Section (Chapter reg))) →
      (∀ c ∈ Section.allIn ss, contents.get? c.id = some c) →
      Gather.Gives contents (summarizeSections ss) (Section.mapIn Chapter.summary ss)
  | [], _ => .pure _
  | (segment, s) :: rest, h => by
    rw [summarizeSections, Section.mapIn]
    have hs := gives_summarize s fun c hc => h c (List.mem_append_left _ hc)
    have hrest := gives_summarizeSections rest fun c hc => h c (List.mem_append_right _ hc)
    exact hs.bind (hrest.bind (.pure _))

theorem Gather.gives_summarizeItems {contents : Contents reg} :
    (items : List (String × Chapter reg)) →
      (∀ p ∈ items, contents.get? p.2.id = some p.2) →
      Gather.Gives contents (summarizeItems items)
        (items.map fun p => (p.1, p.2.summary))
  | [], _ => .pure _
  | (basename, c) :: rest, h => by
    rw [summarizeItems, List.map_cons]
    have hdoc := gives_doc (h (basename, c) List.mem_cons_self)
    have hrest := gives_summarizeItems rest fun p hp => h p (List.mem_cons_of_mem _ hp)
    exact hdoc.bind (hrest.bind (.pure _))

end

theorem indexPage_eq (site₁ site₂ : Site reg) (hrules : site₂.links = site₁.links)
    (htitle : site₂.title = site₁.title) {outline₁ outline₂ : Outline (Chapter reg)}
    (houtline : outline₁.root.map erase = outline₂.root.map erase) :
    indexPage site₂ outline₂ (outline₂.root.map Chapter.summary)
      = indexPage site₁ outline₁ (outline₁.root.map Chapter.summary) := by
  -- summaries come from comments, so the numbers may be struck out before they are made
  have hstruck (site : Site reg) (s : Section (Chapter reg)) :
      indexSection site "index.html" ((s.map erase).map Chapter.summary)
        = indexSection site "index.html" (s.map Chapter.summary) := by
    rw [Section.map_map]
    exact indexSection_map rfl _ Chapter.summary (fun c => (erase c).summary) (fun _ => rfl)
      (fun _ => rfl) s
  have hsection : indexSection site₂ "index.html" (outline₂.root.map Chapter.summary)
      = indexSection site₁ "index.html" (outline₁.root.map Chapter.summary) := by
    rw [← hstruck, ← houtline, hstruck]
    exact indexSection_map hrules _ Chapter.summary Chapter.summary (fun _ => rfl) (fun _ => rfl) _
  rw [indexPage, indexPage, layout_eq _ hrules htitle houtline, hsection, htitle]

/-- The printed index page of chapters of a table is known. -/
theorem Gather.gives_renderIndex {contents : Contents reg} (hsound : contents.Sound)
    (rules : Links) (toHtml : String → String) (title : String) {cs : List (Chapter reg)}
    (hcs : Valid contents cs) :
    Gather.Gives contents (renderIndex rules title (outlineOf cs) toHtml)
      (Html.printAll (indexPage ⟨rules, title, contents, toHtml⟩ (outlineOf cs)
        ((outlineOf cs).root.map Chapter.summary))) := by
  have hget : ∀ c ∈ (outlineOf cs).root.all, contents.get? c.id = some c := fun c hc =>
    Valid.get? hsound fun l hl => hcs l (List.mem_flatMap.2 ⟨c, mem_of_mem_outlineOf hc, hl⟩)
  exact (gives_summarize _ hget).bind (.ofContents fun contents =>
    Html.printAll (indexPage ⟨rules, title, contents, toHtml⟩ (outlineOf cs)
      ((outlineOf cs).root.map Chapter.summary)))

/-- **The printed index page agrees.** -/
theorem Gather.agree_renderIndex (rules : Links) (toHtml : String → String) (title : String)
    {cs₁ cs₂ : List (Chapter reg)} (hcs : Match w cs₁ cs₂) :
    Gather.Agree w (renderIndex rules title (outlineOf cs₁) toHtml : Gather reg String)
      (renderIndex rules title (outlineOf cs₂) toHtml) := by
  refine .of_gives fun w' hle h₁ h₂ => ?_
  have hcs := hcs.mono hle
  have hpage : indexPage ⟨rules, title, w'.2, toHtml⟩ (outlineOf cs₂)
        ((outlineOf cs₂).root.map Chapter.summary)
      = indexPage ⟨rules, title, w'.1, toHtml⟩ (outlineOf cs₁)
        ((outlineOf cs₁).root.map Chapter.summary) :=
    indexPage_eq ⟨rules, title, w'.1, toHtml⟩ ⟨rules, title, w'.2, toHtml⟩ rfl rfl
      hcs.outlineOf
  have hgives₂ := gives_renderIndex h₂ rules toHtml title hcs.right
  rw [hpage] at hgives₂
  exact ⟨_, gives_renderIndex h₁ rules toHtml title hcs.left, hgives₂⟩

end PhpHandbook.Handbook
