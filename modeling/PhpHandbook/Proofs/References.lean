import PhpHandbook.Proofs.NameResolution
import PhpHandbook.Proofs.OutlineMap

/-!
# Links to one chapter from all places

A page links to a chapter from the outline at its side, from the index, and from every type that
names the class.  The outline and the index link to the path of the page; a type links to what
`Links.resolve` gives, which has the base address in front.  `Links.href` then makes each of them
relative, unless a base address is set.

So the places agree as long as there is no base address.  With one, `href` leaves both as they are,
and only the types have it.

## Main definitions

* `Html.targetsIn`: the targets of the links in pieces of a page, in order.

## Main statements

* `targetsIn_navigation`, `targetsIn_indexSection`, `targetsIn_classMarkup`: the links of the three
  places.
* `references_agree_iff`: they agree exactly when no base address is set.
-/

namespace PhpHandbook

/-! ### The links in a piece of a page -/

namespace Html

mutual

/-- The targets of the links in a piece, in the order of the page. -/
def targets : Html → List String
  | .element _ attributes content | .anchored _ attributes _ content =>
    (attributes.filter (·.1 == "href")).map (·.2) ++ targetsIn content
  | .text _ | .single _ _ | .ready _ => []

/-- **The targets of the links** in several pieces. -/
def targetsIn : List Html → List String
  | [] => []
  | h :: rest => h.targets ++ targetsIn rest

end

theorem targetsIn_eq (hs : List Html) : targetsIn hs = hs.flatMap targets := by
  induction hs with
  | nil => rfl
  | cons h hs ih => rw [targetsIn, ih, List.flatMap_cons]

@[simp]
theorem targetsIn_nil : targetsIn [] = [] :=
  rfl

@[simp]
theorem targetsIn_cons (h : Html) (hs : List Html) :
    targetsIn (h :: hs) = h.targets ++ targetsIn hs :=
  rfl

@[simp]
theorem targetsIn_append (hs hs' : List Html) :
    targetsIn (hs ++ hs') = targetsIn hs ++ targetsIn hs' := by
  rw [targetsIn_eq, targetsIn_eq, targetsIn_eq, List.flatMap_append]

theorem targetsIn_flatMap {α : Type} (f : α → List Html) (as : List α) :
    targetsIn (as.flatMap f) = as.flatMap fun a => targetsIn (f a) := by
  rw [targetsIn_eq, List.flatMap_assoc]
  exact List.flatMap_congr fun a _ => (targetsIn_eq _).symm

@[simp]
theorem targets_text (s : String) : (text s).targets = [] :=
  rfl

/-- An element that is no link has the links of its content. -/
theorem targets_element {attributes : List (String × String)}
    (h : ∀ a ∈ attributes, a.1 ≠ "href") (tag : String) (content : List Html) :
    (element tag attributes content).targets = targetsIn content := by
  rw [targets, List.filter_eq_nil_iff.2 fun a ha => by simpa using h a ha]
  rfl

@[simp]
theorem targets_plain (tag : String) (content : List Html) :
    (plain tag content).targets = targetsIn content :=
  targets_element (by simp) tag content

@[simp]
theorem targets_classed (tag className : String) (content : List Html) :
    (classed tag className content).targets = targetsIn content :=
  targets_element (by simp) tag content

@[simp]
theorem targets_anchor (href label : String) : (anchor href label).targets = [href] :=
  rfl

@[simp]
theorem targetsIn_line (indent : String) (content : List Html) :
    targetsIn (line indent content) = targetsIn content := by
  simp [line]

theorem targetsIn_block {attributes : List (String × String)}
    (h : ∀ a ∈ attributes, a.1 ≠ "href") (indent tag : String) (content : List Html) :
    targetsIn (block indent tag attributes content) = targetsIn content := by
  simp [block, targets_element h]

end Html

namespace Handbook

open Html (targets targetsIn targetsIn_flatMap targetsIn_block)
open Registry (ClassEntry)

variable {reg : Registry}

/-! ### The outline and the index -/

theorem Section.all_map {α β : Type} (f : α → β) (s : Section α) :
    (s.map f).all = s.all.map f := by
  induction s using Section.induction with
  | mk name sections items ih =>
    have hsections : allIn (mapIn f sections) = (allIn sections).map f := by
      rw [mapIn_eq, allIn_eq, allIn_eq, List.flatMap_map, List.map_flatMap]
      exact List.flatMap_congr fun p hp => ih p hp
    rw [map, all, all, hsections, List.map_append, List.map_map, List.map_map]
    rfl

/-- **The outline at the side of a page** links to the path of each chapter. -/
theorem targetsIn_navigation (site : Site reg) (page : String) (s : Section (Chapter reg)) :
    targetsIn (navigation site page s)
      = s.all.map fun c => site.links.href page (outputPath c.name) := by
  induction s using Section.induction with
  | mk name sections items ih =>
    have hsections : targetsIn (navigationSections site page sections)
        = (Section.allIn sections).map fun c => site.links.href page (outputPath c.name) := by
      rw [navigationSections_eq, targetsIn_flatMap, Section.allIn_eq, List.map_flatMap]
      refine List.flatMap_congr fun p hp => ?_
      simp [ih p hp]
    have hcurrent (target : String) :
        ∀ a ∈ (if target = page then [("class", "current")] else []),
        a.1 ≠ "href" := by
      split_ifs <;> simp
    rw [navigation, Section.all]
    split_ifs with hempty
    · obtain ⟨rfl, rfl⟩ : sections = [] ∧ items = [] := by simpa using hempty
      rfl
    · rw [targetsIn_block (by simp), Html.targetsIn_append, hsections, targetsIn_flatMap,
        List.map_append, List.map_map]
      refine congrArg (_ ++ ·) ?_
      rw [← List.flatMap_pure_eq_map]
      refine List.flatMap_congr fun p _ => ?_
      simp [Html.targets_element (hcurrent (outputPath p.2.name))]

/-- **The index** links to the path of each chapter. -/
theorem targetsIn_indexSection (site : Site reg) (page : String) (s : Section (Summary reg)) :
    targetsIn (indexSection site page s)
      = s.all.map fun m => site.links.href page (outputPath m.chapter.name) := by
  induction s using Section.induction with
  | mk name sections items ih =>
    have hsections : targetsIn (indexSections site page sections)
        = (Section.allIn sections).map fun m =>
          site.links.href page (outputPath m.chapter.name) := by
      rw [indexSections_eq, targetsIn_flatMap, Section.allIn_eq, List.map_flatMap]
      exact List.flatMap_congr fun p hp => ih p hp
    have hentries : targetsIn (indexEntries site page name items)
        = items.map fun p => site.links.href page (outputPath p.2.chapter.name) := by
      by_cases hempty : items.isEmpty
      · obtain rfl : items = [] := by simpa using hempty
        rfl
      · rw [indexEntries, if_neg hempty, targetsIn_block (by simp), Html.targetsIn_append,
          targetsIn_block (by simp), targetsIn_flatMap, ← List.flatMap_pure_eq_map]
        simp only [Html.targetsIn_line, Html.targetsIn_cons, Html.targets_plain, Html.targets_text,
          Html.targetsIn_nil, List.append_nil, List.nil_append]
        refine List.flatMap_congr fun p _ => ?_
        cases p.2.text <;> simp
    rw [indexSection, Html.targetsIn_append, hsections, hentries, Section.all, List.map_append,
      List.map_map]
    rfl

/-! ### Types -/

/-- The link to a documented chapter has the base address in front. -/
theorem Site.link?_of_isDocumented (site : Site reg) {id : ChapterId} {c : Chapter reg}
    (hid : site.contents.get? id = some c) (hc : c.isDocumented) :
    site.link? id = some (site.links.baseUrl ++ outputPath c.name) := by
  rw [Site.link?, hid, Option.bind_some, Links.toChapter, Links.resolve, if_pos hc]

/-- **A class in a type** links to its page behind the base address. -/
theorem targets_classMarkup (site : Site reg) (page : String) {id : ChapterId} {c : Chapter reg}
    (hid : site.contents.get? id = some c) (hc : c.isDocumented) (name : String) :
    (classMarkup site page id name).targets
      = [site.links.href page (site.links.baseUrl ++ outputPath c.name)] := by
  rw [classMarkup, site.link?_of_isDocumented hid hc]
  simp [targets]

/-- A base address in front of a path is seen in the link, unless it is empty. -/
theorem Links.href_baseUrl_eq_iff (links : Links) (page path : String) :
    links.href page (links.baseUrl ++ path) = links.href page path ↔ links.baseUrl = "" := by
  constructor
  · intro h
    by_contra hbase
    have hset : (!links.baseUrl.isEmpty) = true := by simpa using hbase
    simp only [href, hset, Bool.true_or, if_true] at h
    have hlength := congrArg String.length h
    rw [String.length_append] at hlength
    exact hbase (String.length_eq_zero_iff.1 (by omega))
  · intro h
    rw [h, String.empty_append]

/-- **All links to a chapter agree exactly where no base address is set.**  On every page, the
outline at its side and the index show the same links, and a type that names a listed class links
to the same place if and only if the base address is empty. -/
theorem references_agree_iff (site : Site reg) (page : String) (listing : Section (Summary reg))
    (hlisted : ∀ m ∈ listing.all,
      site.contents.get? m.chapter.id = some m.chapter ∧ m.chapter.isDocumented) :
    ∃ listed : Chapter reg → String,
      targetsIn (navigation site page (listing.map (·.chapter)))
          = listing.all.map (fun m => listed m.chapter) ∧
        targetsIn (indexSection site page listing)
          = listing.all.map (fun m => listed m.chapter) ∧
        ∀ m ∈ listing.all, ∀ name,
          targetsIn (typeMarkup site page (.linked m.chapter.id name [])) = [listed m.chapter] ↔
            site.links.baseUrl = "" := by
  refine ⟨fun c => site.links.href page (outputPath c.name), ?_,
    targetsIn_indexSection site page listing, fun m hm name => ?_⟩
  · rw [targetsIn_navigation, Section.all_map, List.map_map]
    rfl
  · obtain ⟨hid, hdocumented⟩ := hlisted m hm
    rw [typeMarkup, genericMarkup, Html.targetsIn_cons,
      targets_classMarkup site page hid hdocumented name]
    simpa using site.links.href_baseUrl_eq_iff page (outputPath m.chapter.name)

/-- The chapter of the page in the registry of a vendor. -/
def vendorChapter : Chapter vendorRegistry :=
  ⟨⟨0⟩, vendorPage⟩

/-- A handbook of that page with the given base address. -/
def vendorSite (baseUrl : String) : Site vendorRegistry :=
  ⟨{ baseUrl }, "Docs", ⟨#[vendorChapter], []⟩, Markdown.toHtml⟩

/-- The listing of that handbook. -/
def vendorListing : Section (Summary vendorRegistry) :=
  .mk "" [("App", .mk "App" [] [("Page", ⟨vendorChapter, none⟩)])] []

/-- Without a base address the page links to itself in one way. -/
theorem references_of_vendorPage :
    targetsIn (navigation (vendorSite "") "classes/app/page.html" (vendorListing.map (·.chapter)))
      = targetsIn (typeMarkup (vendorSite "") "classes/app/page.html"
        (.linked ⟨0⟩ "App\\Page" [])) := by
  obtain ⟨listed, hnavigation, -, htypes⟩ :=
    references_agree_iff (vendorSite "") "classes/app/page.html" vendorListing
      (fun m hm => by
        obtain rfl : m = ⟨vendorChapter, none⟩ := by
          simpa [vendorListing, Section.all, Section.allIn] using hm
        exact ⟨rfl, rfl⟩)
  rw [hnavigation]
  exact ((htypes ⟨vendorChapter, none⟩ List.mem_cons_self "App\\Page").2 rfl).symm

/-- With the base address `/api/` the outline links to the page without it, and a type with it. -/
theorem references_of_vendorPage_below_api :
    targetsIn
      (navigation (vendorSite "/api/") "classes/app/page.html" (vendorListing.map (·.chapter)))
        = ["classes/app/page.html"] ∧
      targetsIn
        (typeMarkup (vendorSite "/api/") "classes/app/page.html" (.linked ⟨0⟩ "App\\Page" []))
        = ["/api/classes/app/page.html"] := by
  refine ⟨by decide +kernel, ?_⟩
  rw [typeMarkup, genericMarkup]
  decide +kernel

end Handbook

end PhpHandbook
