import PhpHandbook.Proofs.OutlineOrder
import PhpHandbook.Proofs.References

/-!
# Chapters in the outline

The outline of a handbook files its chapters by namespace and name.  Full names are made of both, so
chapters with different names are filed at different places, and the chapters with a page, whose
names are different, are all there.  The outline at the side of a page and the index go through the
same sections: the one shows them as they are, the other one with summaries.  So both link to every
chapter with a page once, in the order of the outline.

## Main statements

* `isIndex_outlineOf`: the outline of chapters is a sorted index of them.
* `map_summarize`: the index goes through the sections of the outline.
* `outline_is_sorted_index`: the outline as an index, and how pages list it.
-/

namespace PhpHandbook.Handbook

open Outline (IsIndex)

variable {reg : Registry}

/-! ### Chapters by namespace and name -/

theorem Chapter.name_eq (c : Chapter reg) :
    c.name = if c.space.isEmpty then c.basename else c.space ++ "\\" ++ c.basename := by
  have hformed := reg.formed _ c.entry.2
  rw [name, hformed.name_eq, Registry.Scope.qualify, ← hformed.space_eq]
  rfl

/-- Namespaces are written without a separator in front. -/
theorem Chapter.head?_space_ne (c : Chapter reg) : c.space.toList.head? ≠ some '\\' := by
  intro hhead
  have hnamed : Source.beginsName c.name := (reg.formed _ c.entry.2).named
  have hspace : c.space.isEmpty = false := by
    rw [String.isEmpty_eq_false_iff]
    intro hempty
    rw [hempty] at hhead
    cases hhead
  rw [Source.beginsName, c.name_eq, hspace] at hnamed
  obtain ⟨cs, hcs⟩ := List.head?_eq_some_iff.1 hhead
  simp [hcs] at hnamed
  exact absurd hnamed (by decide)

/-- **The outline of chapters is a sorted index** of them. -/
theorem isIndex_outlineOf (chapters : List (Chapter reg)) :
    IsIndex Chapter.space Chapter.basename chapters (outlineOf chapters) :=
  Outline.isIndex_of fun c _ => c.head?_space_ne

/-- The chapters at one place have one name. -/
theorem filter_place (namespace' basename : String) (chapters : List (Chapter reg)) :
    chapters.filter (fun c => c.space = namespace' ∧ c.basename = basename)
      = (chapters.filter fun c => c.name
          = if namespace'.isEmpty then basename else namespace' ++ "\\" ++ basename).filter
        fun c => c.space = namespace' ∧ c.basename = basename := by
  rw [List.filter_filter]
  refine List.filter_congr fun c _ => ?_
  by_cases hplace : c.space = namespace' ∧ c.basename = basename
  · obtain ⟨rfl, rfl⟩ := hplace
    simp [c.name_eq]
  · simp [hplace]

/-- **Chapters with different names may trade places** before they are filed. -/
theorem all_outlineOf_eq {chapters chapters' : List (Chapter reg)}
    (hsame : ∀ name, chapters'.filter (·.name = name) = chapters.filter (·.name = name)) :
    (outlineOf chapters').all = (outlineOf chapters).all := by
  refine (isIndex_outlineOf chapters).all_eq (isIndex_outlineOf chapters')
    fun namespace' basename => ?_
  rw [filter_place, hsame, ← filter_place]

/-! ### Chapters with a page -/

/-- **The chapters with a page** are about the declarations of the project. -/
theorem entries_documented {run : Run reg} (hrun : run.contents.Sound) :
    ((documented.run run).1.map Chapter.entry).Perm
      (reg.entries.attach.filter fun e => e.1.origin == .project) := by
  rw [documented, entries_of_mapM_chapterOf _ run hrun]
  exact List.mergeSort_perm _ _

theorem nodup_attach (reg : Registry) : reg.entries.attach.Nodup :=
  List.nodup_attach.2 (reg.distinct.of_map _)

/-- Chapters about different declarations have different places. -/
theorem nodup_places {chapters : List (Chapter reg)} (h : (chapters.map Chapter.entry).Nodup) :
    (chapters.map fun c => (c.space, c.basename)).Nodup := by
  refine (List.nodup_map_iff_inj_on (h.of_map _)).2 fun c hc d hd hplace => ?_
  refine List.inj_on_of_nodup_map h hc hd (Registry.entry_eq_of_key (congrArg Registry.lower ?_))
  obtain ⟨hspace, hbasename⟩ := Prod.ext_iff.1 hplace
  show c.name = d.name
  rw [c.name_eq, d.name_eq, show c.space = d.space from hspace,
    show c.basename = d.basename from hbasename]

/-- **Every declaration of the project is in the outline once.** -/
theorem entries_outlineOf_documented {run : Run reg} (hrun : run.contents.Sound) :
    ((outlineOf (documented.run run).1).all.map Chapter.entry).Perm
      (reg.entries.attach.filter fun e => e.1.origin == .project) := by
  have hentries := entries_documented hrun
  have hnodup := hentries.nodup_iff.2 ((nodup_attach reg).filter _)
  exact (((isIndex_outlineOf _).perm (nodup_places hnodup)).map _).trans hentries

/-! ### The index -/

mutual

/-- **The index goes through the sections of the outline.** -/
theorem map_summarize : (s : Section (Chapter reg)) → (run : Run reg) →
    ((summarize s).run run).1.map (·.chapter) = s
  | .mk name sections items, run => by
    have hsections := map_summarizeSections sections run
    have hitems := map_summarizeItems items ((summarizeSections sections).run run).2
    have hrun : ((summarize (.mk name sections items)).run run).1
        = .mk name ((summarizeSections sections).run run).1
          ((summarizeItems items).run ((summarizeSections sections).run run).2).1 := by
      rw [summarize]
      rfl
    rw [hrun, Section.map, hsections, hitems]

theorem map_summarizeSections : (ss : List (String × Section (Chapter reg))) →
    (run : Run reg) →
    Section.mapIn (·.chapter) ((summarizeSections ss).run run).1 = ss
  | [], _ => by
    rw [summarizeSections]
    rfl
  | (segment, s) :: rest, run => by
    have hs := map_summarize s run
    have hrest := map_summarizeSections rest ((summarize s).run run).2
    have hrun : ((summarizeSections ((segment, s) :: rest)).run run).1
        = (segment, ((summarize s).run run).1)
          :: ((summarizeSections rest).run ((summarize s).run run).2).1 := by
      rw [summarizeSections]
      rfl
    rw [hrun, Section.mapIn, hs, hrest]

theorem map_summarizeItems : (items : List (String × Chapter reg)) → (run : Run reg) →
    ((summarizeItems items).run run).1.map (fun p => (p.1, p.2.chapter)) = items
  | [], _ => by
    rw [summarizeItems]
    rfl
  | (basename, c) :: rest, run => by
    have hrest := map_summarizeItems rest (c.doc.run run).2
    have hrun : ((summarizeItems ((basename, c) :: rest)).run run).1
        = (basename, ⟨c, (c.doc.run run).1.summary?⟩)
          :: ((summarizeItems rest).run (c.doc.run run).2).1 := by
      rw [summarizeItems]
      rfl
    rw [hrun, List.map_cons, hrest]

end

/-- The index links to the chapters of the outline. -/
theorem targetsIn_index (site : Site reg) (page : String) (s : Section (Chapter reg))
    (run : Run reg) :
    Html.targetsIn (indexSection site page ((summarize s).run run).1)
      = s.all.map fun c => site.links.href page (outputPath c.name) := by
  have hall := Section.all_map (·.chapter) ((summarize s).run run).1
  rw [map_summarize] at hall
  rw [targetsIn_indexSection, hall, List.map_map]
  rfl

/-! ### The outline as an index -/

/-- **The outline of a handbook is a sorted index without losses.**  Let values be placed that say
to which namespace and under which name they belong.  Under each namespace and name the outline has
the value that was placed there last, and no other; their number is counted; they stand in reading
order; every namespace is named after the parts that lead to it; and a namespace is found exactly if
there is something in it or below it.  This holds of every list of chapters, and chapters with
different names may trade places in that list.  Of the chapters with a page, each declaration of the
project has one in the outline, and to these the outline at the side of every page and the index
link, to each of them once. -/
theorem outline_is_sorted_index :
    (∀ (α : Type) (space item : α → String) (values : List α),
      (∀ a ∈ values, (space a).toList.head? ≠ some '\\') →
      IsIndex space item values (Outline.of space item values)) ∧
    ∀ reg : Registry,
      (∀ chapters : List (Chapter reg),
        IsIndex Chapter.space Chapter.basename chapters (outlineOf chapters)) ∧
      (∀ chapters chapters' : List (Chapter reg),
        (∀ name, chapters'.filter (·.name = name) = chapters.filter (·.name = name)) →
        (outlineOf chapters').all = (outlineOf chapters).all) ∧
      ∀ run run' : Run reg, run.contents.Sound → ∀ (site : Site reg) (page : String),
        let outline := outlineOf (documented.run run).1
        let listed := outline.all.map fun c => site.links.href page (outputPath c.name)
        (outline.all.map Chapter.entry).Perm
          (reg.entries.attach.filter fun e => e.1.origin == .project) ∧
        Html.targetsIn (navigation site page outline.root) = listed ∧
        Html.targetsIn (indexSection site page ((summarize outline.root).run run').1) = listed := by
  refine ⟨fun _ _ _ _ => Outline.isIndex_of, fun reg => ⟨isIndex_outlineOf, ?_, ?_⟩⟩
  · exact fun _ _ => all_outlineOf_eq
  · intro run run' hrun site page outline listed
    exact ⟨entries_outlineOf_documented hrun, targetsIn_navigation site page outline.root,
      targetsIn_index site page outline.root run'⟩

/-- Values of two namespaces, one of them twice. -/
def filed : List (String × String × Nat) :=
  [("App\\Http", "Client", 1), ("App", "Zed", 2), ("App\\Http", "Client", 3)]

example :
    (Outline.of (·.1) (·.2.1) filed).all = [("App\\Http", "Client", 3), ("App", "Zed", 2)] := by
  decide +kernel

/-- These values are indexed, chapters may trade places, and a page lists both classes of a
registry. -/
theorem outline_is_sorted_index_vendor :
    let outline := outlineOf ((@documented vendorRegistry).run {}).1
    IsIndex (·.1) (·.2.1) filed (Outline.of (·.1) (·.2.1) filed) ∧
      (outlineOf [⟨⟨1⟩, vendorEntity⟩, ⟨⟨0⟩, vendorPage⟩]).all
        = (outlineOf [⟨⟨0⟩, vendorPage⟩, ⟨⟨1⟩, vendorEntity⟩]).all ∧
      (Html.targetsIn (navigation (vendorSite "") "index.html" outline.root)).length = 2 := by
  intro outline
  obtain ⟨hindex, hchapters⟩ := outline_is_sorted_index
  obtain ⟨-, htrade, hpages⟩ := hchapters vendorRegistry
  refine ⟨hindex _ _ _ filed (by decide +kernel), htrade _ _ fun name => ?_, ?_⟩
  · have hne : Chapter.name ⟨⟨0⟩, vendorPage⟩
        ≠ Chapter.name ⟨⟨1⟩, vendorEntity⟩ := by decide +kernel
    simp only [List.filter_cons, List.filter_nil]
    by_cases hname : Chapter.name ⟨⟨0⟩, vendorPage⟩ = name
    · subst hname
      simp [hne.symm]
    · simp [hname]
  · obtain ⟨hperm, hnavigation, -⟩ :=
      hpages {} {} Contents.sound_empty (vendorSite "") "index.html"
    rw [hnavigation, List.length_map, ← List.length_map (f := Chapter.entry), hperm.length_eq]
    decide +kernel

end PhpHandbook.Handbook
