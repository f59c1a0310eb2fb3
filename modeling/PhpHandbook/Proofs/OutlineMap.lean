import PhpHandbook.Proofs.Linked

/-!
# Outlines of renumbered chapters

The outline of a handbook sorts chapters by namespace and name and never looks at their numbers.
So the outline of renumbered chapters is the outline of the chapters, renumbered item by item, and
what a page shows of an outline is the same for both.

## Main definitions

* `Section.map`: a section with every item changed.

## Main statements

* `root_outlineOf_map`: an outline is built in the same way from changed chapters, as long as they
  keep their declarations.
* `navigation_map`, `indexSection_map`: pages show declarations and no numbers.
-/

namespace PhpHandbook.Handbook

variable {reg : Registry} {α β : Type}

/-! ### Sections item by item -/

namespace Section

/-- **Induction over a section** along its subnamespaces. -/
@[elab_as_elim]
theorem induction {P : Section α → Prop} (s : Section α)
    (mk : ∀ name sections items, (∀ p ∈ sections, P p.2) → P (.mk name sections items)) :
    P s :=
  @Section.rec α P (fun ss => ∀ p ∈ ss, P p.2) (fun p => P p.2) mk (by simp)
    (fun _ _ hp hps => List.forall_mem_cons.2 ⟨hp, hps⟩) (fun _ _ h => h) s

mutual

/-- **A section with every item changed.** -/
def map (f : α → β) : Section α → Section β
  | .mk name sections items => .mk name (mapIn f sections) (items.map fun p => (p.1, f p.2))

/-- Several sections with every item changed. -/
def mapIn (f : α → β) : List (String × Section α) → List (String × Section β)
  | [] => []
  | (segment, s) :: rest => (segment, s.map f) :: mapIn f rest

end

theorem mapIn_eq (f : α → β) (ss : List (String × Section α)) :
    mapIn f ss = ss.map fun p => (p.1, p.2.map f) := by
  induction ss with
  | nil => rfl
  | cons p ss ih => rw [mapIn, ih, List.map_cons]

theorem allIn_eq (ss : List (String × Section α)) : allIn ss = ss.flatMap (·.2.all) := by
  induction ss with
  | nil => rfl
  | cons p ss ih => rw [allIn, ih, List.flatMap_cons]

/-- One change after another. -/
theorem map_map {γ : Type} (f : α → β) (g : β → γ) (s : Section α) :
    (s.map f).map g = s.map fun a => g (f a) := by
  induction s using Section.induction with
  | mk name ss items ih =>
    have hss : ss.map (fun p => (p.1, (p.2.map f).map g))
        = ss.map fun p => (p.1, p.2.map fun a => g (f a)) :=
      List.map_congr_left fun p hp => by rw [ih p hp]
    rw [map, map, map, mapIn_eq, mapIn_eq, mapIn_eq, List.map_map, List.map_map, ← hss]
    rfl

end Section

/-! ### Building an outline -/

theorem map_alter (key : String) (f : Option α → α) (g : α → β) (f' : Option β → β)
    (h : ∀ old, g (f old) = f' (old.map g)) (pairs : List (String × α)) :
    (alter key f pairs).map (fun p => (p.1, g p.2))
      = alter key f' (pairs.map fun p => (p.1, g p.2)) := by
  induction pairs with
  | nil => simp [alter, h]
  | cons p pairs ih =>
    rw [alter, List.map_cons, alter]
    split_ifs
    · rw [List.map_cons, h, Option.map_some]
    · rw [List.map_cons, h, List.map_cons, Option.map_none]
    · rw [List.map_cons, ih]

/-- An item is placed by its namespace and name only. -/
theorem Section.map_insert (f : α → β) (item : String) (value : α) (path : List String)
    (s : Section α) :
    (s.insert item value path).map f = (s.map f).insert item (f value) path := by
  induction path generalizing s with
  | nil =>
    obtain ⟨name, ss, items⟩ := s
    rw [insert, map, map, insert, map_alter _ _ f (fun _ => f value) fun _ => rfl]
  | cons segment path ih =>
    obtain ⟨name, ss, items⟩ := s
    rw [insert, map, map, insert, mapIn_eq, mapIn_eq]
    -- the subsection is made if it is missing, and made alike on both sides
    rw [map_alter _ _ (map f) (fun old =>
      insert item (f value) path (old.getD (.mk (subname name segment) [] [])))]
    intro old
    rw [ih]
    cases old <;> rfl

/-- What holds of all pairs, and of the pair with the changed value, holds after the change. -/
theorem forall_mem_alter {key : String} {f : Option α → α} {pairs : List (String × α)}
    {P : String × α → Prop} (hpairs : ∀ p ∈ pairs, P p) (hnone : P (key, f none))
    (hsome : ∀ a, (key, a) ∈ pairs → P (key, f (some a))) :
    ∀ p ∈ alter key f pairs, P p := by
  induction pairs with
  | nil => exact List.forall_mem_singleton.2 hnone
  | cons p pairs ih =>
    obtain ⟨k, v⟩ := p
    obtain ⟨hp, hpairs'⟩ := List.forall_mem_cons.1 hpairs
    rw [alter]
    split_ifs with heq
    · subst heq
      exact List.forall_mem_cons.2 ⟨hsome v List.mem_cons_self, hpairs'⟩
    · exact List.forall_mem_cons.2 ⟨hnone, hpairs⟩
    · exact List.forall_mem_cons.2
        ⟨hp, ih hpairs' fun a ha => hsome a (List.mem_cons_of_mem _ ha)⟩

theorem mem_alter {key : String} {f : Option α → α} {p : String × α}
    {pairs : List (String × α)} (h : p ∈ alter key f pairs) :
    p ∈ pairs ∨ p.2 = f none ∨ ∃ old ∈ pairs, p.2 = f (some old.2) :=
  forall_mem_alter
    (P := fun p => p ∈ pairs ∨ p.2 = f none ∨ ∃ old ∈ pairs, p.2 = f (some old.2))
    (fun _ hp => .inl hp) (.inr (.inl rfl)) (fun _ ha => .inr (.inr ⟨_, ha, rfl⟩)) p h

/-- The items of a section after an item is placed in it. -/
theorem Section.mem_all_insert {item : String} {value a : α} {path : List String} {s : Section α}
    (h : a ∈ (s.insert item value path).all) : a = value ∨ a ∈ s.all := by
  induction path generalizing s with
  | nil =>
    obtain ⟨name, ss, items⟩ := s
    rw [insert, all] at h
    rw [all]
    rcases List.mem_append.1 h with h | h
    · exact .inr (List.mem_append_left _ h)
    · obtain ⟨p, hp, rfl⟩ := List.mem_map.1 h
      rcases mem_alter hp with hp | hp | ⟨old, -, hp⟩
      · exact .inr (List.mem_append_right _ (List.mem_map_of_mem hp))
      · exact .inl hp
      · exact .inl hp
  | cons segment path ih =>
    obtain ⟨name, ss, items⟩ := s
    rw [insert, all, allIn_eq] at h
    rw [all, allIn_eq]
    rcases List.mem_append.1 h with h | h
    · obtain ⟨p, hp, ha⟩ := List.mem_flatMap.1 h
      rcases mem_alter hp with hp | hp | ⟨old, hold, hp⟩
      · exact .inr (List.mem_append_left _ (List.mem_flatMap.2 ⟨p, hp, ha⟩))
      · rw [hp] at ha
        rcases ih ha with ha | ha
        · exact .inl ha
        · cases ha
      · rw [hp] at ha
        rcases ih ha with ha | ha
        · exact .inl ha
        · exact .inr (List.mem_append_left _ (List.mem_flatMap.2 ⟨old, hold, ha⟩))
    · exact .inr (List.mem_append_right _ h)

/-- The items of an outline are the chapters it was made of. -/
theorem mem_of_mem_outlineOf {chapters : List (Chapter reg)} {c : Chapter reg}
    (h : c ∈ (outlineOf chapters).root.all) : c ∈ chapters := by
  have step (chapters : List (Chapter reg)) (outline : Outline (Chapter reg))
      (h : c ∈ (chapters.foldl (fun o c => o.insert c.space c.basename c) outline).root.all) :
      c ∈ chapters ∨ c ∈ outline.root.all := by
    induction chapters generalizing outline with
    | nil => exact .inr h
    | cons c' chapters ih =>
      rcases ih _ h with hc | hc
      · exact .inl (List.mem_cons_of_mem _ hc)
      · rcases Section.mem_all_insert hc with rfl | hc
        · exact .inl List.mem_cons_self
        · exact .inr hc
  rcases step chapters {} h with hc | hc
  · exact hc
  · cases hc

/-- **The outline of changed chapters** that keep their declarations. -/
theorem root_outlineOf_map (g : Chapter reg → Chapter reg) (hg : ∀ c, (g c).entry = c.entry)
    (chapters : List (Chapter reg)) :
    (outlineOf (chapters.map g)).root = (outlineOf chapters).root.map g := by
  have step (chapters : List (Chapter reg)) (outline outline' : Outline (Chapter reg))
      (h : outline'.root = outline.root.map g) :
      ((chapters.map g).foldl (fun o c => o.insert c.space c.basename c) outline').root
        = (chapters.foldl (fun o c => o.insert c.space c.basename c) outline).root.map g := by
    induction chapters generalizing outline outline' with
    | nil => exact h
    | cons c chapters ih =>
      refine ih _ _ ?_
      show outline'.root.insert (g c).basename (g c) (Outline.pathOf (g c).space)
        = (outline.root.insert c.basename c (Outline.pathOf c.space)).map g
      rw [Section.map_insert, h, Chapter.basename, Chapter.space, hg]
      rfl
  exact step chapters {} {} rfl

/-! ### What pages show of an outline -/

theorem Section.basename_map (f : α → β) (s : Section α) :
    (s.map f).basename = s.basename := by
  cases s
  rfl

theorem navigationSections_eq (site : Site reg) (page : String)
    (ss : List (String × Section (Chapter reg))) :
    navigationSections site page ss = ss.flatMap fun p =>
      Html.line "    " [Html.classed "li" "namespace"
        (.text p.2.basename :: .text "\n" :: navigation site page p.2 ++ [Html.text "    "])] := by
  induction ss with
  | nil => rfl
  | cons p ss ih => rw [navigationSections, ih, List.flatMap_cons]

/-- **The outline at the side of a page** shows no numbers. -/
theorem navigation_map {site₁ site₂ : Site reg} (hrules : site₂.links = site₁.links)
    (page : String) (g : Chapter reg → Chapter reg) (hg : ∀ c, (g c).entry = c.entry)
    (s : Section (Chapter reg)) :
    navigation site₂ page (s.map g) = navigation site₁ page s := by
  induction s using Section.induction with
  | mk name ss items ih =>
    have hss : navigationSections site₂ page (ss.map fun p => (p.1, p.2.map g))
        = navigationSections site₁ page ss := by
      rw [navigationSections_eq, navigationSections_eq, List.flatMap_map]
      exact List.flatMap_congr fun p hp => by rw [Section.basename_map, ih p hp]
    have hname (c : Chapter reg) : (g c).name = c.name := by rw [Chapter.name, hg, Chapter.name]
    have hbasename (c : Chapter reg) : (g c).basename = c.basename := by
      rw [Chapter.basename, hg, Chapter.basename]
    rw [Section.map, Section.mapIn_eq, navigation, navigation, hss, List.isEmpty_map,
      List.isEmpty_map, List.flatMap_map]
    simp only [hname, hbasename, hrules]

theorem indexSections_eq (site : Site reg) (page : String)
    (ss : List (String × Section (Summary reg))) :
    indexSections site page ss = ss.flatMap fun p => indexSection site page p.2 := by
  induction ss with
  | nil => rfl
  | cons p ss ih => rw [indexSections, ih, List.flatMap_cons]

/-- **The index page** shows no numbers: of a chapter it shows its declaration and a text. -/
theorem indexSection_map {site₁ site₂ : Site reg} (hrules : site₂.links = site₁.links)
    (page : String) (f₁ f₂ : α → Summary reg)
    (hentry : ∀ a, (f₂ a).chapter.entry = (f₁ a).chapter.entry)
    (htext : ∀ a, (f₂ a).text = (f₁ a).text) (s : Section α) :
    indexSection site₂ page (s.map f₂) = indexSection site₁ page (s.map f₁) := by
  induction s using Section.induction with
  | mk name ss items ih =>
    rw [Section.map, Section.map, Section.mapIn_eq, Section.mapIn_eq, indexSection, indexSection,
      indexSections_eq, indexSections_eq, List.flatMap_map, List.flatMap_map,
      List.flatMap_congr ih, indexEntries, indexEntries, List.isEmpty_map, List.isEmpty_map,
      List.flatMap_map, List.flatMap_map]
    simp only [Chapter.name, Chapter.basename, hentry, htext, hrules]

end PhpHandbook.Handbook
