import PhpHandbook.Proofs.ResolverAccord

/-!
# Facets in accord

Every facet of a chapter agrees in any two runs.  Facets are remembered, so for each of them it is
enough that working it out agrees; `Query.agree_remembered` does the rest.  Lists of types are put
together and sorted by names, which do not depend on numbers.

## Main statements

* `Query.agree_facet`: every facet of matching chapters agrees.
* `Query.agree_sheet`: so does all that the page of a class shows.
-/

namespace PhpHandbook.Handbook

open Declaration (Param)
open DocBlock (Document)
open Hierarchy (VisibleConstant VisibleProperty VisibleMethod)

variable {reg : Registry} {w : Tables reg} {α : Type} [Linked α]

/-! ### Lists up to numbers -/

/-- Whether a type is added to a list does not depend on numbers. -/
theorem erase_addUnlisted (ts : List ResolvedType) (t : ResolvedType) :
    erase (addUnlisted ts t) = addUnlisted (ts.map erase) (erase t) := by
  have hany : ((ts.map erase).any fun t' =>
        Registry.lower (listName t') == Registry.lower (listName (erase t)))
      = ts.any fun t' => Registry.lower (listName t') == Registry.lower (listName t) := by
    rw [List.any_map]
    congr 1
    refine funext fun t' => ?_
    show (Registry.lower (listName (t'.renumber _)) == Registry.lower (listName (t.renumber _))) = _
    rw [ResolvedType.listName_renumber, ResolvedType.listName_renumber]
  rw [addUnlisted, addUnlisted, hany]
  split
  · rfl
  · show (ts ++ [t]).map erase = _
    rw [List.map_append]
    rfl

namespace Match

/-- The first item with a property that numbers do not change. -/
theorem find? {as₁ as₂ : List α} (h : Match w as₁ as₂) (p : α → Bool)
    (hp : ∀ a, p (erase a) = p a) : Match w (as₁.find? p) (as₂.find? p) := by
  refine h.apply (fun as => as.find? p) (fun as => ?_) fun as => ?_
  · cases hfind : as.find? p with
    | none => exact List.nil_subset _
    | some a => exact fun l hl => List.mem_flatMap.2 ⟨a, List.mem_of_find?_eq_some hfind, hl⟩
  · show (as.find? p).map erase = (as.map erase).find? p
    rw [List.find?_map]
    congr 2
    exact funext fun a => (hp a).symm

/-- Items in natural order of labels that numbers do not change. -/
theorem sortNaturalBy {as₁ as₂ : List α} (h : Match w as₁ as₂) (label : α → String)
    (hlabel : ∀ a, label (erase a) = label a) :
    Match w (Text.sortNaturalBy label as₁) (Text.sortNaturalBy label as₂) := by
  refine h.apply (Text.sortNaturalBy label) (fun as => ?_) fun as => ?_
  · intro l hl
    obtain ⟨a, ha, hla⟩ := List.mem_flatMap.1 hl
    exact List.mem_flatMap.2 ⟨a, List.mem_mergeSort.1 ha, hla⟩
  · show (Text.sortNaturalBy label as).map erase = Text.sortNaturalBy label (as.map erase)
    exact List.map_mergeSort fun a _ b _ => by rw [hlabel, hlabel]

/-- A type added to a list. -/
theorem addUnlisted {ts₁ ts₂ : List ResolvedType} {t₁ t₂ : ResolvedType}
    (hts : Match w ts₁ ts₂) (ht : Match w t₁ t₂) :
    Match w (addUnlisted ts₁ t₁) (addUnlisted ts₂ t₂) := by
  refine (hts.prod ht).apply (fun p => Handbook.addUnlisted p.1 p.2) (fun p => ?_) fun p => ?_
  · unfold Handbook.addUnlisted
    split
    · exact List.subset_append_left _ _
    · show links (p.1 ++ [p.2]) ⊆ links p.1 ++ links p.2
      simp [links]
  · exact erase_addUnlisted p.1 p.2

/-- The type with a name in a list. -/
theorem listed? {ts₁ ts₂ : List ResolvedType} (h : Match w ts₁ ts₂) (name : String) :
    Match w (listed? ts₁ name) (listed? ts₂ name) :=
  h.find? _ fun t => by
    show (t.renumber _).name?.any _ = _
    rw [ResolvedType.name?_renumber]

/-- Whether a type refers to a chapter. -/
theorem isSome_chapter? {t₁ t₂ : ResolvedType} (h : Match w t₁ t₂) :
    t₁.chapter?.isSome = t₂.chapter?.isSome := by
  have herase : t₁.renumber (fun _ _ => ⟨0⟩) = t₂.renumber (fun _ _ => ⟨0⟩) :=
    h.erase_eq
  rw [← ResolvedType.isSome_chapter?_renumber (fun _ _ => ⟨0⟩) t₁, herase,
    ResolvedType.isSome_chapter?_renumber]

/-- Matching chapters have the same declaration and differ in their numbers. -/
theorem chapter_cases {c₁ c₂ : Chapter reg} (h : Match w c₁ c₂) :
    ∃ i₁ i₂ e, c₁ = ⟨i₁, e⟩ ∧ c₂ = ⟨i₂, e⟩ :=
  ⟨c₁.id, c₂.id, c₁.entry, rfl, by rw [h.entry_eq]⟩

end Match

/-! ### Documents and resolvers of chapters -/

/-- The document of a chapter is remembered like any other facet. -/
theorem gathered_doc (c : Chapter reg) :
    gathered c.doc = remembered c .doc (gathered (readComment c.entry.1.decl.doc)) :=
  gathered_noted c .doc _

theorem Gather.Agree.of_gathered {g₁ g₂ : Gather reg α}
    (h : Query.Agree w (gathered g₁) (gathered g₂)) : Gather.Agree w g₁ g₂ := by
  intro run₁ run₂ h₁ h₂ hw
  obtain ⟨hsound₁, hsound₂, hle, hmatch⟩ := h run₁ run₂ h₁ h₂ hw
  exact ⟨hsound₁, hsound₂, hle, hmatch.left, hmatch.right, Except.ok.inj hmatch.erase_eq⟩

theorem Gather.agree_doc {c₁ c₂ : Chapter reg} (hc : Match w c₁ c₂) :
    Gather.Agree w c₁.doc c₂.doc := by
  have hwork : ∀ (w : Tables reg) (c₁ c₂ : Chapter reg), Match w c₁ c₂ →
      Query.Agree w (gathered (readComment c₁.entry.1.decl.doc) : Query reg Facet.doc.Answer)
        (gathered (readComment c₂.entry.1.decl.doc)) := by
    intro w c₁ c₂ hc
    rw [hc.entry_eq]
    exact .gathered (agree_readComment _)
  refine .of_gathered ?_
  rw [gathered_doc, gathered_doc]
  exact Query.agree_remembered .doc (fun c => gathered (readComment c.entry.1.decl.doc))
    gathered_doc hwork hc

theorem Gather.agree_resolver {c₁ c₂ : Chapter reg} (hc : Match w c₁ c₂) :
    Gather.Agree w c₁.resolver c₂.resolver := by
  unfold Chapter.resolver
  rw [hc.entry_eq]
  exact (agree_doc hc).bind_eq fun _ _ doc => agree_resolverWith c₂.entry _

/-! ### What a class is made from

In each of these the two chapters are taken apart into their numbers and the declaration that they
share: what is worked out depends on the declaration only. -/

theorem Query.agree_findTemplates (w : Tables reg) (c₁ c₂ : Chapter reg)
    (hc : Match w c₁ c₂) :
    Query.Agree w c₁.findTemplates c₂.findTemplates := by
  refine (Query.Agree.gathered (Gather.agree_doc hc)).bind_eq fun w₁ hle₁ doc => ?_
  refine (Query.Agree.gathered (Gather.agree_resolver (hc.mono hle₁))).bind_eq
    fun w₂ hle₂ r => ?_
  exact agree_resolveTemplates r none doc.templates

theorem Query.agree_templates {c₁ c₂ : Chapter reg} (hc : Match w c₁ c₂) :
    Query.Agree w c₁.templates c₂.templates :=
  agree_remembered .templates Chapter.findTemplates (fun _ => rfl) agree_findTemplates hc

theorem Query.agree_findParent (w : Tables reg) (c₁ c₂ : Chapter reg) (hc : Match w c₁ c₂) :
    Query.Agree w c₁.findParent c₂.findParent := by
  obtain ⟨i₁, i₂, e, rfl, rfl⟩ := hc.chapter_cases
  unfold Chapter.findParent
  by_cases hkind : e.1.kind = .plainClass
  · simp only [hkind, if_true]
    refine (Query.Agree.gathered (Gather.agree_doc hc)).bind_eq fun w₁ hle₁ doc => ?_
    refine (Query.Agree.gathered (Gather.agree_resolver (hc.mono hle₁))).bind_eq
      fun w₂ hle₂ r => ?_
    cases doc.extending.value with
    | some tag => exact (agree_resolve r none w₂ tag.type).map fun _ _ _ _ ht => ht.some
    | none =>
      cases Hierarchy.parentName? e.1 with
      | none => exact .pure .none
      | some name =>
        exact (Query.Agree.gathered (Gather.agree_reference name .nil)).map fun _ _ _ _ ht =>
          ht.some
  · simp only [hkind, if_false]
    exact .pure .none

theorem Query.agree_parent {c₁ c₂ : Chapter reg} (hc : Match w c₁ c₂) :
    Query.Agree w c₁.parent c₂.parent :=
  agree_remembered .parent Chapter.findParent (fun _ => rfl) agree_findParent hc

theorem Query.agree_findInterfaces (w : Tables reg) (c₁ c₂ : Chapter reg)
    (hc : Match w c₁ c₂) :
    Query.Agree w c₁.findInterfaces c₂.findInterfaces := by
  obtain ⟨i₁, i₂, e, rfl, rfl⟩ := hc.chapter_cases
  unfold Chapter.findInterfaces
  refine (Query.Agree.gathered (Gather.agree_doc hc)).bind_eq fun w₁ hle₁ doc => ?_
  refine (Query.Agree.gathered (Gather.agree_resolver (hc.mono hle₁))).bind_eq
    fun w₂ hle₂ r => ?_
  -- interfaces that the comment gives come before those that are declared only
  refine (Query.Agree.foldlM _ (fun w' _ ts₁ ts₂ hts tag => ?_) .nil).bind
    fun w₃ hle₃ ts₁ ts₂ hts => ?_
  · exact (agree_resolve r none w' tag.type).bind fun _ hle _ _ ht =>
      .pure ((hts.mono hle).addUnlisted ht)
  refine (Query.Agree.foldlM _ (fun w' _ ts₁ ts₂ hts name => ?_) hts).bind
    fun w₄ hle₄ ts₁ ts₂ hts => ?_
  · exact (Query.Agree.gathered (Gather.agree_reference name .nil)).bind fun _ hle _ _ ht =>
      .pure ((hts.mono hle).addUnlisted ht)
  exact .pure (hts.sortNaturalBy listName (ResolvedType.listName_renumber _))

theorem Query.agree_interfaces {c₁ c₂ : Chapter reg} (hc : Match w c₁ c₂) :
    Query.Agree w c₁.interfaces c₂.interfaces :=
  agree_remembered .interfaces Chapter.findInterfaces (fun _ => rfl) agree_findInterfaces hc

theorem Query.agree_findTraits (w : Tables reg) (c₁ c₂ : Chapter reg) (hc : Match w c₁ c₂) :
    Query.Agree w c₁.findTraits c₂.findTraits := by
  unfold Chapter.findTraits
  refine (Query.Agree.gathered (Gather.agree_resolver hc)).bind_eq fun w₁ hle₁ r => ?_
  refine (Query.Agree.foldlM _ (fun w' _ ts₁ ts₂ hts use => ?_) .nil).bind
    fun w₂ hle₂ ts₁ ts₂ hts => ?_
  · refine (Query.Agree.gathered (Gather.agree_readText _)).bind_eq fun w'' hle' doc => ?_
    cases doc.usedTrait.value with
    | none => exact .pure (hts.mono hle')
    | some tag =>
      refine (agree_resolve r none w'' tag.type).bind fun w₃ hle₃ t₁ t₂ ht => ?_
      have hts := hts.mono (hle'.trans hle₃)
      -- whether the type is a class is the same in both runs
      by_cases hchapter : t₂.chapter?.isSome = true
      · simp only [ht.isSome_chapter?, hchapter, if_true]
        exact .pure (hts.addUnlisted ht)
      · simp only [ht.isSome_chapter?, hchapter, if_false, Bool.false_eq_true]
        exact .pure hts
  · exact .foldlM _ (fun w' _ ts₁ ts₂ hts use =>
      (Query.Agree.gathered (Gather.agree_reference use.1 .nil)).bind fun _ hle _ _ ht =>
        .pure ((hts.mono hle).addUnlisted ht)) hts

theorem Query.agree_traits {c₁ c₂ : Chapter reg} (hc : Match w c₁ c₂) :
    Query.Agree w c₁.traits c₂.traits :=
  agree_remembered .traits Chapter.findTraits (fun _ => rfl) agree_findTraits hc

/-! ### Constants and properties -/

theorem Query.agree_describeConstant (c : VisibleConstant reg) :
    Query.Agree w (describeConstant c) (describeConstant c) := by
  refine (Query.Agree.gathered (Gather.agree_readComment _)).bind_eq fun w₁ hle₁ doc => ?_
  refine (Query.Agree.gathered (Gather.agree_resolverOf _)).bind_eq fun w₂ hle₂ r => ?_
  refine (Query.Agree.gathered (Gather.agree_resolveHintIf r c.type)).bind
    fun w₃ hle₃ t₁ t₂ ht => ?_
  refine (agree_resolveIf r none _).bind fun w₄ hle₄ d₁ d₂ hd => ?_
  have ht := ht.mono hle₄
  exact .pure (.of_parts (ht.prod (hd.or ht)) fun _ => rfl)

theorem Query.agree_promotedType (p : VisibleProperty reg) (r : Resolver) :
    Query.Agree w (promotedType p r) (promotedType p r) := by
  unfold promotedType
  by_cases hpromoted : p.isPromoted = true
  · simp only [hpromoted, if_true]
    cases Hierarchy.constructor? p.source.1 with
    | none => exact .pure .none
    | some method =>
      refine (Query.Agree.gathered (Gather.agree_readComment _)).bind_eq fun w₁ hle₁ doc => ?_
      cases (doc.param? p.property.name.name).bind (·.type) with
      | none => exact .pure .none
      | some type => exact (agree_resolve r (some doc) w₁ type).map fun _ _ _ _ ht => ht.some
  · simp only [hpromoted, if_false, Bool.false_eq_true]
    exact .pure .none

theorem Query.agree_propertyType (p : VisibleProperty reg) (r : Resolver) (doc : Document)
    {n₁ n₂ : Option ResolvedType} (hn : Match w n₁ n₂) :
    Query.Agree w (propertyType p r doc n₁) (propertyType p r doc n₂) := by
  unfold propertyType
  cases doc.var.value with
  | some tag => exact agree_resolve r none w tag.type
  | none =>
    refine (agree_promotedType p r).bind fun w₁ hle₁ p₁ p₂ hp => ?_
    exact .pure ((hp.or (hn.mono hle₁)).getD (.plain _))

theorem Query.agree_describeProperty (p : VisibleProperty reg) :
    Query.Agree w (describeProperty p) (describeProperty p) := by
  refine (Query.Agree.gathered (Gather.agree_readComment _)).bind_eq fun w₁ hle₁ doc => ?_
  refine (Query.Agree.gathered (Gather.agree_resolverOf _)).bind_eq fun w₂ hle₂ r => ?_
  refine (Query.Agree.gathered (Gather.agree_resolveHintIf r p.property.type)).bind
    fun w₃ hle₃ n₁ n₂ hn => ?_
  refine (agree_propertyType p r doc hn).bind fun w₄ hle₄ t₁ t₂ ht => ?_
  exact .pure (.of_parts (ht.prod (hn.mono hle₄)) fun _ => rfl)

/-! ### Methods -/

theorem Query.agree_describeParameter (r : Resolver) (doc : Document) (position : Nat) (p : Param) :
    Query.Agree w (describeParameter r doc position p : Query reg Parameter)
      (describeParameter r doc position p) := by
  refine (Query.Agree.gathered (Gather.agree_resolveHint? r p.type)).bind
    fun w₁ hle₁ t₁ t₂ ht => ?_
  refine (agree_resolveIf r (some doc) _).bind fun w₂ hle₂ d₁ d₂ hd => ?_
  have ht := ht.mono hle₂
  exact .pure (.of_parts (ht.prod (hd.getD ht)) fun _ => rfl)

theorem Query.agree_listedOrReference {ts₁ ts₂ : List ResolvedType} (h : Match w ts₁ ts₂)
    (name : String) :
    Query.Agree w (listedOrReference ts₁ name : Query reg ResolvedType)
      (listedOrReference ts₂ name) := by
  unfold listedOrReference
  rcases (h.listed? name).option_cases with ⟨h₁, h₂⟩ | ⟨t₁, t₂, h₁, h₂, ht⟩
  · rw [h₁, h₂]
    exact .gathered (Gather.agree_reference name .nil)
  · rw [h₁, h₂]
    exact .pure ht

theorem Gather.agree_chapter? (name : String) :
    Gather.Agree w (chapter? name : Gather reg (Option (Chapter reg))) (chapter? name) := by
  unfold chapter?
  cases reg.find? name with
  | none => exact .pure .none
  | some e => exact (agree_chapterOf e).map fun _ _ _ _ hc => hc.some

theorem Query.agree_inheritedOrigin (m : VisibleMethod reg) :
    Query.Agree w (inheritedOrigin m) (inheritedOrigin m) := by
  unfold inheritedOrigin
  by_cases hkind : m.source.1.kind = .trait
  · simp only [hkind, if_true]
    refine (Query.Agree.gathered (Gather.agree_chapter? m.declaringClass)).bind
      fun w₁ hle₁ o₁ o₂ ho => ?_
    rcases ho.option_cases with ⟨rfl, rfl⟩ | ⟨c₁, c₂, rfl, rfl, hc⟩
    · exact .gathered (Gather.agree_reference _ .nil)
    · exact (agree_traits hc).bind fun w₂ hle₂ ts₁ ts₂ hts => agree_listedOrReference hts _
  · simp only [hkind, if_false]
    exact .gathered (Gather.agree_reference _ .nil)

theorem Match.providingTrait? {ts₁ ts₂ : List ResolvedType} (h : Match w ts₁ ts₂)
    (i₁ i₂ : ChapterId) (e : reg.Entry) (m : VisibleMethod reg) :
    Match w (providingTrait? ⟨i₁, e⟩ ts₁ m) (providingTrait? ⟨i₂, e⟩ ts₂ m) :=
  h.find? _ fun t => by
    show (t.renumber _).name?.any _ = _
    rw [ResolvedType.name?_renumber]

theorem Query.agree_originOf {c₁ c₂ : Chapter reg} (hc : Match w c₁ c₂)
    (m : VisibleMethod reg) :
    Query.Agree w (originOf c₁ m) (originOf c₂ m) := by
  obtain ⟨i₁, i₂, e, rfl, rfl⟩ := hc.chapter_cases
  unfold originOf
  by_cases hown : Registry.sameText m.source.1.name e.1.name = true
  · simp only [Chapter.name, hown, if_true]
    exact .pure .none
  · simp only [Chapter.name, hown, if_false, Bool.false_eq_true]
    refine (agree_traits hc).bind fun w₁ hle₁ ts₁ ts₂ hts => ?_
    have halias : aliasedTrait? (⟨i₁, e⟩ : Chapter reg) m = aliasedTrait? ⟨i₂, e⟩ m :=
      rfl
    rw [halias]
    cases aliasedTrait? (⟨i₂, e⟩ : Chapter reg) m with
    | some name => exact (agree_listedOrReference hts name).map fun _ _ _ _ ht => ht.some
    | none =>
      rcases (hts.providingTrait? i₁ i₂ e m).option_cases with
        ⟨h₁, h₂⟩ | ⟨t₁, t₂, h₁, h₂, ht⟩
      · simp only [h₁, h₂]
        by_cases hdeclared : Registry.sameText m.declaringClass e.1.name = true
        · simp only [hdeclared, if_true]
          exact .pure .none
        · simp only [hdeclared, if_false, Bool.false_eq_true]
          exact (agree_inheritedOrigin m).map fun _ _ _ _ ht => ht.some
      · simp only [h₁, h₂]
        exact .pure ht.some

theorem Query.agree_describeMethod {c₁ c₂ : Chapter reg} (hc : Match w c₁ c₂)
    (m : VisibleMethod reg) : Query.Agree w (describeMethod c₁ m) (describeMethod c₂ m) := by
  obtain ⟨i₁, i₂, e, rfl, rfl⟩ := hc.chapter_cases
  refine (Query.Agree.gathered (Gather.agree_readComment _)).bind_eq fun w₁ hle₁ doc => ?_
  refine (Query.Agree.gathered (Gather.agree_resolverOf _)).bind_eq fun w₂ hle₂ r => ?_
  refine (agree_resolveTemplates r (some doc) doc.templates).bind
    fun w₃ hle₃ ts₁ ts₂ hts => ?_
  refine (Query.Agree.mapM _ fun p _ => agree_describeParameter r doc p.2 p.1).bind
    fun w₄ hle₄ ps₁ ps₂ hps => ?_
  refine (Query.Agree.gathered (Gather.agree_resolveHint? r m.method.returnType)).bind
    fun w₅ hle₅ t₁ t₂ ht => ?_
  refine (agree_resolveIf r (some doc) _).bind fun w₆ hle₆ d₁ d₂ hd => ?_
  refine (Query.Agree.mapM _ fun tag _ => agree_resolve r (some doc) w₆ tag.type).bind
    fun w₇ hle₇ throws₁ throws₂ hthrows => ?_
  have hle₂₇ :=
    ((((hle₁.trans hle₂).trans hle₃).trans hle₄).trans hle₅).trans (hle₆.trans hle₇)
  refine (agree_originOf (hc.mono hle₂₇) m).bind fun w₈ hle₈ o₁ o₂ ho => ?_
  refine (Query.Agree.mapM _ fun name _ =>
    Query.Agree.gathered (Gather.agree_reference name .nil)).bind
      fun w₉ hle₉ is₁ is₂ his => ?_
  -- every part is carried from the tables it was found in to the last ones
  have hle₈₉ := hle₈.trans hle₉
  have hle₇₉ := hle₇.trans hle₈₉
  have hle₆₉ := hle₆.trans hle₇₉
  have hle₅₉ := hle₅.trans hle₆₉
  have ht := ht.mono hle₆₉
  exact .pure (.of_parts ((hts.mono (hle₄.trans hle₅₉)).prod ((hps.mono hle₅₉).prod
    (ht.prod (((hd.mono hle₇₉).getD ht).prod ((hthrows.mono hle₈₉).prod
      ((ho.mono hle₉).prod his)))))) fun _ => rfl)

/-! ### Members and all facets -/

theorem Query.agree_findConstants (w : Tables reg) (c₁ c₂ : Chapter reg)
    (hc : Match w c₁ c₂) :
    Query.Agree w ((Hierarchy.constants reg c₁.entry).mapM describeConstant)
      ((Hierarchy.constants reg c₂.entry).mapM describeConstant) := by
  rw [hc.entry_eq]
  exact .mapM _ fun c _ => agree_describeConstant c

theorem Query.agree_constants {c₁ c₂ : Chapter reg} (hc : Match w c₁ c₂) :
    Query.Agree w c₁.constants c₂.constants :=
  agree_remembered .constants
    (fun c => (Hierarchy.constants reg c.entry).mapM describeConstant) (fun _ => rfl)
    agree_findConstants hc

theorem Query.agree_findProperties (w : Tables reg) (c₁ c₂ : Chapter reg)
    (hc : Match w c₁ c₂) :
    Query.Agree w ((Hierarchy.properties reg c₁.entry).mapM describeProperty)
      ((Hierarchy.properties reg c₂.entry).mapM describeProperty) := by
  rw [hc.entry_eq]
  exact .mapM _ fun p _ => agree_describeProperty p

theorem Query.agree_properties {c₁ c₂ : Chapter reg} (hc : Match w c₁ c₂) :
    Query.Agree w c₁.properties c₂.properties :=
  agree_remembered .properties
    (fun c => (Hierarchy.properties reg c.entry).mapM describeProperty) (fun _ => rfl)
    agree_findProperties hc

theorem Query.agree_findMethods (w : Tables reg) (c₁ c₂ : Chapter reg)
    (hc : Match w c₁ c₂) :
    Query.Agree w c₁.findMethods c₂.findMethods := by
  unfold Chapter.findMethods
  rw [hc.entry_eq]
  refine (Query.Agree.mapM _ fun m _ => agree_describeMethod hc m).bind
    fun w₁ hle₁ ms₁ ms₂ hms => ?_
  exact .pure (hms.sortNaturalBy (·.name) fun _ => rfl)

theorem Query.agree_methods {c₁ c₂ : Chapter reg} (hc : Match w c₁ c₂) :
    Query.Agree w c₁.methods c₂.methods :=
  agree_remembered .methods Chapter.findMethods (fun _ => rfl) agree_findMethods hc

theorem Query.agree_method? {c₁ c₂ : Chapter reg} (hc : Match w c₁ c₂) (name : String) :
    Query.Agree w (c₁.method? name) (c₂.method? name) := by
  refine (agree_methods hc).bind fun w₁ hle₁ ms₁ ms₂ hms => ?_
  exact .pure ((hms.find? _ fun _ => rfl).or (hms.find? _ fun _ => rfl))

/-- **Every facet agrees.** -/
theorem Query.agree_facet {c₁ c₂ : Chapter reg} (hc : Match w c₁ c₂) (facet : Facet) :
    Query.Agree w (c₁.facet facet) (c₂.facet facet) := by
  cases facet with
  | doc => exact .gathered (Gather.agree_doc hc)
  | templates => exact agree_templates hc
  | parent => exact agree_parent hc
  | interfaces => exact agree_interfaces hc
  | traits => exact agree_traits hc
  | constants => exact agree_constants hc
  | properties => exact agree_properties hc
  | methods => exact agree_methods hc

/-- **All that the page of a class shows agrees.** -/
theorem Query.agree_sheet {c₁ c₂ : Chapter reg} (hc : Match w c₁ c₂) :
    Query.Agree w c₁.sheet c₂.sheet := by
  refine (Query.Agree.gathered (Gather.agree_doc hc)).bind_eq fun w₁ hle₁ doc => ?_
  have hc := hc.mono hle₁
  refine (agree_templates hc).bind fun w₂ hle₂ t₁ t₂ ht => ?_
  have hc := hc.mono hle₂
  refine (agree_parent hc).bind fun w₃ hle₃ p₁ p₂ hp => ?_
  have hc := hc.mono hle₃
  refine (agree_interfaces hc).bind fun w₄ hle₄ is₁ is₂ his => ?_
  have hc := hc.mono hle₄
  refine (agree_traits hc).bind fun w₅ hle₅ ts₁ ts₂ hts => ?_
  have hc := hc.mono hle₅
  refine (agree_constants hc).bind fun w₆ hle₆ cs₁ cs₂ hcs => ?_
  have hc := hc.mono hle₆
  refine (agree_properties hc).bind fun w₇ hle₇ ps₁ ps₂ hps => ?_
  have hc := hc.mono hle₇
  refine (agree_methods hc).bind fun w₈ hle₈ ms₁ ms₂ hms => ?_
  -- every part is carried from the tables it was found in to the last ones
  have hle₆₈ := hle₇.trans hle₈
  have hle₅₈ := hle₆.trans hle₆₈
  have hle₄₈ := hle₅.trans hle₅₈
  have hle₃₈ := hle₄.trans hle₄₈
  exact .pure (.of_parts ((hc.mono hle₈).prod ((ht.mono (hle₃.trans hle₃₈)).prod
    ((hp.mono hle₃₈).prod
      ((his.mono hle₄₈).prod ((hts.mono hle₅₈).prod ((hcs.mono hle₆₈).prod
      ((hps.mono hle₈).prod hms))))))) fun _ => rfl)

end PhpHandbook.Handbook
