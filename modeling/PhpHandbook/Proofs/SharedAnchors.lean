import PhpHandbook.Proofs.Heirs
import PhpHandbook.Proofs.NaturalOrder
import PhpHandbook.Proofs.Origins

/-!
# Members that share an anchor

The anchor of a member is a word for its kind and the name of the member in kebab case.  Members of
one kind differ in their names, methods even in the letters of their names, but kebab case forgets
more: which letters are capital, underscores in front, and whether words were put together with an
underscore or with a capital letter.  So a page has each of its anchors once if and only if no two
names of one kind become the same in kebab case.  Members of different kinds never share an anchor.

## Main definitions

* `anchorsOf`: the anchors of constants, properties and methods, in the order of the page.
* `StayApart`: names that are different in kebab case if they are different.

## Main statements

* `nodup_keys_collectFrom`: the members of a declaration have different keys.
* `perm_anchors_of_mem_log`: which anchors there are.
* `anchors_nodup_iff`: when no two members of a page share an anchor.
* `anchors_shared_ink`: a class with two constants that share one.
-/

namespace PhpHandbook

/-! ### Different names -/

namespace Hierarchy

section KeepFirst

variable {α : Type} {key : α → String}

theorem nodup_keys_keepFirstFrom (seen : List String) (items : List α) :
    ((keepFirstFrom key seen items).map key).Nodup := by
  induction items generalizing seen with
  | nil => exact List.nodup_nil
  | cons a items ih =>
    rw [keepFirstFrom]
    split_ifs with hseen
    · exact ih seen
    · refine List.nodup_cons.2 ⟨fun hmem => ?_, ih _⟩
      obtain ⟨b, hb, hkey⟩ := List.mem_map.1 hmem
      exact key_not_mem_of_mem_keepFirstFrom hb (hkey ▸ List.mem_cons_self)

end KeepFirst

variable {reg : Registry} {α : Type}

/-- **The members of a declaration have different keys.** -/
theorem nodup_keys_collectFrom (rules : MemberRules reg α) (path : List String) (e : reg.Entry) :
    ((collectFrom rules path e).map rules.key).Nodup := by
  rw [collectFrom]
  split_ifs
  · exact List.nodup_nil
  · exact nodup_keys_keepFirstFrom [] _

theorem nodup_constant_names (e : reg.Entry) : ((constants reg e).map (·.name)).Nodup :=
  nodup_keys_collectFrom (constantRules reg) [] e

theorem nodup_property_names (e : reg.Entry) :
    ((properties reg e).map (·.property.name.name)).Nodup :=
  nodup_keys_collectFrom (propertyRules reg) [] e

theorem nodup_method_names (e : reg.Entry) : ((methods reg e).map (·.name)).Nodup := by
  have hlower := nodup_keys_collectFrom (methodRules reg) [] e
  rw [show (methodRules reg).key = Registry.lower ∘ (·.name) from rfl,
    ← List.map_map] at hlower
  exact hlower.of_map _

end Hierarchy

namespace Handbook

variable {reg : Registry}

/-! ### Anchors of a page -/

/-- The anchors of constants, properties and methods, in the order of the page. -/
def anchorsOf (constants : List Constant) (properties : List Property) (methods : List Method) :
    List String :=
  constants.map (·.anchor) ++ properties.map (·.anchor) ++ methods.map (·.anchor)

/-- Anchors of members of one kind. -/
def anchorsNamed (front : String) (names : List String) : List String :=
  names.map fun name => front ++ Text.kebab name

/-- **Names that stay apart**: those that are the same in kebab case are the same. -/
def StayApart (names : List String) : Prop :=
  ∀ a ∈ names, ∀ b ∈ names, Text.kebab a = Text.kebab b → a = b

theorem nodup_anchorsNamed_iff (front : String) {names : List String} (hnames : names.Nodup) :
    (anchorsNamed front names).Nodup ↔ StayApart names := by
  rw [anchorsNamed, List.nodup_map_iff_inj_on hnames]
  refine forall₂_congr fun a _ => forall₂_congr fun b _ => ?_
  rw [String.append_right_inj]

/-- Anchors of two kinds are different if the words for the kinds start with different letters. -/
theorem disjoint_anchorsNamed {c d : Char} {front other : List Char} (h : c ≠ d)
    (names more : List String) :
    List.Disjoint (anchorsNamed (String.ofList (c :: front)) names)
      (anchorsNamed (String.ofList (d :: other)) more) := by
  intro anchor hanchor hmore
  obtain ⟨name, -, rfl⟩ := List.mem_map.1 hanchor
  obtain ⟨other, -, hsame⟩ := List.mem_map.1 hmore
  have hchars := congrArg (fun s => s.toList.head?) hsame
  simp only [String.toList_append, String.toList_ofList, List.cons_append, List.head?_cons,
    Option.some.injEq] at hchars
  exact h hchars.symm

/-! ### The anchors of a class -/

/-- The anchors that a class has by the names of its members. -/
def anchorsOfNames (e : reg.Entry) : List String :=
  anchorsNamed "constant-" ((Hierarchy.constants reg e).map (·.name)) ++
    anchorsNamed "property-" ((Hierarchy.properties reg e).map (·.property.name.name)) ++
    anchorsNamed "method-" ((Hierarchy.methods reg e).map (·.name))

/-- **Anchors of one kind are told apart by names**, those of different kinds by their kinds. -/
theorem nodup_anchorsOfNames_iff (e : reg.Entry) :
    (anchorsOfNames e).Nodup ↔
      StayApart ((Hierarchy.constants reg e).map (·.name)) ∧
      StayApart ((Hierarchy.properties reg e).map (·.property.name.name)) ∧
      StayApart ((Hierarchy.methods reg e).map (·.name)) := by
  have hconstants := nodup_anchorsNamed_iff "constant-" (Hierarchy.nodup_constant_names e)
  have hproperties := nodup_anchorsNamed_iff "property-" (Hierarchy.nodup_property_names e)
  have hmethods := nodup_anchorsNamed_iff "method-" (Hierarchy.nodup_method_names e)
  have hothers : List.Disjoint
      (anchorsNamed "constant-" ((Hierarchy.constants reg e).map (·.name)))
      (anchorsNamed "property-" ((Hierarchy.properties reg e).map (·.property.name.name))) :=
    disjoint_anchorsNamed (c := 'c') (d := 'p') (by decide) _ _
  have hlast : List.Disjoint
      (anchorsNamed "constant-" ((Hierarchy.constants reg e).map (·.name)) ++
        anchorsNamed "property-" ((Hierarchy.properties reg e).map (·.property.name.name)))
      (anchorsNamed "method-" ((Hierarchy.methods reg e).map (·.name))) :=
    List.disjoint_append_left.2
      ⟨disjoint_anchorsNamed (c := 'c') (d := 'm') (by decide) _ _,
        disjoint_anchorsNamed (c := 'p') (d := 'm') (by decide) _ _⟩
  rw [anchorsOfNames, List.nodup_append', List.nodup_append', hconstants, hproperties, hmethods]
  simp only [hothers, hlast, and_true, and_assoc]

/-- The anchors of described members, by the names of the members. -/
theorem map_anchor_of_erase_eq {α : Type} [Linked α] {anchor : α → String}
    (hanchor : ∀ a, anchor (erase a) = anchor a) {as bs : List α}
    (h : as.map erase = bs.map erase) :
    as.map anchor = bs.map anchor := by
  have hsame := congrArg (List.map anchor) h
  rwa [List.map_map, List.map_map, show anchor ∘ erase = anchor from funext hanchor] at hsame

namespace Query

variable {before : Contents reg} {c : Chapter reg} (hc : before.get? c.id = some c)

include hc

theorem ensures_constant_anchors :
    Ensures before (c.facet .constants) fun members => List.map Constant.anchor members
      = anchorsNamed "constant-" ((Hierarchy.constants reg c.entry).map (·.name)) := by
  refine ensures_remembered .constants
    (fun c => (Hierarchy.constants reg c.entry).mapM describeConstant) (fun _ => rfl)
      agree_findConstants
    (P := fun e members => List.map Constant.anchor members
      = anchorsNamed "constant-" ((Hierarchy.constants reg e).map (·.name)))
    (fun e as bs h has => (map_anchor_of_erase_eq (fun _ => rfl) h).symm.trans has) (fun c => ?_) hc
  rw [anchorsNamed, List.map_map]
  exact yields_mapM _ Constant.anchor yields_describeConstant _

theorem ensures_property_anchors :
    Ensures before (c.facet .properties) fun members => List.map Property.anchor members
      = anchorsNamed "property-"
        ((Hierarchy.properties reg c.entry).map (·.property.name.name)) := by
  refine ensures_remembered .properties
    (fun c => (Hierarchy.properties reg c.entry).mapM describeProperty) (fun _ => rfl)
    agree_findProperties
    (P := fun e members => List.map Property.anchor members
      = anchorsNamed "property-" ((Hierarchy.properties reg e).map (·.property.name.name)))
    (fun e as bs h has => (map_anchor_of_erase_eq (fun _ => rfl) h).symm.trans has) (fun c => ?_) hc
  rw [anchorsNamed, List.map_map]
  exact yields_mapM _ Property.anchor yields_describeProperty _

/-- Methods are shown in another order than they are found in. -/
theorem ensures_method_anchors :
    Ensures before (c.facet .methods) fun members => (List.map Method.anchor members).Perm
      (anchorsNamed "method-" ((Hierarchy.methods reg c.entry).map (·.name))) := by
  refine ensures_remembered .methods Chapter.findMethods (fun _ => rfl) agree_findMethods
    (P := fun e members => (List.map Method.anchor members).Perm
      (anchorsNamed "method-" ((Hierarchy.methods reg e).map (·.name))))
    (fun e as bs h has => by
      have hanchors : List.map Method.anchor as = List.map Method.anchor bs :=
        map_anchor_of_erase_eq (fun _ => rfl) h
      rwa [← hanchors])
    (fun c => ?_) hc
  have hall := yields_mapM _ Method.anchor (yields_describeMethod c) (Hierarchy.methods reg c.entry)
  refine hall.bind fun members hmembers => yields_pure ?_
  rw [anchorsNamed, List.map_map]
  have hshown := (Text.sortNaturalBy_perm (·.name) members).map Method.anchor
  rwa [hmembers] at hshown

end Query

/-! ### The anchors in a run -/

/-- **Which anchors there are**: those of the names of the members. -/
theorem perm_anchors_of_mem_log (rules : Links) (toHtml : String → String)
    (asked : List (Inquiry reg)) {e : reg.Entry} {constants : List Constant}
    {properties : List Property} {methods : List Method}
    (hconstants : ⟨.facet e .constants, .ok constants⟩
      ∈ ((serve rules toHtml asked).run {}).1)
    (hproperties : ⟨.facet e .properties, .ok properties⟩
      ∈ ((serve rules toHtml asked).run {}).1)
    (hmethods : ⟨.facet e .methods, .ok methods⟩ ∈ ((serve rules toHtml asked).run {}).1) :
    (anchorsOf constants properties methods).Perm (anchorsOfNames e) := by
  have hfirst := Query.holds_of_mem_log rules toHtml asked .constants
    (P := fun e members => List.map Constant.anchor members
      = anchorsNamed "constant-" ((Hierarchy.constants reg e).map (·.name)))
    Query.ensures_constant_anchors hconstants
  have hsecond := Query.holds_of_mem_log rules toHtml asked .properties
    (P := fun e members => List.map Property.anchor members
      = anchorsNamed "property-" ((Hierarchy.properties reg e).map (·.property.name.name)))
    Query.ensures_property_anchors hproperties
  have hthird := Query.holds_of_mem_log rules toHtml asked .methods
    (P := fun e members => (List.map Method.anchor members).Perm
      (anchorsNamed "method-" ((Hierarchy.methods reg e).map (·.name))))
    Query.ensures_method_anchors hmethods
  exact ((List.Perm.of_eq hfirst).append (.of_eq hsecond)).append hthird

/-- **When no two members of a page share an anchor.**  Let a class have been asked for its
constants, its properties and its methods, and have answered each time.  Its anchors are all
different if and only if no two of its constants, no two of its properties and no two of its methods
have different names that are the same in kebab case. -/
theorem anchors_nodup_iff (rules : Links) (toHtml : String → String) (asked : List (Inquiry reg))
    {e : reg.Entry} {constants : List Constant} {properties : List Property} {methods : List Method}
    (hconstants : ⟨.facet e .constants, .ok constants⟩
      ∈ ((serve rules toHtml asked).run {}).1)
    (hproperties : ⟨.facet e .properties, .ok properties⟩
      ∈ ((serve rules toHtml asked).run {}).1)
    (hmethods : ⟨.facet e .methods, .ok methods⟩ ∈ ((serve rules toHtml asked).run {}).1) :
    (anchorsOf constants properties methods).Nodup ↔
      StayApart ((Hierarchy.constants reg e).map (·.name)) ∧
      StayApart ((Hierarchy.properties reg e).map (·.property.name.name)) ∧
      StayApart ((Hierarchy.methods reg e).map (·.name)) := by
  have hperm := perm_anchors_of_mem_log rules toHtml asked hconstants hproperties hmethods
  rw [hperm.nodup_iff, nodup_anchorsOfNames_iff]

/-! ### A class with constants -/

/-- A declaration that declares constants only. -/
def palette (name : String) (constants : List String) : Registry.ClassEntry where
  name := name
  space := ""
  origin := .project
  path := name ++ ".php"
  decl := {
    constants := constants.map fun c => ⟨⟨c, ⟨0, 0⟩⟩, none, "1", {}, none, ⟨0, 0⟩⟩
    kind := .plainClass, name := ⟨name, ⟨0, 0⟩⟩, modifiers := {}
    parents := [], implements := [], backingType := none, doc := none, span := ⟨0, 0⟩ }
  scope := ⟨"", []⟩

/-- Two classes with two constants each. -/
def colours : Registry where
  entries := [palette "Ink" ["RED", "Red"], palette "Paint" ["RED", "DARK_RED"]]
  distinct := by decide +kernel
  formed := by decide +kernel

/-- A class with two constants whose names differ in capital and small letters. -/
def ink : colours.Entry :=
  ⟨palette "Ink" ["RED", "Red"], by simp [colours]⟩

/-- A class with two constants whose names differ in a word. -/
def paint : colours.Entry :=
  ⟨palette "Paint" ["RED", "DARK_RED"], by simp [colours]⟩

/-- Both classes answer for their members of every kind. -/
theorem exists_members_mem_log {e : colours.Entry} (he : e ∈ [ink, paint]) :
    let log :=
      ((serve {} Markdown.toHtml
        [.facet e .constants, .facet e .properties, .facet e .methods]).run {}).1
    ∃ (constants : List Constant) (properties : List Property) (methods : List Method),
      ⟨.facet e .constants, .ok constants⟩ ∈ log ∧
      ⟨.facet e .properties, .ok properties⟩ ∈ log ∧
      ⟨.facet e .methods, .ok methods⟩ ∈ log := by
  have hanswered : ∀ e ∈ [ink, paint], (firstAnswer e .constants).toOption.isSome = true ∧
      (firstAnswer e .properties).toOption.isSome = true ∧
      (firstAnswer e .methods).toOption.isSome = true := by
    decide +kernel
  have hmem {facet : Facet} (hasked : .facet e facet ∈
      [.facet e .constants, .facet e .properties, (.facet e .methods : Inquiry colours)])
      (hsome : (firstAnswer e facet).toOption.isSome = true) :
      ∃ answer, ⟨.facet e facet, .ok answer⟩ ∈
        ((serve {} Markdown.toHtml [.facet e .constants, .facet e .properties,
          .facet e .methods]).run {}).1 := by
    cases hfirst : firstAnswer e facet with
    | error error =>
      rw [hfirst] at hsome
      cases hsome
    | ok first =>
      obtain ⟨answer, hlog, -⟩ := exists_answer_mem_log {} Markdown.toHtml _ hasked hfirst
      exact ⟨answer, hlog⟩
  obtain ⟨hconstants, hproperties, hmethods⟩ := hanswered e he
  obtain ⟨constants, hconstants⟩ := hmem (by simp) hconstants
  obtain ⟨properties, hproperties⟩ := hmem (by simp) hproperties
  obtain ⟨methods, hmethods⟩ := hmem (by simp) hmethods
  exact ⟨constants, properties, methods, hconstants, hproperties, hmethods⟩

/-- Names that differ in a word give different anchors. -/
theorem anchors_apart_paint :
    let log := ((serve {} Markdown.toHtml [.facet paint .constants, .facet paint .properties,
      .facet paint .methods]).run {}).1
    ∃ (constants : List Constant) (properties : List Property) (methods : List Method),
      ⟨.facet paint .constants, .ok constants⟩ ∈ log ∧
      ⟨.facet paint .properties, .ok properties⟩ ∈ log ∧
      ⟨.facet paint .methods, .ok methods⟩ ∈ log ∧
      (anchorsOf constants properties methods).Nodup := by
  obtain ⟨constants, properties, methods, hconstants, hproperties, hmethods⟩ :=
    exists_members_mem_log (e := paint) (by simp)
  refine ⟨constants, properties, methods, hconstants, hproperties, hmethods, ?_⟩
  refine (anchors_nodup_iff {} Markdown.toHtml _ hconstants hproperties hmethods).2 ?_
  unfold StayApart
  decide +kernel

/-- **A class with two constants that share an anchor**: their names differ in capital and small
letters only. -/
theorem anchors_shared_ink :
    let log :=
      ((serve {} Markdown.toHtml [.facet ink .constants, .facet ink .properties,
        .facet ink .methods]).run {}).1
    ∃ (constants : List Constant) (properties : List Property) (methods : List Method),
      ⟨.facet ink .constants, .ok constants⟩ ∈ log ∧
      ⟨.facet ink .properties, .ok properties⟩ ∈ log ∧
      ⟨.facet ink .methods, .ok methods⟩ ∈ log ∧
      ¬(anchorsOf constants properties methods).Nodup := by
  obtain ⟨constants, properties, methods, hconstants, hproperties, hmethods⟩ :=
    exists_members_mem_log (e := ink) (by simp)
  refine ⟨constants, properties, methods, hconstants, hproperties, hmethods, ?_⟩
  rw [(perm_anchors_of_mem_log {} Markdown.toHtml _ hconstants hproperties hmethods).nodup_iff]
  decide +kernel

end Handbook

end PhpHandbook
