import PhpHandbook.Proofs.Flattening

/-!
# Where methods come from

A method is copied from declaration to declaration until it is visible on the class that is asked
about.  A trait gives its methods away: the class that uses it becomes the one that has them, may
make them public or private, and may take them under another name.  Parents and interfaces pass on
what they have as it is, and a parent keeps its private methods.

What a visible method says about itself stays true on the way, also where declarations form cycles.
Its source holds the method; the class that has it lies above, along parents and interfaces; where
the two differ, the source is a trait; and a new name was given to it by a rule that can be reached.

## Main definitions

* `Inherits`: the parent of a declaration and its interfaces.
* `Renames`: a rule of a declaration takes methods over under a name.
* `Traced`: what holds of a method that has come to a declaration.

## Main statements

* `mem_collectFrom`: the four ways by which a declaration has a member.
* `traced_of_mem`: every step keeps `Traced`, by induction along the walk.
* `methods_provenance`: what follows for the methods visible on a declaration.
-/

namespace PhpHandbook.Hierarchy

open Declaration (Adaptation ClassKind Name Visibility)
open Registry (ClassEntry lower sameText)

variable {reg : Registry} {α : Type}

/-! ### Members of a collection -/

theorem mem_of_mem_keepFirstFrom {key : α → String} {items : List α}
    {seen : List String} {a : α} (h : a ∈ keepFirstFrom key seen items) : a ∈ items := by
  induction items generalizing seen with
  | nil => cases h
  | cons x items ih =>
    rw [keepFirstFrom] at h
    split at h
    · exact List.mem_cons_of_mem x (ih h)
    · rcases List.mem_cons.1 h with rfl | h
      · exact List.mem_cons_self
      · exact List.mem_cons_of_mem x (ih h)

/-- **Where a member comes from**: it is a declaration's own, or comes from a trait, from the parent
or from an interface, each asked with the declaration on the path. -/
theorem mem_collectFrom {rules : MemberRules reg α} {path : List String} {e : reg.Entry} {a : α}
    (h : a ∈ collectFrom rules path e) :
    e.1.key ∉ path ∧
      (a ∈ rules.own e ∨
        (∃ t ∈ traits reg e.1, a ∈ rules.fromTrait e t
          (collectFrom rules (e.1.key :: path) t)) ∨
        (∃ p, parent? reg e.1 = some p ∧ a ∈ collectFrom rules (e.1.key :: path) p ∧
          rules.isInherited a = true) ∨
        ∃ i ∈ rules.interfaces e, a ∈ collectFrom rules (e.1.key :: path) i) := by
  by_cases hpath : e.1.key ∈ path
  · rw [collectFrom, dif_pos hpath] at h
    cases h
  · refine ⟨hpath, ?_⟩
    rw [collectFrom, dif_neg hpath] at h
    rcases List.mem_append.1 (mem_of_mem_keepFirstFrom h) with h | hinterface
    · rcases List.mem_append.1 h with h | hparent
      · rcases List.mem_append.1 h with hown | htrait
        · exact .inl hown
        · exact .inr (.inl (List.mem_flatMap.1 htrait))
      · obtain ⟨p, hp, ha⟩ := List.mem_flatMap.1 hparent
        obtain ⟨ha, hinherited⟩ := List.mem_filter.1 ha
        exact .inr (.inr (.inl ⟨p, Option.mem_toList.1 hp, ha, hinherited⟩))
    · exact .inr (.inr (.inr (List.mem_flatMap.1 hinterface)))

/-! ### Single steps -/

/-- A declaration **inherits** from its parent and from its interfaces. -/
def Inherits (e d : reg.Entry) : Prop :=
  parent? reg e.1 = some d ∨ d ∈ interfaceEntries reg e.1

theorem Inherits.leads {e d : reg.Entry} (h : Inherits e d) : Leads e d := by
  rcases h with hparent | hinterface
  · exact List.mem_append_left _ (List.mem_append_right _ (Option.mem_toList.2 hparent))
  · exact List.mem_append_right _ hinterface

/-- A trait has no parent and no interfaces. -/
theorem not_inherits_of_trait {e d : reg.Entry} (h : e.1.kind = .trait) : ¬Inherits e d := by
  rintro (hparent | hinterface)
  · rw [parent?, parentName?, h] at hparent
    cases hparent
  · rw [interfaceEntries, directInterfaces, declaredInterfaces, h] at hinterface
    cases hinterface

theorem kind_of_mem_traits {e : ClassEntry} {t : reg.Entry} (h : t ∈ traits reg e) :
    t.1.kind = .trait :=
  beq_iff_eq.1 (List.mem_filter.1 h).2

/-- A declaration **renames** methods to a name: one of its rules gives the name to a method. -/
def Renames (e : reg.Entry) (name : String) : Prop :=
  ∃ use ∈ e.1.decl.traitUses, ∃ traitName method visibility,
    Adaptation.rename traitName method visibility (some name) ∈ use.adaptations

/-- An alias with a name of its own was written with that name. -/
theorem renames_of_mem_traitAliases {e : reg.Entry} {a : TraitAlias}
    (ha : a ∈ traitAliases reg e.1) (hnew : sameText a.newName a.method = false) :
    Renames e a.newName := by
  obtain ⟨adaptation, hadaptation, hsome⟩ := List.mem_filterMap.1 ha
  obtain ⟨use, huse, hmem⟩ := List.mem_flatMap.1 hadaptation
  cases adaptation with
  | precedence traitName method insteadOf => cases hsome
  | rename traitName method visibility newName =>
    obtain rfl := Option.some.inj hsome
    cases newName with
    | none => simp [sameText] at hnew
    | some newName => exact ⟨use, huse, traitName, method, visibility, hmem⟩

/-- **What a class makes of the methods of a trait**: it has them itself, under the name they had or
under one that a rule gives them, and nothing else about them changes but who may see them. -/
theorem mem_importMethods {e t : reg.Entry} {provided : List (VisibleMethod reg)}
    {r : VisibleMethod reg}
    (h : r ∈ importMethods e.1 (traitAliases reg e.1) t.1.name provided) :
    ∃ m ∈ provided, r.method = m.method ∧ r.source = m.source ∧
      r.declaringClass = e.1.name ∧
      (r.name = m.name ∨ Renames e r.name) := by
  rcases List.mem_append.1 h with hown | halias
  · obtain ⟨m, hm, rfl⟩ := List.mem_map.1 hown
    exact ⟨m, (List.mem_filter.1 hm).1, rfl, rfl, rfl, .inl rfl⟩
  · obtain ⟨a, ha, hsome⟩ := List.mem_filterMap.1 halias
    unfold takeOverAs? at hsome
    split at hsome
    · next hfor =>
      obtain ⟨m, hm, rfl⟩ := Option.map_eq_some_iff.1 hsome
      rw [Bool.and_eq_true, Bool.not_eq_true'] at hfor
      exact ⟨m, List.mem_of_find?_eq_some hm, rfl, rfl, rfl,
        .inr (renames_of_mem_traitAliases ha hfor.2)⟩
    · cases hsome

/-! ### Whole walks -/

/-- **What holds of a method that has come to a declaration.** -/
structure Traced (e : reg.Entry) (r : VisibleMethod reg) : Prop where
  /-- The source holds the method. -/
  declared : r.method ∈ r.source.1.decl.methods
  /-- The class that has the method lies above. -/
  declaring : ∃ d, Relation.ReflTransGen Inherits e d ∧ r.declaringClass = d.1.name
  /-- A method that its source does not have itself comes from a trait. -/
  source : r.source.1.name ≠ r.declaringClass → r.source.1.kind = .trait
  /-- A trait has methods of traits only. -/
  ofTrait : e.1.kind = .trait → r.source.1.kind = .trait
  /-- A new name was given by a rule. -/
  name : r.name = r.method.name.name ∨ ∃ d, Reaches e d ∧ Renames d r.name

/-- A declaration's own methods are traced. -/
theorem traced_of_mem_ownMethods {e : reg.Entry} {r : VisibleMethod reg} (h : r ∈ ownMethods e) :
    Traced e r := by
  obtain ⟨m, hm, rfl⟩ := List.mem_map.1 h
  exact ⟨hm, ⟨e, .refl, rfl⟩, fun hne => absurd rfl hne, id, .inl rfl⟩

/-- What a class takes over from a trait is traced. -/
theorem Traced.importMethods {e t : reg.Entry} (ht : t ∈ traits reg e.1)
    {provided : List (VisibleMethod reg)} (hprovided : ∀ m ∈ provided, Traced t m)
    {r : VisibleMethod reg}
    (h : r ∈ importMethods e.1 (traitAliases reg e.1) t.1.name provided) : Traced e r := by
  obtain ⟨m, hm, hmethod, hsource, hdeclaring, hname⟩ := mem_importMethods h
  have hm : Traced t m := hprovided m hm
  have htrait : r.source.1.kind = .trait := hsource ▸ hm.ofTrait (kind_of_mem_traits ht)
  have hleads : Leads e t := List.mem_append_left _ (List.mem_append_left _ ht)
  refine ⟨?_, ⟨e, .refl, hdeclaring⟩, fun _ => htrait, fun _ => htrait, ?_⟩
  · rw [hmethod, hsource]
    exact hm.declared
  · rcases hname with hold | hnew
    · rw [hold, hmethod]
      refine hm.name.imp_right fun ⟨d, hreaches, hrenames⟩ => ?_
      exact ⟨d, .head hleads hreaches, hrenames⟩
    · exact .inr ⟨e, .refl, hnew⟩

/-- What a declaration inherits is traced. -/
theorem Traced.inherited {e d : reg.Entry} {r : VisibleMethod reg} (hd : Inherits e d)
    (h : Traced d r) : Traced e r := by
  obtain ⟨c, hc, hdeclaring⟩ := h.declaring
  refine ⟨h.declared, ⟨c, .head hd hc, hdeclaring⟩, h.source, ?_, ?_⟩
  · exact fun htrait => absurd hd (not_inherits_of_trait htrait)
  · refine h.name.imp_right fun ⟨x, hreaches, hrenames⟩ => ?_
    exact ⟨x, .head hd.leads hreaches, hrenames⟩

/-- **Every method that is collected is traced**, whatever is on the path. -/
theorem traced_of_mem {path : List String} {e : reg.Entry} {r : VisibleMethod reg}
    (h : r ∈ collectFrom (methodRules reg) path e) : Traced e r := by
  obtain ⟨hpath,
    hown | ⟨t, ht, htrait⟩ | ⟨p, hp, hparent, -⟩ | ⟨i, hi, hinterface⟩⟩ :=
    mem_collectFrom h
  · exact traced_of_mem_ownMethods hown
  · exact Traced.importMethods ht (fun m hm => traced_of_mem hm) htrait
  · exact (traced_of_mem hparent).inherited (.inl hp)
  · exact (traced_of_mem hinterface).inherited (.inr hi)
termination_by reg.unvisited path
decreasing_by all_goals exact Registry.unvisited_cons_lt e.2 hpath

/-- A private method is a declaration's own, unless an interface has given it. -/
theorem declaringClass_of_isPrivate {path : List String} {e : reg.Entry} {r : VisibleMethod reg}
    (h : r ∈ collectFrom (methodRules reg) path e) (hprivate : r.visibility = .isPrivate) :
    r.declaringClass = e.1.name ∨
      ∃ i ∈ interfaceEntries reg e.1,
      r ∈ collectFrom (methodRules reg) (e.1.key :: path) i := by
  obtain ⟨-, hown | ⟨t, -, htrait⟩ | ⟨p, -, -, hinherited⟩ | hinterface⟩ :=
    mem_collectFrom h
  · obtain ⟨m, -, rfl⟩ := List.mem_map.1 hown
    exact .inl rfl
  · obtain ⟨m, -, -, -, hdeclaring, -⟩ := mem_importMethods htrait
    exact .inl hdeclaring
  · -- a parent keeps its private methods
    have hvisible : (r.visibility != .isPrivate) = true := hinherited
    rw [hprivate] at hvisible
    cases hvisible
  · exact .inr hinterface

/-- **What a visible method says about itself is true**, whatever cycles declarations form.  Its
source declares it; the class that has it is the one asked about or lies above it, along parents and
interfaces; where source and class differ, the source is a trait; where its name is not the declared
one, a declaration that can be reached, also along traits, has a rule with that very name; and a
private method belongs to the class asked about, unless it is among those collected from one of its
interfaces. -/
theorem methods_provenance (e : reg.Entry) (r : VisibleMethod reg) (hr : r ∈ methods reg e) :
    r.method ∈ r.source.1.decl.methods ∧
      (∃ d, Relation.ReflTransGen Inherits e d ∧ r.declaringClass = d.1.name) ∧
      (r.source.1.name ≠ r.declaringClass → r.source.1.kind = .trait) ∧
      (lower r.name ≠ lower r.method.name.name → ∃ d, Reaches e d ∧ Renames d r.name) ∧
      (r.visibility = .isPrivate → r.declaringClass = e.1.name ∨
        ∃ i ∈ interfaceEntries reg e.1, r ∈ collectFrom (methodRules reg) [e.1.key] i) := by
  have htraced : Traced e r := traced_of_mem hr
  refine ⟨htraced.declared, htraced.declaring, htraced.source, fun hne => ?_,
    declaringClass_of_isPrivate hr⟩
  exact htraced.name.resolve_left fun hsame => hne (congrArg lower hsame)

/-- A trait, a class that takes over its method under a second name, and a class below it that is
also above it. -/
def workshop : Registry where
  entries := [
    sketch .trait "Paint" ["draw"] [] [] [],
    { sketch .plainClass "Brush" [] ["Roller"] [] [] with
      decl := { (sketch .plainClass "Brush" [] ["Roller"] [] []).decl with
        traitUses := [⟨[Name.ofText "Paint" ⟨0, 0⟩],
          [.rename none "draw" none (some "outline")], [], ⟨0, 0⟩⟩] } },
    sketch .plainClass "Roller" [] ["Brush"] [] []]
  distinct := by decide +kernel
  formed := by decide +kernel

/-- The class at the bottom of the workshop. -/
def roller : workshop.Entry :=
  ⟨sketch .plainClass "Roller" [] ["Brush"] [] [], by simp [workshop]⟩

/-- A method that has come from a trait, under another name, along a cycle of parents. -/
theorem methods_provenance_outline :
    ∃ r ∈ methods workshop roller, r.name = "outline" ∧ r.declaringClass = "Brush" ∧
      r.method ∈ r.source.1.decl.methods ∧ r.source.1.kind = .trait ∧
      ∃ d, Reaches roller d ∧ Renames d "outline" := by
  have houtline : ∃ r ∈ methods workshop roller, r.name = "outline" ∧
      r.declaringClass = "Brush" ∧ r.source.1.name = "Paint" ∧ r.method.name.name = "draw" := by
    decide +kernel
  obtain ⟨r, hr, hname, hdeclaring, hsource, hmethod⟩ := houtline
  obtain ⟨hdeclared, -, htrait, hrenamed, -⟩ := methods_provenance roller r hr
  refine ⟨r, hr, hname, hdeclaring, hdeclared, htrait ?_, hname ▸ hrenamed ?_⟩
  · rw [hsource, hdeclaring]
    decide
  · rw [hname, hmethod]
    decide +kernel

end PhpHandbook.Hierarchy
