import PhpHandbook.Proofs.Building
import PhpHandbook.Proofs.NameResolution

/-!
# The names of templates

A name in a comment is resolved to a template if a template of that name is bound.  It is also
resolved to a template if one is bound whose name is what the name is completed to: that of a
registered class, which is found without regard to capital and small letters and in the same
namespace, or what an import stands for.  In that case the reference keeps the name as it is
written, and there may be no template of that name.

No other templates are in a resolved type, so a name that is completed to no other one is that of a
bound template.

## Main definitions

* `ResolvedType.TemplatesAre`: a property of the names of all templates in a type.
* `Resolver.Hides`: a template is bound under the full name of a name.
* `Resolver.Admits`: a reference to a template may have a name.

## Main statements

* `Resolver.complete_cases`: what a name can be completed to.
* `Query.yields_resolve`: the templates in a resolved type, by induction over the type expression.
* `template_in_resolved_iff`: the names of templates in resolved types.
-/

namespace PhpHandbook.Handbook

open DocBlock (Document TypeExpr CallableParam)
open Registry (ClassEntry unrooted)

variable {reg : Registry}

/-! ### Templates in a type -/

namespace ResolvedType

variable {P : String → Prop}

/-- The names of all templates in a type have a property. -/
def TemplatesAre (P : String → Prop) (ty : ResolvedType) : Prop :=
  ∀ n, .template n ∈ ty.walk → P n

/-- The templates in several types are those in each of them. -/
theorem forall_mem_flatMap_walk {ts : List ResolvedType} :
    (∀ n, .template n ∈ ts.flatMap walk → P n) ↔ ∀ t ∈ ts, t.TemplatesAre P := by
  simp only [List.mem_flatMap]
  exact ⟨fun h t ht n hn => h n ⟨t, ht, hn⟩, fun h n ⟨t, ht, hn⟩ => h t ht n hn⟩

@[simp]
theorem templatesAre_template {name : String} : TemplatesAre P (.template name) ↔ P name := by
  simp [TemplatesAre, walk]

@[simp]
theorem templatesAre_named {name : String} {generics : List ResolvedType} :
    TemplatesAre P (.named name generics) ↔ ∀ t ∈ generics, t.TemplatesAre P := by
  rw [← forall_mem_flatMap_walk]
  simp [TemplatesAre, walk, walkAll_eq]

@[simp]
theorem templatesAre_linked {id : ChapterId} {name : String} {generics : List ResolvedType} :
    TemplatesAre P (.linked id name generics) ↔ ∀ t ∈ generics, t.TemplatesAre P := by
  rw [← forall_mem_flatMap_walk]
  simp [TemplatesAre, walk, walkAll_eq]

@[simp]
theorem templatesAre_union {members : List ResolvedType} :
    TemplatesAre P (.union members) ↔ ∀ t ∈ members, t.TemplatesAre P := by
  rw [← forall_mem_flatMap_walk]
  simp [TemplatesAre, walk, walkAll_eq]

@[simp]
theorem templatesAre_intersection {members : List ResolvedType} :
    TemplatesAre P (.intersection members) ↔ ∀ t ∈ members, t.TemplatesAre P := by
  rw [← forall_mem_flatMap_walk]
  simp [TemplatesAre, walk, walkAll_eq]

@[simp]
theorem templatesAre_callable {name returns : ResolvedType}
    {params : List (CallableSlot ResolvedType)} :
    TemplatesAre P (.callable name params returns) ↔
      name.TemplatesAre P ∧ (∀ t ∈ params.map (·.type), t.TemplatesAre P) ∧
        returns.TemplatesAre P := by
  rw [← forall_mem_flatMap_walk]
  simp only [TemplatesAre, walk, walkSlots_eq, List.mem_cons, List.mem_append, reduceCtorEq,
    false_or, or_imp, forall_and, and_assoc]

@[simp]
theorem templatesAre_conditional {subject : String} {target yes no : ResolvedType} :
    TemplatesAre P (.conditional subject target yes no) ↔
      target.TemplatesAre P ∧ yes.TemplatesAre P ∧ no.TemplatesAre P := by
  simp only [TemplatesAre, walk, List.mem_cons, List.mem_append, reduceCtorEq, false_or, or_imp,
    forall_and, and_assoc]

end ResolvedType

/-! ### Names -/

namespace Resolver

/-- **A template hides what a name stands for**: the name is completed to another one, which is the
name of a registered class or what an import stands for, and a template of that name is bound. -/
structure Hides (reg : Registry) (r : Resolver) (doc : Option Document) (name : String) : Prop where
  /-- A template of the full name is bound. -/
  bound : r.isBound doc (r.complete reg name)
  /-- The full name is another one. -/
  other : r.complete reg name ≠ name
  /-- The full name is that of a class or comes from an import. -/
  known : (∃ e : reg.Entry, r.complete reg name = e.1.name) ∨
    r.expandImport? name = some (r.complete reg name)

/-- **What a name is completed to**: the name of a class, what an import stands for, or itself. -/
theorem complete_cases (r : Resolver) (name : String) :
    (∃ e : reg.Entry, r.complete reg name = e.1.name) ∨
      r.expandImport? name = some (r.complete reg name) ∨ r.complete reg name = name := by
  unfold complete
  cases hfind : reg.find? name with
  | some e => exact .inl ⟨e, rfl⟩
  | none =>
    cases hexpand : r.expandImport? name with
    | some full => exact .inr (.inl rfl)
    | none =>
      cases hsibling : r.sibling? reg name with
      | none => exact .inr (.inr rfl)
      | some full =>
        unfold sibling? at hsibling
        split at hsibling
        · cases hsibling
        · obtain ⟨e, -, rfl⟩ := Option.map_eq_some_iff.1 hsibling
          exact .inl ⟨e, rfl⟩

/-- **A reference to a template may have this name.** -/
structure Admits (reg : Registry) (r : Resolver) (doc : Option Document)
    (name : String) : Prop where
  /-- There is no separator in front. -/
  rootless : unrooted name = name
  /-- A template of that name is bound, or one hides what the name stands for. -/
  bound_or_hides : r.isBound doc name ∨ r.Hides reg doc name

/-- A name may be that of a template if one is bound under it or under its full name. -/
theorem admits_of_bound {r : Resolver} {doc : Option Document} {name : String}
    (hname : unrooted name = name)
    (h : r.isBound doc name ∨ r.isBound doc (r.complete reg name)) : r.Admits reg doc name := by
  refine ⟨hname, ?_⟩
  by_cases hother : r.complete reg name = name
  · rw [hother, or_self] at h
    exact .inl h
  · refine h.imp_right fun hfull => ⟨hfull, hother, ?_⟩
    rcases r.complete_cases name with hknown | hknown | hsame
    · exact .inl hknown
    · exact .inr hknown
    · exact absurd hsame hother

/-- A name that is admitted is resolved to a template. -/
theorem Admits.resolveName {r : Resolver} {doc : Option Document} {name : String}
    (h : r.Admits reg doc name) (generics : List ResolvedType) :
    r.resolveName doc name generics = (pure (.template name) : Gather reg ResolvedType) := by
  have hbound : (r.isBound doc name || r.isBound doc (r.complete reg name)) = true := by
    rw [Bool.or_eq_true]
    exact h.bound_or_hides.imp_right Hides.bound
  simp only [Resolver.resolveName, h.rootless, hbound, if_true]

end Resolver

/-! ### Resolving -/

namespace Query

open ResolvedType (TemplatesAre)

variable {r : Resolver} {doc : Option Document}

theorem yields_gathered {α : Type} {P : α → Prop} {g : Gather reg α}
    (h : ∀ run, P (g.run run).1) :
    Yields (gathered g) P := by
  intro run a ha
  cases ha
  exact h run

/-- A reference to a class is no template. -/
theorem yields_reference {P : String → Prop} (name : String) {generics : List ResolvedType}
    (h : ∀ t ∈ generics, t.TemplatesAre P) :
    Yields (gathered (reference name generics : Gather reg ResolvedType)) (TemplatesAre P) := by
  refine yields_gathered fun run => ?_
  unfold reference
  split
  · exact ResolvedType.templatesAre_linked.2 h
  · exact ResolvedType.templatesAre_named.2 h

theorem yields_resolveName (name : String) {generics : List ResolvedType}
    (h : ∀ t ∈ generics, t.TemplatesAre (r.Admits reg doc)) :
    Yields (gathered (r.resolveName doc name generics : Gather reg ResolvedType))
      (TemplatesAre (r.Admits reg doc)) := by
  unfold Resolver.resolveName
  simp only
  split
  next hbound =>
    rw [Bool.or_eq_true] at hbound
    exact yields_pure <| ResolvedType.templatesAre_template.2 <|
      Resolver.admits_of_bound (Registry.unrooted_unrooted name) hbound
  · exact yields_reference _ h

mutual

/-- **The templates in a resolved type** are all bound, or hide what their name stands for. -/
theorem yields_resolve (r : Resolver) (doc : Option Document) :
    (t : TypeExpr) → Yields (r.resolve doc t : Query reg ResolvedType)
      (TemplatesAre (r.Admits reg doc))
  | .identifier name => yields_resolveName name nofun
  | .generic base args => by
    rw [Resolver.resolve]
    exact (yields_resolveAll r doc args).bind fun _ h => yields_resolveName base h
  | .union members => by
    rw [Resolver.resolve, map_eq_pure_bind]
    exact (yields_resolveAll r doc members).bind fun _ h =>
      yields_pure (ResolvedType.templatesAre_union.2 h)
  | .intersection members => by
    rw [Resolver.resolve, map_eq_pure_bind]
    exact (yields_resolveAll r doc members).bind fun _ h =>
      yields_pure (ResolvedType.templatesAre_intersection.2 h)
  | .nullable inner => by
    rw [Resolver.resolve]
    exact (yields_resolve r doc inner).bind fun _ h =>
      yields_pure (by simpa [ResolvedType.null, ResolvedType.plain] using h)
  | .array inner => by
    rw [Resolver.resolve]
    exact (yields_resolve r doc inner).bind fun _ h => yields_pure (by simpa using h)
  | .literal (.integer value) => yields_resolveName value nofun
  | .literal (.string value) => yields_resolveName value nofun
  | .literal (.decimal value) => nofun
  | .literal (.classConstant className name) => nofun
  | .arrayShape kind items isSealed => yields_pure (by simp [ResolvedType.plain])
  | .objectShape items => yields_pure (by simp [ResolvedType.plain])
  | .this => yields_pure (by simp [ResolvedType.plain])
  | .conditional subject negated target yes no => by
    rw [Resolver.resolve]
    refine (yields_resolve r doc target).bind fun _ htarget => (yields_resolve r doc yes).bind
      fun _ hyes => (yields_resolve r doc no).bind fun _ hno => yields_pure ?_
    split
    · exact ResolvedType.templatesAre_conditional.2 ⟨htarget, hno, hyes⟩
    · exact ResolvedType.templatesAre_conditional.2 ⟨htarget, hyes, hno⟩
  | .callable name params returns => by
    rw [Resolver.resolve]
    refine Yields.bind (P := TemplatesAre (r.Admits reg doc)) ?_ fun _ hname =>
      (yields_resolveParams r doc params).bind fun _ hparams =>
        (yields_resolve r doc returns).bind fun _ hreturns =>
          yields_pure (ResolvedType.templatesAre_callable.2 ⟨hname, hparams, hreturns⟩)
    unfold Resolver.callableName
    split
    · exact yields_reference _ nofun
    · exact yields_pure (by simp [ResolvedType.plain])
  | .offset base key => nofun

theorem yields_resolveAll (r : Resolver) (doc : Option Document) :
    (ts : List TypeExpr) → Yields (r.resolveAll doc ts : Query reg (List ResolvedType))
      fun types => ∀ ty ∈ types, ty.TemplatesAre (r.Admits reg doc)
  | [] => yields_pure nofun
  | t :: ts => by
    rw [Resolver.resolveAll]
    exact (yields_resolve r doc t).bind fun _ ht => (yields_resolveAll r doc ts).bind
      fun _ hts => yields_pure (List.forall_mem_cons.2 ⟨ht, hts⟩)

theorem yields_resolveParams (r : Resolver) (doc : Option Document) :
    (params : List (CallableParam TypeExpr)) →
      Yields (r.resolveParams doc params : Query reg (List (CallableSlot ResolvedType)))
        fun slots => ∀ ty ∈ slots.map (·.type), ty.TemplatesAre (r.Admits reg doc)
  | [] => yields_pure nofun
  | ⟨type, byRef, variadic, _, _⟩ :: params => by
    rw [Resolver.resolveParams]
    exact (yields_resolve r doc type).bind fun _ htype => (yields_resolveParams r doc params).bind
      fun _ hparams => yields_pure (List.forall_mem_cons.2 ⟨htype, hparams⟩)

end

end Query

/-- **The names of templates in resolved types.**  A template of some name is referred to in a type
that is resolved with given templates if and only if a template of that name is bound, or there is
one that hides what the name stands for; and the name has no separator in front. -/
theorem template_in_resolved_iff (r : Resolver) (doc : Option Document) (run : Run reg)
    (n : String) :
    (∃ t ty, ((r.resolve doc t : Query reg ResolvedType).run.run run).1 = .ok ty ∧
        .template n ∈ ty.walk) ↔
      unrooted n = n ∧ (r.isBound doc n ∨ r.Hides reg doc n) := by
  constructor
  · rintro ⟨t, ty, hty, hn⟩
    have hadmits : r.Admits reg doc n := Query.yields_resolve r doc t run ty hty n hn
    exact ⟨hadmits.rootless, hadmits.bound_or_hides⟩
  · rintro ⟨hrootless, hbound⟩
    have hadmits : r.Admits reg doc n := ⟨hrootless, hbound⟩
    refine ⟨.identifier n, .template n, ?_, List.mem_singleton.2 rfl⟩
    rw [Resolver.resolve, hadmits.resolveName]
    rfl

/-- Two classes outside all namespaces, of which one is called like a template of the other. -/
def namesakes : Registry where
  entries :=
    [{ bareClass "" "T" [] with name := "T" }, { bareClass "" "Box" [] with name := "Box" }]
  distinct := by decide +kernel
  formed := by decide +kernel

/-- The class of that name. -/
def templateNamesake : namesakes.Entry :=
  ⟨_, List.mem_cons_self⟩

/-- The other one of them. -/
def boxNamesake : namesakes.Entry :=
  ⟨_, List.mem_cons_of_mem _ List.mem_cons_self⟩

/-- Where its types are resolved. -/
def boxResolver : Resolver :=
  ⟨boxNamesake.1, Hierarchy.surroundings namesakes boxNamesake.1, ["T"]⟩

/-- There the name of the first class, in small letters, is resolved to a template, and no template
of that name is bound. -/
theorem template_of_other_letters :
    ((boxResolver.resolve none (.identifier "t") : Query namesakes ResolvedType).run.run {}).1
        = .ok (.template "t") ∧
      boxResolver.isBound none "t" = false := by
  -- each side is compared with a literal: two computed texts are slow to compare
  have hkey : Registry.classKey "t" = Registry.classKey templateNamesake.1.name :=
    calc Registry.classKey "t" = "t" := by decide +kernel
      _ = Registry.classKey templateNamesake.1.name := by decide +kernel
  have hfind : namesakes.find? "t" = some templateNamesake :=
    (congrArg namesakes.findKey? hkey).trans (Registry.find?_name templateNamesake)
  have hbound : boxResolver.isBound none (boxResolver.complete namesakes "t") = true := by
    rw [Resolver.complete, hfind]
    decide +kernel
  have hadmits : boxResolver.Admits namesakes none "t" :=
    Resolver.admits_of_bound (by decide +kernel) (.inr hbound)
  refine ⟨?_, by decide +kernel⟩
  rw [Resolver.resolve, hadmits.resolveName]
  rfl

end PhpHandbook.Handbook
